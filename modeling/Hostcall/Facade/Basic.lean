import Hostcall.Error
import Hostcall.Program
import Hostcall.Text.Utf8

/-!
# System operations for applets

A facade is what an applet gets to call. `Facade.hosted` turns each operation into one call of the
host and reads the error register exactly when that call failed; `Facade.absent` is for where there
is no host. An operation on an empty buffer has its result without a host: nothing can be read or
written, and no directory fits.
-/

namespace Hostcall

/-- The operations of an applet. Those that fill a buffer take it as it is and give it back. -/
structure Facade where
  /-- Opens a file; the mode counts only where the flags create one. -/
  openFile : String → OpenFlags → Mode → Program (Except Error Fd)
  /-- Reads to the front of a buffer; a count of 0 means the end of the input. -/
  read : Fd → Bytes → Program (Except Error Nat × Bytes)
  /-- Writes some bytes from the front. -/
  write : Fd → Bytes → Program (Except Error Nat)
  close : Fd → Program (Except Error Unit)
  unlink : String → Program (Except Error Unit)
  mkdir : String → Mode → Program (Except Error Unit)
  chdir : String → Program (Except Error Unit)
  /-- The current directory, by way of a buffer that the host fills. -/
  getcwd : Bytes → Program (Except Error String × Bytes)
  /-- Moves the position of a descriptor and gives the new one. -/
  seek : Fd → Int → Whence → Program (Except Error Int)
  /-- Sleeps for seconds and gives those left if woken early. -/
  sleep : Nat → Program (Except Error Nat)
  /-- Sleeps for microseconds; a host may refuse a full second. -/
  usleep : Nat → Program (Except Error Unit)
  /-- Ends the applet, or gives the reason why it cannot be ended. -/
  exit : Int → Program Error
  /-- Ends the applet as a failure, or gives the reason why it cannot be ended. -/
  abort : Program Error
  /-- An error in words. -/
  describe : Error → Program String

/-- The description of a number by the host; 0 is known without asking. -/
def Errno.describe (e : Errno) : Program String :=
  if e.isNone then return Error.noErrorText
  else do
    match ← Program.call (.strerror e.code) with
    | some raw => return Utf8.decode (Bytes.beforeNul raw)
    | none => return Error.unknownText

namespace Facade

/-- The error of the call that just failed: the register is read once and the failure logged. -/
def lastError (operation : String) : Program Error := do
  let code ← Program.call .errno
  Program.log .trace (operation ++ " failed: " ++ (Errno.mk code).text)
  return .host ⟨code⟩

/-- The result of a call that answers with a number: a negative one is a failure. -/
def checked (operation : String) (n : Int) : Program (Except Error Nat) :=
  if n < 0 then return .error (← lastError operation) else return .ok n.toNat

/-- The result of a call that answers with nothing but success or failure. -/
def status (operation : String) (n : Int) : Program (Except Error Unit) :=
  return (← checked operation n).map fun _ => ()

/-- A path as it crosses to the host. -/
def hostPath (path : String) : CString := ⟨Utf8.encode path⟩

/-- The operations by way of a host. A host's answer about a buffer leaves the buffer's length
alone. -/
def hosted : Facade where
  openFile path flags mode := do
    let n ← Program.call (.openFile (hostPath path) flags mode)
    return (← checked "open" n).map fun n => ⟨n⟩
  read fd buffer :=
    if buffer = [] then return (.ok 0, buffer)
    else do
      let (n, filled) ← Program.call (.read fd buffer)
      return (← checked "read" n, Bytes.overlay buffer filled)
  write fd data :=
    if data = [] then return .ok 0
    else do checked "write" (← Program.call (.write fd data))
  close fd := do status "close" (← Program.call (.close fd))
  unlink path := do status "unlink" (← Program.call (.unlink (hostPath path)))
  mkdir path mode := do status "mkdir" (← Program.call (.mkdir (hostPath path) mode))
  chdir path := do status "chdir" (← Program.call (.chdir (hostPath path)))
  getcwd buffer :=
    if buffer = [] then return (.error .emptyBuffer, buffer)
    else do
      let (path, filled) ← Program.call (.getcwd buffer)
      let buffer := Bytes.overlay buffer filled
      match path with
      | some path => return (.ok (Utf8.decode path), buffer)
      | none => return (.error (← lastError "getcwd"), buffer)
  seek fd offset whence := do
    let n ← Program.call (.lseek fd offset whence.code)
    return (← checked "lseek" n).map Int.ofNat
  sleep seconds := return .ok (← Program.call (.sleep seconds))
  usleep micros := do status "usleep" (← Program.call (.usleep micros))
  exit status := do
    Program.log .trace ("exit(" ++ toString status ++ ")")
    Program.stop (.exit status)
  abort := do
    Program.log .trace "abort"
    Program.stop .abort
  describe
    | .host e => e.describe
    | e => return e.message

/-- The operations where there is no host: all of them fail. -/
def absent : Facade where
  openFile _ _ _ := return .error .unsupported
  read _ buffer := return (.error .unsupported, buffer)
  write _ _ := return .error .unsupported
  close _ := return .error .unsupported
  unlink _ := return .error .unsupported
  mkdir _ _ := return .error .unsupported
  chdir _ := return .error .unsupported
  getcwd buffer := return (.error .unsupported, buffer)
  seek _ _ _ := return .error .unsupported
  sleep _ := return .error .unsupported
  usleep _ := return .error .unsupported
  exit _ := return .unsupported
  abort := return .unsupported
  describe
    | .host _ => return Error.unsupportedText
    | e => return e.message

end Facade

end Hostcall
