import Hostcall.Applet.Basic
import Hostcall.Facade.Writer

/-!
# The applet that writes a file and reads it back

The file is removed, written, closed, opened again and compared. The report on the standard error
names the step that failed. A host that claims to have read more than the buffer holds makes the
applet crash when it takes that many bytes.
-/

namespace Hostcall.Applet.RoundTrip

/-- The file that is written where no argument names one. -/
def defaultPath : String := "/flash/roundtrip_test.txt"

/-- What is written and has to come back. -/
def payload : Bytes := Utf8.encode "hello from roundtrip\n"

/-- The size of the buffer for reading back. -/
def bufferLength : Nat := 64

/-- Why the file did not come back. -/
inductive Trouble where
  /-- An operation failed. -/
  | step (name : String) (error : Error)
  /-- Something else is not as it has to be. -/
  | check (what : String)

/-- Writes the payload to an open file and closes it in any case. -/
def writeOut (f : Facade) (fd : Fd) : Program (Except Trouble Unit) := do
  match ← f.writeAll fd payload with
  | .error e =>
    let _ ← f.close fd
    return .error (.step "write" e)
  | .ok () =>
    match ← f.close fd with
    | .error e => return .error (.step "close(write fd)" e)
    | .ok () => return .ok ()

/-- Reads from an open file, closes it and compares. -/
def readBack (f : Facade) (fd : Fd) : Program (Except Trouble Unit) := do
  let (count, buffer) ← f.read fd (List.replicate bufferLength 0)
  let _ ← f.close fd
  match count with
  | .error e => return .error (.step "read" e)
  | .ok n =>
    if buffer.length < n then .crash .overrun
    else if buffer.take n ≠ payload then return .error (.check "content mismatch")
    else return .ok ()

/-- Shows the current directory, if it can be told. -/
def showDir (f : Facade) : Program Unit := do
  match ← f.currentDir with
  | .ok path => f.print .stdout ⟨["cwd: ", path, "\n"], false⟩
  | .error _ => return ()

/-- Writes the file that a path names and reads it back. -/
def exercise (f : Facade) (path : String) : Program (Except Trouble Unit) := do
  let _ ← f.unlink path
  match ← f.openFile path (.writeOnly ||| .create ||| .truncate) 0o644 with
  | .error e => return .error (.step "open(O_WRONLY|O_CREAT|O_TRUNC)" e)
  | .ok fd =>
    match ← writeOut f fd with
    | .error trouble => return .error trouble
    | .ok () =>
      match ← f.openFile path .readOnly 0 with
      | .error e => return .error (.step "open(O_RDONLY)" e)
      | .ok fd => readBack f fd

/-- Takes the file's path from the arguments and exercises it. -/
def attempt (f : Facade) (args : Args) : Program (Except Trouble Unit) :=
  if args.isEmpty then return .error (.check "empty argv")
  else do
    showDir f
    exercise f ((args.text? 1).getD defaultPath)

/-- What is reported. -/
def describe (f : Facade) : Trouble → Program String
  | .step name e => return name ++ ": " ++ (← f.describe e)
  | .check what => return what

end Hostcall.Applet.RoundTrip

namespace Hostcall.Applet

/-- Writes a file, reads it back and says whether it came back. -/
def roundTrip (f : Facade) (args : Args) : Program Int := do
  let _ ← f.writeAll .stdout (Utf8.encode "roundtrip: start\n")
  match ← RoundTrip.attempt f args with
  | .ok () =>
    let _ ← f.writeAll .stdout (Utf8.encode "roundtrip: OK\n")
    return 0
  | .error trouble =>
    let message ← RoundTrip.describe f trouble
    f.print .stderr ⟨["roundtrip: ", message, "\n"], false⟩
    return 1

end Hostcall.Applet
