import Hostcall.CInt
import Hostcall.Machine.Basic

/-!
# What the simulated machine does on each call

A call either fails for a reason or yields a number and the machine after it. `Machine.settle`
turns that into the host's convention: a failure answers -1 and changes the error register and
nothing else, and a success leaves the register alone. `Machine.host` is the machine as a host.
-/

namespace Hostcall.Machine

/-- The machine with another position of a descriptor. -/
def movedTo (m : Machine) (fd : Fd) (path : String) (position : Nat) (flags : OpenFlags) :
    Machine :=
  { m with files := m.files.update fd.number.toNat (.file path position flags) }

/-- The bytes that one write takes at most. -/
def capped (m : Machine) (data : Bytes) : Bytes :=
  match m.writeCap with
  | some cap => data.take cap
  | none => data

/-- Where a write to a file begins: at its end for a descriptor that appends (the start if the file
is gone), else at the position. -/
def writeStart (m : Machine) (path : String) (position : Nat) (flags : OpenFlags) : Nat :=
  if flags.appends then m.tree.endOf path else position

/-- Writes bytes to what a descriptor stands for. -/
def deliver (m : Machine) (fd : Fd) (chunk : Bytes) : OpenFile → Except SysError (Nat × Machine)
  | .stdin => .error .badDescriptor
  | .stdout => .ok (chunk.length, { m with stdout := m.stdout.append chunk })
  | .stderr => .ok (chunk.length, { m with stderr := m.stderr.append chunk })
  | .file path position flags =>
    if flags.writes then do
      let start := m.writeStart path position flags
      let tree ← m.tree.writeAt path start chunk
      return (chunk.length, { m with tree }.movedTo fd path (start + chunk.length) flags)
    else .error .badDescriptor

/-- Writes to a descriptor. Whether writes stall is asked before whether a file may be written. -/
def write (m : Machine) (fd : Fd) (data : Bytes) : Except SysError (Nat × Machine) :=
  match m.entry? fd with
  | none => .error .badDescriptor
  | some .stdin => .error .badDescriptor
  | some file => if m.stalled then .ok (0, m) else m.deliver fd (m.capped data) file

/-- Reads at most `count` bytes from a descriptor. -/
def read (m : Machine) (fd : Fd) (count : Nat) : Except SysError (Bytes × Machine) :=
  match m.entry? fd with
  | some .stdin =>
    let data := (m.stdin.drop m.stdinPosition).take count
    .ok (data, { m with stdinPosition := m.stdinPosition + data.length })
  | some (.file path position flags) =>
    if flags.reads then
      let data := m.tree.readAt path position count
      .ok (data, m.movedTo fd path (position + data.length) flags)
    else .error .badDescriptor
  | _ => .error .badDescriptor

/-- The place that a path from the host's side names. -/
def place (m : Machine) (path : CString) : Except SysError String :=
  match m.resolve (Utf8.decode path.hostView) with
  | some path => .ok path
  | none => .error .notFound

/-- The tree after a file was opened. -/
def openTree (m : Machine) (path : String) (flags : OpenFlags) (mode : Mode) :
    Except SysError Tree :=
  match m.tree.get? path with
  | some (.directory _) => .error .isDirectory
  | some (.file ..) =>
    if flags.creates && flags.excludes then .error .alreadyExists
    else if flags.truncates && flags.writes then m.tree.truncate path
    else .ok m.tree
  | none => if flags.creates then m.tree.createFile path mode else .error .notFound

/-- Opens a file and gives the key of its descriptor. -/
def openFile (m : Machine) (path : CString) (flags : OpenFlags) (mode : Mode) :
    Except SysError (Nat × Machine) :=
  if flags.access = ⟨OpenFlags.accessMask⟩ then .error .invalidArgument
  else do
    let path ← m.place path
    let tree ← m.openTree path flags mode
    let (key, files) := m.files.insert (.file path 0 flags)
    return (key, { m with tree, files })

/-- Closes a descriptor. -/
def close (m : Machine) (fd : Fd) : Except SysError (Nat × Machine) :=
  match m.entry? fd with
  | none => .error .badDescriptor
  | some _ => .ok (0, { m with files := m.files.erase fd.number.toNat })

/-- Removes a file. -/
def unlink (m : Machine) (path : CString) : Except SysError (Nat × Machine) := do
  let tree ← m.tree.remove (← m.place path)
  return (0, { m with tree })

/-- Adds a directory. -/
def mkdir (m : Machine) (path : CString) (mode : Mode) : Except SysError (Nat × Machine) := do
  let tree ← m.tree.createDirectory (← m.place path) mode
  return (0, { m with tree })

/-- Changes the current directory. -/
def chdir (m : Machine) (path : CString) : Except SysError (Nat × Machine) := do
  let path ← m.place path
  match m.tree.get? path with
  | some (.directory _) => return (0, { m with cwd := path })
  | some (.file ..) => throw .notDirectory
  | none => throw .notFound

/-- The current directory with its NUL, if a buffer of a given length can take it. -/
def getcwd (m : Machine) (length : Nat) : Except SysError Bytes :=
  let path := Utf8.encode m.cwd ++ [0]
  if length = 0 then .error .invalidArgument
  else if length < path.length then .error .resultRange
  else .ok path

/-- The largest position. -/
def maxPosition : Int := (1 <<< 63 : Nat) - 1

/-- Moves the position of a descriptor. -/
def lseek (m : Machine) (fd : Fd) (offset whence : Int) : Except SysError (Int × Machine) :=
  match m.entry? fd with
  | none => .error .badDescriptor
  | some (.file path position flags) => do
    let base : Nat ←
      match Whence.ofCode? whence with
      | some .start => pure 0
      | some .current => pure position
      | some .finish => pure (m.tree.endOf path)
      | none => throw .invalidArgument
    let target := base + offset
    if maxPosition < target then throw .valueOverflow
    if target < 0 then throw .invalidArgument
    return (target, m.movedTo fd path target.toNat flags)
  | some _ => .error .illegalSeek

/-- The clock counts seconds in a word of 64 bits, so it shows fewer microseconds than these. -/
def clockEnd : Nat := (1 <<< 64) * 1000000

/-- The machine whose clock went on, unless the clock cannot show that time. -/
def later (m : Machine) (micros : Nat) : Machine :=
  { m with slept := if m.slept + micros < clockEnd then m.slept + micros else m.slept }

/-- Sleeps for less than a second. -/
def usleep (m : Machine) (micros : Nat) : Except SysError (Nat × Machine) :=
  if 1000000 ≤ micros then .error .invalidArgument else .ok (0, m.later micros)

/-- The machine after a failure. -/
def failed (m : Machine) (e : SysError) : Machine := { m with errno := e.code }

/-- The answer to a call, and the machine after it. -/
def settle (m : Machine) : Except SysError (Nat × Machine) → Int × Machine
  | .ok (n, m) => (n, m)
  | .error e => (-1, m.failed e)

/-- The answer to a call, and the machine after it, not counting the call. -/
def respond (m : Machine) : (request : Request) → request.Reply × Machine
  | .write fd data => m.settle (m.write fd data)
  | .read fd buffer =>
    match m.read fd buffer.length with
    | .ok (data, m) => ((data.length, Bytes.overlay buffer data), m)
    | .error e => ((-1, buffer), m.failed e)
  | .openFile path flags mode =>
    -- The key is cast to the number of a descriptor without asking whether it fits.
    match m.openFile path flags mode with
    | .ok (key, m) => (CInt.ofNat key, m)
    | .error e => (-1, m.failed e)
  | .close fd => m.settle (m.close fd)
  | .unlink path => m.settle (m.unlink path)
  | .mkdir path mode => m.settle (m.mkdir path mode)
  | .chdir path => m.settle (m.chdir path)
  | .getcwd buffer =>
    match m.getcwd buffer.length with
    | .ok path =>
      let buffer := Bytes.overlay buffer path
      ((some (Bytes.beforeNul buffer), buffer), m)
    | .error e => ((none, buffer), m.failed e)
  | .lseek fd offset whence =>
    match m.lseek fd offset whence with
    | .ok (n, m) => (n, m)
    | .error e => (-1, m.failed e)
  | .errno => (m.errno, m)
  | .strerror code => ((SysError.ofCode? code).map fun e => Utf8.encode e.text, m)
  | .sleep seconds => (0, m.later (seconds * 1000000))
  | .usleep micros => m.settle (m.usleep micros)

/-- The answer to a call, and the machine after it. -/
def perform (request : Request) (m : Machine) : request.Reply × Machine :=
  { m with calls := m.calls.add request }.respond request

/-- Whether a call breaks off, because the clock cannot show the time after it. The machine after
such a call has counted it and is otherwise as before, and nobody sees the answer. -/
def breaks (request : Request) (m : Machine) : Bool :=
  match request with
  | .sleep seconds => decide (clockEnd ≤ m.slept + seconds * 1000000)
  | .usleep micros => decide (micros < 1000000) && decide (clockEnd ≤ m.slept + micros)
  | _ => false

/-- The machine as a host. -/
def host : Host Machine where
  answer := perform
  stop reason m := { m with calls := m.calls.addStop reason }

end Hostcall.Machine
