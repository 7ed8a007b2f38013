import Hostcall.Applet.Registry
import Hostcall.CommandLine.FileStore
import Hostcall.CommandLine.Options
import Hostcall.Machine.Run
import Hostcall.Machine.Setup
import Hostcall.Snapshot.Printer

/-!
# One session of the command line

A session reads the words, sets up a machine, runs the applet, passes its output on and saves the
tree. The first thing that cannot be done ends it with a message; what came before stays in the
output. With the option for it, the log goes to the standard error as it comes.
-/

namespace Hostcall.CommandLine

/-- What a session leaves: an exit code from 0 to 255 and its output. -/
structure Report where
  exitCode : Nat
  stdout : Bytes := []
  stderr : Bytes := []
deriving DecidableEq, Repr

/-- The exit code of a command line that makes no sense, and of a file that cannot be used. -/
def failureCode : Nat := 2

/-- The exit code where there is no applet of the name. -/
def unknownCode : Nat := 127

/-- The exit code where the applet crashed. -/
def crashCode : Nat := 101

/-- The bytes of a line. -/
def line (s : String) : Bytes := Utf8.encode (s ++ "\n")

/-- A message about something that could not be done. -/
def complaint (subject what : String) : Bytes := line ("applet-sim: " ++ subject ++ ": " ++ what)

/-- Log messages as lines. -/
def logLines (verbose : Bool) (log : List LogEntry) : Bytes :=
  if verbose then log.flatMap fun e => line ("[" ++ e.level.name ++ "] " ++ e.message) else []

/-- The text of a snapshot file. -/
def textOf (path : String) : Except String Bytes → Except Bytes String
  | .error e => .error (complaint path e)
  | .ok data =>
    match Utf8.decode? data with
    | some text => .ok text
    | none => .error (complaint path "stream did not contain valid UTF-8")

/-- The machine for given settings and the snapshot that they name, with the log. -/
def setUp (s : Settings) (snapshot : Option (String × String)) :
    Except Bytes (Machine × List LogEntry) :=
  let steps := (snapshot.map fun (_, text) => SetupStep.snapshot text).toList ++
    (s.cwd.map SetupStep.cwd).toList
  match Machine.build steps with
  | .ok built => .ok built
  | .error e =>
    let path := (snapshot.map Prod.fst).getD ""
    .error (logLines s.verbose e.log ++ complaint path e.fault.message)

/-- An exit status as the system passes it on. -/
def exitCodeOf (status : Int) : Nat := min status.toNat 255

section

variable {m : Type → Type} [Monad m]

/-- The machine for given settings, with the log. -/
def prepare (store : FileStore m) (s : Settings) :
    m (Except Bytes (Machine × List LogEntry)) := do
  match s.snapshot with
  | none => return setUp s none
  | some path =>
    match textOf path (← store.read path) with
    | .error e => return .error e
    | .ok text => return setUp s (some (path, text))

/-- Saves the tree if that is asked for. -/
def save (store : FileStore m) (s : Settings) (tree : Tree) : m (Except Bytes Unit) := do
  match s.save with
  | none => return .ok ()
  | some path =>
    match ← store.write path (Utf8.encode (Snapshot.render tree)) with
    | .ok () => return .ok ()
    | .error e => return .error (complaint path e)

/-- Runs the applet of a command on a machine and saves the tree. `log` is what setting up the
machine left. -/
def perform (store : FileStore m) (c : Command) (applet : Applet) (machine : Machine)
    (log : List LogEntry) : m Report := do
  let logLines := logLines c.settings.verbose
  let r := machine.run c.argv applet.body
  match r.verdict with
  | .crashed _ => return ⟨crashCode, [], logLines (log ++ r.log)⟩
  | .finished result =>
    let stderr := logLines (log ++ r.log) ++ result.stderr
    match ← save store c.settings r.machine.tree with
    | .error e => return ⟨failureCode, result.stdout, stderr ++ e⟩
    | .ok () =>
      let ended := "applet-sim: " ++ c.applet ++ " exited with " ++ toString result.exitCode
      return ⟨exitCodeOf result.exitCode, result.stdout, stderr ++ logLines [⟨.debug, ended⟩]⟩

/-- One session. -/
def session (store : FileStore m) (words : List String) : m Report := do
  match parse words with
  | .error e =>
    let names := "applets: " ++ String.intercalate ", " Applet.names
    return ⟨failureCode, [], line e.message ++ line names⟩
  | .ok c =>
    match Applet.find? c.applet with
    | none => return ⟨unknownCode, [], complaint c.applet "no such applet"⟩
    | some applet =>
      match ← prepare store c.settings with
      | .error e => return ⟨failureCode, [], e⟩
      | .ok (machine, log) => perform store c applet machine log

end

end Hostcall.CommandLine
