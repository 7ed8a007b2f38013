import Hostcall.Log
import Hostcall.Machine.Basic
import Hostcall.Snapshot.Reader

/-!
# Setting up a machine

A setup collects what a machine is to hold before it starts: a tree, a current directory, the input
and the ways in which writes fail. A file or directory that cannot be added is left out with a
warning in the log; a current directory that cannot be made is replaced by the root. `SetupStep` is
one step of a setup as data, so that a whole setup is a list.
-/

namespace Hostcall

/-- A machine in preparation, with the warnings so far. -/
structure Setup where
  tree : Tree := .rootOnly
  cwd : String := "/"
  stdin : Bytes := []
  writeCap : Option Nat := none
  stalled : Bool := false
  log : List LogEntry := []

/-- One step of a setup. -/
inductive SetupStep where
  /-- Adds a directory and its ancestors. -/
  | directory (path : String)
  /-- Adds a file and its ancestors, or replaces the contents of one. -/
  | file (path : String) (data : Bytes)
  /-- Names the current directory. -/
  | cwd (path : String)
  /-- Gives the standard input. -/
  | stdin (data : Bytes)
  /-- Caps the bytes that one write takes. -/
  | writeCap (count : Nat)
  /-- Makes writes take nothing. -/
  | stalled
  /-- Replaces the tree by that of a snapshot. -/
  | snapshot (text : String)

namespace Setup

/-- The setup after the tree was changed; a failure becomes a warning that says what cannot be
done. -/
def withTree (s : Setup) (what path : String) : Except SysError Unit × Tree → Setup
  | (.ok (), tree) => { s with tree }
  | (.error e, tree) =>
    let message := "sim: cannot seed " ++ what ++ " " ++ path ++ ": errno=" ++ toString e.code
    { s with tree, log := s.log ++ [⟨.warn, message⟩] }

/-- Takes one step. -/
def step (s : Setup) : SetupStep → Except Json.Fault Setup
  | .directory path =>
    match Path.resolve "/" path with
    | some path => .ok (s.withTree "directory" path (s.tree.createDirs path))
    | none => .ok s
  | .file path data =>
    match Path.resolve "/" path with
    | some path => .ok (s.withTree "file" path (s.tree.putFile path data))
    | none => .ok s
  | .cwd path => .ok { s with cwd := (Path.resolve "/" path).getD "/" }
  | .stdin data => .ok { s with stdin := data }
  | .writeCap count => .ok { s with writeCap := some count }
  | .stalled => .ok { s with stalled := true }
  | .snapshot text => return { s with tree := ← Snapshot.read text }

/-- The machine of a setup, with all warnings. -/
def start (s : Setup) : Machine × List LogEntry :=
  let (made, tree) := s.tree.createDirs s.cwd
  let machine (cwd : String) : Machine :=
    { tree, cwd
      files := Machine.standardFiles
      stdin := s.stdin
      writeCap := s.writeCap
      stalled := s.stalled }
  match made with
  | .ok () => (machine s.cwd, s.log)
  | .error e =>
    let message := "sim: cannot create cwd " ++ s.cwd ++ ": errno=" ++ toString e.code ++
      "; using /"
    (machine "/", s.log ++ [⟨.warn, message⟩])

end Setup

/-- A setup that came to an end at a snapshot that does not read, with the warnings before it. -/
structure SetupFailure where
  fault : Json.Fault
  log : List LogEntry

/-- Takes steps up to the first snapshot that does not read. -/
def Setup.follow (s : Setup) : List SetupStep → Except SetupFailure Setup
  | [] => .ok s
  | step :: steps =>
    match s.step step with
    | .ok s => s.follow steps
    | .error fault => .error ⟨fault, s.log⟩

/-- The machine after a list of steps, with all warnings. -/
def Machine.build (steps : List SetupStep) : Except SetupFailure (Machine × List LogEntry) :=
  return (← Setup.follow {} steps).start

end Hostcall
