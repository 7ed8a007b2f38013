import Hostcall.Applet.Basic
import Hostcall.CommandResult
import Hostcall.Machine.Perform
import Hostcall.Text.Quoted

/-!
# Running an applet on a machine

A run lays the arguments out as a host would, lets the machine answer the applet, and moves what was
written to the standard streams into the result. An applet that crashes, on its own or in a call that
the machine breaks off, has no result: what it wrote stays with the machine.
-/

namespace Hostcall

/-- How a run came out. -/
inductive Verdict where
  | finished (result : CommandResult)
  | crashed (cause : Crash)
deriving DecidableEq, Repr

/-- A run on a machine: how it came out, the machine after it, and the log. -/
structure MachineRun where
  verdict : Verdict
  machine : Machine
  log : List LogEntry

namespace Machine

/-- The exit status that an abort is reported with. -/
def abortStatus : Int := 134

/-- The exit status that a stop is reported with. -/
def stopStatus : Stop → Int
  | .exit status => status
  | .abort => abortStatus

/-- The arguments that an applet gets for given texts. -/
def argsOf (argv : List String) : Args := (ArgBlock.ofItems (argv.map Utf8.encode)).args

/-- Moves the captured streams into a result. -/
def collect (m : Machine) (exitCode : Int) : CommandResult × Machine :=
  let (stdout, m) := m.takeStdout
  let (stderr, m) := m.takeStderr
  (⟨exitCode, stdout, stderr⟩, m)

/-- Runs an applet. -/
def run (m : Machine) (argv : List String) (body : Applet.Body) : MachineRun :=
  let args := argsOf argv
  let started := "run: argc=" ++ toString args.length ++ " argv=" ++ Quoted.list args.texts
  let r := (body .hosted args).runUpTo breaks host m
  let log := ⟨.debug, started⟩ :: r.log
  let finish (exitCode : Int) : MachineRun :=
    let (result, m) := r.state.collect exitCode
    ⟨.finished result, m, log ++ [⟨.debug, "run: exit code " ++ toString exitCode⟩]⟩
  match r.outcome with
  | .returned exitCode => finish exitCode
  | .stopped reason => finish (stopStatus reason)
  | .crashed cause => ⟨.crashed cause, r.state, log⟩

end Machine

end Hostcall
