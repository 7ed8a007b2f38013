import Hostcall.Bytes

/-!
# The result of a command
-/

namespace Hostcall

/-- An exit code and everything the command wrote to its two output streams. -/
structure CommandResult where
  exitCode : Int
  stdout : Bytes
  stderr : Bytes
deriving DecidableEq, Repr

/-- The result of a command that wrote nothing. -/
def CommandResult.ofCode (exitCode : Int) : CommandResult := ⟨exitCode, [], []⟩

/-- A command succeeded when its exit code is 0. -/
def CommandResult.isSuccess (r : CommandResult) : Bool := r.exitCode == 0

end Hostcall
