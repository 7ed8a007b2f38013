import Hostcall.CommandLine.Session

/-!
# The program
-/

namespace Hostcall.CommandLine

/-- The sentence of the system for a failed file operation. -/
def systemMessage : IO.Error → String
  | .noFileOrDirectory _ n text => numbered text n
  | .inappropriateType _ n text => numbered text n
  | .permissionDenied _ n text => numbered text n
  | .invalidArgument _ n text => numbered text n
  | .resourceExhausted _ n text => numbered text n
  | .otherError n text => numbered text n
  | e => toString e
where
  numbered (text : String) (n : UInt32) : String := text ++ " (os error " ++ toString n ++ ")"

/-- The files of the system as a store. -/
def systemFiles : FileStore IO where
  read path := do
    try
      let data ← IO.FS.readBinFile path
      return .ok data.toList
    catch e => return .error (systemMessage e)
  write path data := do
    try
      IO.FS.writeBinFile path ⟨data.toArray⟩
      return .ok ()
    catch e => return .error (systemMessage e)

end Hostcall.CommandLine

/-- Runs one session on the files of the system. -/
def main (words : List String) : IO UInt32 := do
  let report ← Hostcall.CommandLine.session Hostcall.CommandLine.systemFiles words
  let out ← IO.getStdout
  let err ← IO.getStderr
  out.write ⟨report.stdout.toArray⟩
  out.flush
  err.write ⟨report.stderr.toArray⟩
  err.flush
  return report.exitCode.toUInt32
