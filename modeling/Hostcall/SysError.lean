/-!
# The host's error numbers

The failures that the simulated host can report, with the number that its error register takes and
the text that its message table holds.
-/

namespace Hostcall

/-- A reason for a host call to fail. -/
inductive SysError where
  | notPermitted
  | notFound
  | inputOutput
  | badDescriptor
  | accessDenied
  | alreadyExists
  | notDirectory
  | isDirectory
  | invalidArgument
  | fileTooLarge
  | illegalSeek
  | resultRange
  | valueOverflow
deriving DecidableEq, Repr

namespace SysError

/-- The number that the error register takes. -/
def code : SysError → Int
  | notPermitted => 1
  | notFound => 2
  | inputOutput => 5
  | badDescriptor => 9
  | accessDenied => 13
  | alreadyExists => 17
  | notDirectory => 20
  | isDirectory => 21
  | invalidArgument => 22
  | fileTooLarge => 27
  | illegalSeek => 29
  | resultRange => 34
  | valueOverflow => 139

/-- The text in the host's message table. -/
def text : SysError → String
  | notPermitted => "Operation not permitted"
  | notFound => "No such file or directory"
  | inputOutput => "Input/output error"
  | badDescriptor => "Bad file descriptor"
  | accessDenied => "Permission denied"
  | alreadyExists => "File exists"
  | notDirectory => "Not a directory"
  | isDirectory => "Is a directory"
  | invalidArgument => "Invalid argument"
  | fileTooLarge => "File too large"
  | illegalSeek => "Illegal seek"
  | resultRange => "Numerical result out of range"
  | valueOverflow => "Value too large for defined data type"

/-- Every reason, in the order of the numbers. -/
def all : List SysError :=
  [notPermitted, notFound, inputOutput, badDescriptor, accessDenied, alreadyExists, notDirectory,
    isDirectory, invalidArgument, fileTooLarge, illegalSeek, resultRange, valueOverflow]

/-- The reason with a given number. -/
def ofCode? (n : Int) : Option SysError := all.find? (·.code == n)

/-- The list of reasons is complete. -/
theorem mem_all (e : SysError) : e ∈ all := by
  cases e <;> simp [all]

/-- No reason has the number that stands for none. -/
theorem code_ne_zero (e : SysError) : e.code ≠ 0 := by
  cases e <;> simp [code]

@[simp] theorem ofCode?_code (e : SysError) : ofCode? e.code = some e := by
  cases e <;> rfl

end SysError

end Hostcall
