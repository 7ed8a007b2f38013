/-!
# Descriptors and seek origins
-/

namespace Hostcall

/-- A descriptor as the host numbers it; negative numbers can be passed and are never open. -/
structure Fd where
  number : Int
deriving DecidableEq, Repr

namespace Fd

/-- The descriptor of the standard input. -/
def stdin : Fd := ⟨0⟩

/-- The descriptor of the standard output. -/
def stdout : Fd := ⟨1⟩

/-- The descriptor of the standard error. -/
def stderr : Fd := ⟨2⟩

/-- The name of a descriptor in messages. -/
def text (fd : Fd) : String := "fd " ++ toString fd.number

end Fd

/-- The origin that a seek counts from. -/
inductive Whence where
  | start
  | current
  | finish
deriving DecidableEq, Repr

namespace Whence

/-- The host's code for an origin. -/
def code : Whence → Int
  | start => 0
  | current => 1
  | finish => 2

/-- The origin with a given code. -/
def ofCode? (n : Int) : Option Whence :=
  if n = 0 then some start
  else if n = 1 then some current
  else if n = 2 then some finish
  else none

/-- No two origins have one number. -/
theorem ofCode?_eq_some_iff {n : Int} {w : Whence} : ofCode? n = some w ↔ n = w.code := by
  unfold ofCode?
  split
  · cases w <;> simp_all [code]
  · split
    · cases w <;> simp_all [code]
    · split <;> cases w <;> simp_all [code]

end Whence

end Hostcall
