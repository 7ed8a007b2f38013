import Hostcall.Bytes

/-!
# NUL-terminated strings

Paths and arguments cross to the host as bytes followed by one NUL. The bytes may hold further NULs;
the host sees only what stands before the first.
-/

namespace Hostcall

/-- A byte string that is handed over with one NUL after it. -/
structure CString where
  body : Bytes
deriving DecidableEq, Repr

namespace CString

/-- The bytes in memory, the final NUL included. -/
def bytes (s : CString) : Bytes := s.body ++ [0]

/-- The number of bytes before the final NUL. -/
def length (s : CString) : Nat := s.body.length

/-- Whether there is nothing but the final NUL. -/
def isEmpty (s : CString) : Bool := s.length == 0

/-- The bytes that a host reads: those before the first NUL. -/
def hostView (s : CString) : Bytes := Bytes.beforeNul s.bytes

/-- What a word in memory reads as: a null word is the empty string. -/
def ofWord : Option CString → Bytes
  | none => []
  | some s => s.hostView

theorem hostView_eq (s : CString) : s.hostView = Bytes.beforeNul s.body :=
  Bytes.beforeNul_append s.body

end CString

end Hostcall
