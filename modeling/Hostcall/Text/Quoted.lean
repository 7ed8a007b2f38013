import Hostcall.Text.Extending
import Hostcall.Text.Unprintable

/-!
# Quoted text

Texts in log messages and error messages stand between quotation marks, with everything that would
not show on its own written as an escape. `Quoted.list` writes a list of them.
-/

namespace Hostcall.Quoted

/-- One character between quotation marks. -/
def escape (c : Char) : List Char :=
  if c = '\x00' then ['\\', '0']
  else if c = '\t' then ['\\', 't']
  else if c = '\r' then ['\\', 'r']
  else if c = '\n' then ['\\', 'n']
  else if c = '\\' ∨ c = '"' then ['\\', c]
  else if Extending.holds c ∨ Unprintable.holds c then
    ['\\', 'u', '\x7b'] ++ Nat.toDigits 16 c.toNat ++ ['\x7d']
  else [c]

/-- A text between quotation marks. -/
def text (s : String) : String :=
  String.ofList ('"' :: s.toList.flatMap escape ++ ['"'])

/-- A list of quoted texts in square brackets. -/
def list (items : List String) : String :=
  "[" ++ String.intercalate ", " (items.map text) ++ "]"

end Hostcall.Quoted
