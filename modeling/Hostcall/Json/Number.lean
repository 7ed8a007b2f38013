import Hostcall.Json.Fault

/-!
# Numbers of a JSON text

A number without point and exponent is an integer if 64 bits hold it, and a double otherwise. For a
double the leading digits up to the largest 64-bit integer count, and later ones only as powers of
ten. The result is that integer, rounded, times or divided by a rounded power of ten.
-/

namespace Hostcall.Json

/-- A number as it was read. -/
inductive Number where
  | integer (n : Int)
  | double (x : Double)
deriving DecidableEq, Repr

/-- The largest integer that digits add up to. -/
def maxSignificand : Nat := (1 <<< 64) - 1

/-- The largest exponent that digits add up to. -/
def maxExponent : Nat := (1 <<< 31) - 1

/-- Appends digits to a number for as long as it does not pass `limit`, with those that are
left. -/
def appendDigits (limit : Nat) : Nat → List Char → Nat × List Char
  | n, [] => (n, [])
  | n, c :: rest =>
    let next := n * 10 + (c.toNat - '0'.toNat)
    if next ≤ limit then appendDigits limit next rest else (n, c :: rest)

/-- The digits at the front of a text. -/
def digitsOf (text : List Char) : List Char := text.takeWhile Char.isDigit

/-- The text after the digits at its front. -/
def afterDigits (text : List Char) : List Char := text.dropWhile Char.isDigit

/-- The double next to a power of ten. -/
def powerOfTen (n : Nat) : Option Binary64 := Binary64.ofQuotient (Nat.pow 10 n) 1

/-- A double times a power of ten, in steps of at most 10^308 when the power is negative; nothing
if it is past the largest double. Two steps bring every 64-bit integer to zero. -/
def scaleByTen : Nat → Binary64 → Int → Option Binary64
  | 0, x, _ => some x
  | steps + 1, x, e =>
    if e.natAbs ≤ 308 then do
      let power ← powerOfTen e.natAbs
      if 0 ≤ e then x.mul power else x.div power
    else if x.mantissa = 0 then some x
    else if 0 ≤ e then none
    else do
      let power ← powerOfTen 308
      let x ← x.div power
      scaleByTen steps x (e + 308)

/-- The double `significand * 10 ^ e`, read up to `rest`. -/
def doubleOf (negative : Bool) (significand : Nat) (e : Int) : Reader Number := fun rest =>
  match (Binary64.ofQuotient significand 1).bind fun x => scaleByTen 4 x e with
  | some x => .ok (.double ⟨negative, x⟩, rest)
  | none => .error (before .numberOutOfRange rest)

/-- Reads the digits of an exponent, whose letter and sign have been read. -/
def exponentDigits (negative : Bool) (significand : Nat) (e : Int) (down : Bool) :
    Reader Number := fun text =>
  match text with
  | [] => .error (before .endInValue [])
  | c :: _ =>
    if c.isDigit then
      let (n, left) := appendDigits maxExponent 0 (digitsOf text)
      let rest := afterDigits text
      match left with
      | [] => doubleOf negative significand (if down then e - n else e + n) rest
      | _ :: later =>
        if significand ≠ 0 ∧ down = false then
          .error (before .numberOutOfRange (later ++ rest))
        else .ok (.double ⟨negative, Binary64.zero⟩, rest)
    else .error (within .invalidNumber text)

/-- Reads an exponent, whose letter has been read. -/
def exponent (negative : Bool) (significand : Nat) (e : Int) : Reader Number := fun text =>
  match text with
  | '+' :: rest => exponentDigits negative significand e false rest
  | '-' :: rest => exponentDigits negative significand e true rest
  | _ => exponentDigits negative significand e false text

/-- Reads an exponent if there is one. -/
def exponent? (negative : Bool) (significand : Nat) (e : Int) : Reader Number := fun text =>
  match text with
  | c :: rest =>
    if c = 'e' ∨ c = 'E' then exponent negative significand e rest
    else doubleOf negative significand e text
  | [] => doubleOf negative significand e text

/-- Reads the digits after a point. -/
def fraction (negative : Bool) (significand : Nat) (e : Int) : Reader Number := fun text =>
  match text with
  | [] => .error (within .endInValue [])
  | c :: _ =>
    if c.isDigit then
      let digits := digitsOf text
      let (n, left) := appendDigits maxSignificand significand digits
      exponent? negative n (e - (digits.length - left.length : Nat)) (afterDigits text)
    else .error (within .invalidNumber text)

/-- The number with no point and no exponent after its digits. Minus zero is a double. -/
def whole (negative : Bool) (significand : Nat) : Reader Number := fun rest =>
  if negative = false then .ok (.integer significand, rest)
  else if 0 < significand ∧ significand ≤ 1 <<< 63 then .ok (.integer (-significand), rest)
  else doubleOf true significand 0 rest

/-- Reads a number, whose sign has been read. -/
def number (negative : Bool) : Reader Number := fun text =>
  match text with
  | [] => .error (before .endInValue [])
  | c :: rest =>
    if c = '0' ∧ (rest.head?.any Char.isDigit) then .error (within .invalidNumber rest)
    else if c.isDigit then
      let (n, left) := appendDigits maxSignificand 0 (digitsOf text)
      match afterDigits text with
      | '.' :: later => fraction negative n left.length later
      | after =>
        if after.head?.any (fun c => c == 'e' || c == 'E') then
          exponent? negative n left.length after
        else if left = [] then whole negative n after
        else doubleOf negative n left.length after
    else .error (within .invalidNumber text)

end Hostcall.Json
