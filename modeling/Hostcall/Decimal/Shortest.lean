import Hostcall.Decimal.Binary64

/-!
# The shortest decimal that reads back

A double stands for all reals that round to it: the interval up to the midpoints with its
neighbours, ends included if its mantissa is even. `Shortest.digits` gives the fewest decimal digits
that lie in that interval, of those the nearest to the double. `Shortest.text` writes a magnitude
from 10^-5 to below 10^16 with a point alone, and any other with an exponent that shows its sign.
-/

namespace Hostcall.Shortest

open Binary64

/-- The digits `digits * 10 ^ exponent`. -/
structure Digits where
  digits : Nat
  exponent : Int
deriving DecidableEq, Repr

/-- The reals that round to a double, as numerators over the one denominator `den`. -/
structure Interval where
  low : Nat
  value : Nat
  high : Nat
  den : Nat
  closed : Bool

/-- The interval of a positive double. Below a power of two the doubles lie twice as close. -/
def interval (x : Binary64) : Interval :=
  let narrow := x.mantissa = 1 <<< 52 ∧ minExponent < x.exponent
  let (unit, den) :=
    if 0 ≤ x.exponent then (1 <<< x.exponent.toNat, 4) else (1, 4 <<< (-x.exponent).toNat)
  let value := 4 * x.mantissa * unit
  { low := value - (if narrow then unit else 2 * unit)
    value := value
    high := value + 2 * unit
    den := den
    closed := x.mantissa % 2 = 0 }

/-- Whether `n * 10 ^ e` lies in an interval. -/
def Interval.contains (i : Interval) (n : Nat) (e : Int) : Bool :=
  let (num, den) := if 0 ≤ e then (n * Nat.pow 10 e.toNat, 1) else (n, Nat.pow 10 (-e).toNat)
  let point := num * i.den
  if i.closed then i.low * den ≤ point && point ≤ i.high * den
  else i.low * den < point && point < i.high * den

/-- The whole number of steps of `10 ^ e` below a value, and twice the rest with the step to
compare it with. -/
def Interval.grid (i : Interval) (e : Int) : Nat × Nat × Nat :=
  let (num, den) :=
    if 0 ≤ e then (i.value, i.den * Nat.pow 10 e.toNat)
    else (i.value * Nat.pow 10 (-e).toNat, i.den)
  (num / den, 2 * (num % den), den)

/-- Of the two neighbours of a value on the grid of `10 ^ e`, the nearer one that lies in the
interval. -/
def Interval.neighbour? (i : Interval) (e : Int) : Option Nat :=
  let (below, twice, step) := i.grid e
  let down := i.contains below e && below != 0
  let up := i.contains (below + 1) e
  let downFirst := twice < step || (twice == step && below % 2 == 0)
  if down && (downFirst || !up) then some below
  else if up then some (below + 1)
  else none

/-- What is found on a grid lies in the interval, so it reads back as the double. -/
theorem Interval.contains_of_neighbour? {i : Interval} {e : Int} {n : Nat}
    (found : i.neighbour? e = some n) : i.contains n e = true := by
  unfold neighbour? at found
  dsimp only at found
  split at found
  · rename_i down
    obtain rfl := Option.some.inj found
    simp only [Bool.and_eq_true] at down
    exact down.1.1
  · split at found
    · rename_i up
      obtain rfl := Option.some.inj found
      exact up
    · contradiction

/-- The first grid, from `10 ^ e` downward, with a neighbour in the interval. -/
def search (i : Interval) : Nat → Int → Digits
  | 0, e => ⟨(i.grid e).1, e⟩
  | tries + 1, e =>
    match i.neighbour? e with
    | some n => ⟨n, e⟩
    | none => search i tries (e - 1)

/-- The fewest digits that read back as a positive double. -/
def digits (x : Binary64) : Digits :=
  let i := interval x
  let top : Int := ((i.value.log2 : Int) - i.den.log2 + 2) * 30103 / 100000 + 1
  search i 40 top

/-- `d` with the point after `count` of its digits. -/
def insertPoint (d : List Char) (count : Nat) : List Char :=
  d.take count ++ '.' :: d.drop count

/-- An exponent after its mark, with its sign. -/
def exponentText (e : Int) : List Char :=
  'e' :: (if 0 ≤ e then '+' else '-') :: Nat.toDigits 10 e.natAbs

/-- The text of a magnitude: with a point and at least one digit on each side while the exponent
allows it, else with one digit before the point and an exponent. -/
def text (x : Binary64) : String :=
  if x.mantissa = 0 then "0.0"
  else
    let s := digits x
    let d := Nat.toDigits 10 s.digits
    let point : Int := d.length + s.exponent
    String.ofList <|
      if 0 ≤ s.exponent ∧ point ≤ 16 then d ++ List.replicate s.exponent.toNat '0' ++ ['.', '0']
      else if 0 < point ∧ point ≤ 16 then insertPoint d point.toNat
      else if -5 < point ∧ point ≤ 0 then
        ['0', '.'] ++ List.replicate (-point).toNat '0' ++ d
      else
        (if d.length = 1 then d else insertPoint d 1) ++ exponentText (point - 1)

/-- The text of a double. -/
def signed (x : Double) : String :=
  if x.negative then "-" ++ text x.magnitude else text x.magnitude

end Hostcall.Shortest
