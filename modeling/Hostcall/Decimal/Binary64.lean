/-!
# Double precision numbers, exactly

The magnitude of a finite double is a mantissa below 2^53 times a power of two not below 2^-1074.
All arithmetic here is on natural numbers; a result is the double next to the exact quotient, the
one with the even mantissa if two are equally near.
-/

namespace Hostcall

/-- The magnitude `mantissa * 2 ^ exponent` of a finite double. -/
structure Binary64 where
  mantissa : Nat
  exponent : Int
deriving DecidableEq, Repr

namespace Binary64

/-- The exponent of the smallest doubles. -/
def minExponent : Int := -1074

/-- The largest exponent of a finite double. -/
def maxExponent : Int := 971

/-- The number 0. -/
def zero : Binary64 := ⟨0, minExponent⟩

/-- The whole number next to `num / den`, the even one if two are equally near. -/
def roundDiv (num den : Nat) : Nat :=
  let q := num / den
  let twice := 2 * (num % den)
  if twice < den then q
  else if den < twice then q + 1
  else q + q % 2

/-- No whole number is nearer to a quotient than the rounded one: it is off by a half at most. -/
theorem roundDiv_nearest (num : Nat) {den : Nat} (positive : 0 < den) :
    2 * num ≤ 2 * (den * roundDiv num den) + den ∧ 2 * (den * roundDiv num den) ≤ 2 * num + den := by
  have split := Nat.div_add_mod num den
  have rest := Nat.mod_lt num positive
  have next : den * (num / den + 1) = den * (num / den) + den := Nat.mul_succ _ _
  unfold roundDiv
  dsimp only
  split
  · omega
  · split
    · omega
    · -- exactly between two numbers, where either will do
      rcases Nat.mod_two_eq_zero_or_one (num / den) with even | odd
      · rw [even, Nat.add_zero]
        omega
      · rw [odd]
        omega

/-- Numerator and denominator of `num / den / 2 ^ e`. -/
def scale (num den : Nat) (e : Int) : Nat × Nat :=
  if 0 ≤ e then (num, den <<< e.toNat) else (num <<< (-e).toNat, den)

/-- The least exponent from `e` on, in at most `tries` steps, at which the quotient is below
2^53. -/
def fit (num den : Nat) : Nat → Int → Int
  | 0, e => e
  | tries + 1, e =>
    let (n, d) := scale num den e
    if n / d < 1 <<< 53 then e else fit num den tries (e + 1)

/-- The double next to `num / den`, nothing if that is past the largest one. -/
def ofQuotient (num den : Nat) : Option Binary64 :=
  if num = 0 then some zero
  else
    let estimate : Int := (num.log2 : Int) - den.log2 - 53
    let e := fit num den 4 (max minExponent estimate)
    let (n, d) := scale num den e
    let m := roundDiv n d
    let r : Binary64 := if m = 1 <<< 53 then ⟨1 <<< 52, e + 1⟩ else ⟨m, e⟩
    if r.exponent ≤ maxExponent then some r else none

/-- The value as numerator and denominator. -/
def toQuotient (x : Binary64) : Nat × Nat :=
  if 0 ≤ x.exponent then (x.mantissa <<< x.exponent.toNat, 1)
  else (x.mantissa, 1 <<< (-x.exponent).toNat)

/-- The product, rounded. -/
def mul (x y : Binary64) : Option Binary64 :=
  let (a, b) := x.toQuotient
  let (c, d) := y.toQuotient
  ofQuotient (a * c) (b * d)

/-- The quotient, rounded; nothing for a division by zero. -/
def div (x y : Binary64) : Option Binary64 :=
  let (a, b) := x.toQuotient
  let (c, d) := y.toQuotient
  if c = 0 then none else ofQuotient (a * d) (b * c)

end Binary64

/-- A finite double with its sign; zero has one too. -/
structure Double where
  negative : Bool
  magnitude : Binary64
deriving DecidableEq, Repr

end Hostcall
