/-!
# Numbers of C

Where the conventions of C pass a number as an `int`, it has 32 bits and a sign. A number that is
cast to it is kept if it is small enough, and wraps around if it is not.
-/

namespace Hostcall.CInt

/-- The natural numbers below this one are kept by a cast. -/
def bound : Nat := 2147483648

/-- A natural number cast to an `int`. -/
def ofNat (n : Nat) : Int := (Int32.ofNat n).toInt

/-- What is small enough is kept. -/
theorem ofNat_eq {n : Nat} (fits : n < bound) : ofNat n = n := Int32.toInt_ofNat_of_lt fits

/-- What is too large by less than the numbers of an `int` wraps around to a negative number. -/
theorem ofNat_neg_iff (n : Nat) : ofNat n < 0 ↔ bound ≤ n % 4294967296 := by
  have wraps : ofNat n = Int.bmod n 4294967296 := Int32.toInt_ofNat'
  show ofNat n < 0 ↔ 2147483648 ≤ n % 4294967296
  rw [wraps, Int.bmod_def]
  split
  · omega
  · omega

end Hostcall.CInt
