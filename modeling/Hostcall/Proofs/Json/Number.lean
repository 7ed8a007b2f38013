import Hostcall.Json.Value
import Hostcall.Proofs.Json.Lexeme

/-!
# Reading numbers that were written

The decimal digits of a number that 64 bits hold are read back as that number, by every reader that
comes across them: they have no zero in front, they add up without reaching the limit, and what
stands after them is no part of a number (`value_digits`).
-/

namespace Hostcall.Json

/-- What stands after a number: no digit, and nothing by which a number goes on. -/
def EndsNumber (rest : List Char) : Prop :=
  ∀ c ∈ rest.head?, c.isDigit = false ∧ c ≠ '.' ∧ c ≠ 'e' ∧ c ≠ 'E'

variable {n limit : Nat} {text rest : List Char}

/-- The digits of a number end where it does. -/
theorem digitsOf_append (hdigits : ∀ c ∈ text, c.isDigit = true) (h : EndsNumber rest) :
    digitsOf (text ++ rest) = text := by
  rw [digitsOf, List.takeWhile_append_of_pos hdigits]
  cases rest with
  | nil => simp
  | cons c rest => simp [(h c rfl).1]

theorem afterDigits_append (hdigits : ∀ c ∈ text, c.isDigit = true) (h : EndsNumber rest) :
    afterDigits (text ++ rest) = rest := by
  rw [afterDigits, List.dropWhile_append_of_pos hdigits]
  cases rest with
  | nil => simp
  | cons c rest => simp [(h c rfl).1]

/-- Reading more digits never makes a number smaller. -/
theorem le_ofDigitChars (text : List Char) (n : Nat) : n ≤ Nat.ofDigitChars 10 text n := by
  rw [Nat.ofDigitChars_eq_ofDigitChars_zero]
  have := Nat.le_mul_of_pos_left n (Nat.pow_pos (n := text.length) (show 0 < 10 by omega))
  omega

/-- Digits are all appended when the number that they make does not pass the limit. -/
theorem appendDigits_eq (h : Nat.ofDigitChars 10 text n ≤ limit) :
    appendDigits limit n text = (Nat.ofDigitChars 10 text n, []) := by
  induction text generalizing n with
  | nil => rw [appendDigits, Nat.ofDigitChars_nil]
  | cons c text ih =>
    rw [Nat.ofDigitChars_cons, Nat.mul_comm] at h ⊢
    have hnext := Nat.le_trans (le_ofDigitChars text _) h
    simp only [appendDigits, if_pos hnext]
    exact ih h

theorem isDigit_of_mem_toDigits {c : Char} (h : c ∈ Nat.toDigits 10 n) : c.isDigit = true :=
  Nat.isDigit_of_mem_toDigits (by omega) (by omega) h

/-- A written number has no zero in front, unless it is zero. -/
theorem toDigits_eq_zero_cons (h : Nat.toDigits 10 n = '0' :: text) : text = [] := by
  induction n using Nat.strongRecOn generalizing text with
  | ind n ih =>
    rw [Nat.toDigits_eq_if (by omega)] at h
    split at h
    · exact (List.cons.inj h).2.symm
    · rename_i hlarge
      exfalso
      cases htext : Nat.toDigits 10 (n / 10) with
      | nil => exact Nat.toDigits_ne_nil htext
      | cons c digits =>
        rw [htext, List.cons_append] at h
        obtain ⟨rfl, -⟩ := List.cons.inj h
        -- The digits before the last would be those of zero, and the number below ten.
        obtain rfl := ih _ (by omega) htext
        have hvalue : n / 10 = 0 := by
          rw [← Nat.ofDigitChars_ten_toDigits (n := n / 10), htext]
          rfl
        omega

/-- A printed number begins with a digit. -/
theorem exists_toDigits_eq_cons (n : Nat) :
    ∃ c digits, Nat.toDigits 10 n = c :: digits ∧ c.isDigit = true := by
  cases h : Nat.toDigits 10 n with
  | nil => exact absurd h Nat.toDigits_ne_nil
  | cons c digits => exact ⟨c, digits, rfl, isDigit_of_mem_toDigits (h ▸ List.mem_cons_self)⟩

/-- A printed number is read back, as long as it is small enough for a whole one. -/
theorem number_digits (h : n ≤ maxSignificand) (hrest : EndsNumber rest) :
    number false (Nat.toDigits 10 n ++ rest) = .ok (.integer n, rest) := by
  have hdigits := digitsOf_append (fun c => isDigit_of_mem_toDigits (n := n)) hrest
  have hafter := afterDigits_append (fun c => isDigit_of_mem_toDigits (n := n)) hrest
  have hvalue : appendDigits maxSignificand 0 (Nat.toDigits 10 n) = (n, []) := by
    rw [appendDigits_eq (by rwa [Nat.ofDigitChars_ten_toDigits]), Nat.ofDigitChars_ten_toDigits]
  obtain ⟨c, digits, htext, hc⟩ := exists_toDigits_eq_cons n
  rw [htext, List.cons_append] at hdigits hafter ⊢
  have hzero : ¬ (c = '0' ∧ ((digits ++ rest).head?.any Char.isDigit) = true) := by
    rintro ⟨rfl, hnext⟩
    obtain rfl := toDigits_eq_zero_cons htext
    cases rest with
    | nil => simp at hnext
    | cons d rest => simp [(hrest d rfl).1] at hnext
  simp only [number, if_neg hzero, hc, if_true, hdigits, hafter, ← htext, hvalue]
  split
  · exact absurd rfl (hrest '.' rfl).2.1
  · have hexponent : rest.head?.any (fun c => c == 'e' || c == 'E') = false := by
      cases rest with
      | nil => rfl
      | cons d rest => simp [(hrest d rfl).2.2]
    rw [hexponent]
    rfl

theorem ne_of_isDigit {c d : Char} (hc : c.isDigit = true) (hd : d.isDigit = false) : c ≠ d := by
  rintro rfl
  simp [hc] at hd

theorem isBlank_of_isDigit {c : Char} (h : c.isDigit = true) : isBlank c = false := by
  have hspace : c ≠ ' ' := ne_of_isDigit h rfl
  have hline : c ≠ '\n' := ne_of_isDigit h rfl
  have htab : c ≠ '\t' := ne_of_isDigit h rfl
  have hreturn : c ≠ '\r' := ne_of_isDigit h rfl
  simp [isBlank, hspace, hline, htab, hreturn]

/-- A value that starts with a digit is a number. -/
theorem scalar_digits (h : n ≤ maxSignificand) (hrest : EndsNumber rest) :
    scalar (Nat.toDigits 10 n ++ rest) = .ok (.integer n, rest) := by
  have hnumber := number_digits h hrest
  obtain ⟨c, digits, htext, hc⟩ := exists_toDigits_eq_cons n
  rw [htext, List.cons_append] at hnumber ⊢
  have other {d : Char} {after : List Char} (hd : d.isDigit = false)
      (e : c :: (digits ++ rest) = d :: after) : False := ne_of_isDigit hc hd (List.cons.inj e).1
  unfold scalar
  split
  · contradiction
  · exact (other rfl ‹_›).elim
  · exact (other rfl ‹_›).elim
  · exact (other rfl ‹_›).elim
  · exact (other rfl ‹_›).elim
  · exact (other rfl ‹_›).elim
  · rename_i e
    obtain ⟨rfl, rfl⟩ := List.cons.inj e
    rw [if_pos hc, hnumber]
    rfl

/-- So it is where any value may stand. -/
theorem value_digits (h : n ≤ maxSignificand) (hrest : EndsNumber rest) (depth : Nat) :
    value depth (Nat.toDigits 10 n ++ rest) = .ok (.integer n, rest) := by
  have hscalar := scalar_digits h hrest
  obtain ⟨c, digits, htext, hc⟩ := exists_toDigits_eq_cons n
  rw [htext, List.cons_append] at hscalar ⊢
  have other {d : Char} {after : List Char} (hd : d.isDigit = false)
      (e : c :: (digits ++ rest) = d :: after) : False := ne_of_isDigit hc hd (List.cons.inj e).1
  have hwith (inner : Option (Reader Value)) :
      valueWith inner (c :: (digits ++ rest)) = .ok (.integer n, rest) := by
    simp only [valueWith, skipBlank_of_not_blank (isBlank_of_isDigit hc)]
    split
    · exact (other rfl ‹_›).elim
    · exact (other rfl ‹_›).elim
    · exact (other rfl ‹_›).elim
    · exact (other rfl ‹_›).elim
    · exact hscalar
  cases depth with
  | zero => exact hwith none
  | succ depth => exact hwith (some (value depth))

end Hostcall.Json
