import Hostcall.Text.Utf8.Lemmas

/-!
# NUL in UTF-8

A NUL is one byte, and no other byte is part of a NUL. So bytes without NUL read as a text without
NUL, also where they are not UTF-8 (`nul_notMem_decode`), and a text without NUL is written without
NUL (`zero_notMem_encode`). Reading makes a character of its bits, and bits that stand for none
would make a NUL; that the ranges of the second byte exclude them is the invariant of the reader
(`Partial.Viable`).
-/

namespace Hostcall.Utf8

/-- The number of ways to go on where some bytes are missing. -/
def endings : Nat → Nat
  | 0 => 1
  | missing + 1 => 64 * endings missing

/-- Whether every way to go on from the bits read so far ends at a character other than NUL, by the
number of bytes that are missing. -/
def Viable (missing value : Nat) : Prop :=
  0 < value ∧ ((value + 1) * endings missing ≤ 0xD800 ∨
    0xDFFF < value * endings missing ∧ (value + 1) * endings missing ≤ 0x110000)

/-- An unfinished character is viable after any byte that may come next. -/
def Partial.Viable (p : Partial) : Prop :=
  ∃ missing, p.missing = missing + 1 ∧ ∀ b, p.low ≤ b → b ≤ p.high →
    Utf8.Viable missing (p.value * 64 + (b - 0x80))

/-- A finished value that was viable is not zero. -/
theorem ofNat_ne_nul {v : Nat} (viable : Viable 0 v) : Char.ofNat v ≠ '\x00' := by
  obtain ⟨positive, range⟩ := viable
  have valid : v.isValidChar := by
    unfold Nat.isValidChar
    simp only [endings, Nat.mul_one] at range
    omega
  intro nul
  have same := congrArg Char.toNat nul
  rw [Char.ofNat, dif_pos valid] at same
  exact absurd (show v = 0 from same) (Nat.ne_of_gt positive)

/-- One more continuation byte keeps a value viable. -/
theorem Viable.next {missing value : Nat} (h : Viable (missing + 1) value) {bits : Nat}
    (small : bits < 64) : Viable missing (value * 64 + bits) := by
  obtain ⟨positive, range⟩ := h
  have above : (value * 64 + bits + 1) * endings missing ≤ (value + 1) * endings (missing + 1) := by
    rw [endings, ← Nat.mul_assoc]
    exact Nat.mul_le_mul_right _ (by omega)
  have below : value * endings (missing + 1) ≤ (value * 64 + bits) * endings missing := by
    rw [endings, ← Nat.mul_assoc]
    exact Nat.mul_le_mul_right _ (by omega)
  exact ⟨by omega, by omega⟩

theorem viable_two {value : Nat} (least : 2 ≤ value) (most : value < 32) :
    Partial.Viable ⟨value, 1, 0x80, 0xBF⟩ := by
  refine ⟨0, rfl, ?_⟩
  intro b low high
  dsimp only at low high ⊢
  simp only [Viable, endings]
  omega

theorem viable_three {value low high : Nat} (most : value < 16) (low_le : 0x80 ≤ low)
    (le_high : high ≤ 0xBF) (short : value = 0 → 0xA0 ≤ low)
    (surrogate : value = 13 → high ≤ 0x9F) : Partial.Viable ⟨value, 2, low, high⟩ := by
  refine ⟨1, rfl, ?_⟩
  intro b hlow hhigh
  dsimp only at hlow hhigh ⊢
  simp only [Viable, endings]
  omega

theorem viable_four {value low high : Nat} (low_le : 0x80 ≤ low)
    (le_high : high ≤ 0xBF) (short : value = 0 → 0x90 ≤ low) (most : value ≤ 4)
    (last : value = 4 → high ≤ 0x8F) : Partial.Viable ⟨value, 3, low, high⟩ := by
  refine ⟨2, rfl, ?_⟩
  intro b hlow hhigh
  dsimp only at hlow hhigh ⊢
  simp only [Viable, endings]
  omega

/-- A first byte leaves a viable value, since overlong forms are not begun. -/
theorem viable_of_start {b : Nat} {p : Partial} (h : start b = .unfinished p) : p.Viable := by
  unfold start at h
  split at h
  · contradiction
  split at h
  · contradiction
  split at h
  · rw [← Start.unfinished.inj h]
    apply viable_two <;> omega
  split at h
  · rw [← Start.unfinished.inj h]
    apply viable_three <;> omega
  split at h
  · rw [← Start.unfinished.inj h]
    apply viable_three <;> omega
  split at h
  · rw [← Start.unfinished.inj h]
    apply viable_three <;> omega
  split at h
  · rw [← Start.unfinished.inj h]
    apply viable_four <;> omega
  split at h
  · rw [← Start.unfinished.inj h]
    apply viable_four <;> omega
  split at h
  · rw [← Start.unfinished.inj h]
    apply viable_four <;> omega
  · contradiction

theorem eq_of_start_whole {b : Nat} {c : Char} (h : start b = .whole c) :
    b < 0x80 ∧ c = Char.ofNat b := by
  unfold start at h
  split at h
  · rename_i small
    exact ⟨small, (Start.whole.inj h).symm⟩
  · -- No other byte is a whole character.
    repeat' split at h
    all_goals contradiction

/-- Starting afresh with a byte that is not zero gives no NUL. -/
theorem nul_notMem_begin {b : Nat} (h : b ≠ 0) :
    '\x00' ∉ (begin b).1 ∧ ∀ p, (begin b).2 = some p → p.Viable := by
  unfold begin
  cases hstart : start b with
  | whole c =>
    obtain ⟨small, rfl⟩ := eq_of_start_whole hstart
    have viable : Viable 0 b := ⟨Nat.pos_of_ne_zero h, by rw [endings]; omega⟩
    exact ⟨by simpa using Ne.symm (ofNat_ne_nul viable), by simp⟩
  | unfinished p =>
    refine ⟨List.not_mem_nil, ?_⟩
    intro q hq
    exact Option.some.inj hq ▸ viable_of_start hstart
  | malformed => exact ⟨by decide, by simp⟩

/-- A byte that is not zero gives no NUL, and what is pending stays viable. -/
theorem nul_notMem_step {pending : Option Partial} (viable : ∀ p, pending = some p → p.Viable)
    {b : Nat} (h : b ≠ 0) :
    '\x00' ∉ (step pending b).1 ∧ ∀ p, (step pending b).2 = some p → p.Viable := by
  cases pending with
  | none => exact nul_notMem_begin h
  | some p =>
    obtain ⟨missing, hmissing, next⟩ := viable p rfl
    simp only [step]
    split
    · rename_i inRange
      have reached := next b inRange.1 inRange.2
      split
      · rename_i last
        obtain rfl : missing = 0 := by omega
        exact ⟨by simpa using Ne.symm (ofNat_ne_nul reached), by simp⟩
      · rename_i more
        refine ⟨List.not_mem_nil, ?_⟩
        intro q hq
        obtain rfl := Option.some.inj hq
        obtain ⟨fewer, rfl⟩ : ∃ fewer, missing = fewer + 1 := ⟨missing - 1, by omega⟩
        refine ⟨fewer, by simp [hmissing], ?_⟩
        intro c low high
        exact reached.next (by dsimp only at low high; omega)
    · obtain ⟨none, rest⟩ := nul_notMem_begin h
      exact ⟨by simpa [replacement] using none, rest⟩

/-- Bytes without zero are decoded to a text without NUL. -/
theorem nul_notMem_decodeFrom {pending : Option Partial} {b : Bytes}
    (viable : ∀ p, pending = some p → p.Viable) (h : 0 ∉ b) :
    '\x00' ∉ decodeFrom pending b := by
  induction b generalizing pending with
  | nil =>
    unfold decodeFrom
    split <;> decide
  | cons x b ih =>
    have nonzero : x.toNat ≠ 0 := by
      intro zero
      exact h (List.mem_cons.2 (.inl (UInt8.toNat_inj.1 zero.symm)))
    obtain ⟨here, next⟩ := nul_notMem_step viable nonzero
    rw [decodeFrom]
    simp only [List.mem_append, not_or]
    exact ⟨here, ih next fun later => h (List.mem_cons_of_mem x later)⟩

/-- Only a NUL byte reads as a NUL. -/
theorem nul_notMem_decode {b : Bytes} (h : 0 ∉ b) : '\x00' ∉ (decode b).toList := by
  rw [decode, String.toList_ofList]
  exact nul_notMem_decodeFrom (by simp) h

theorem zero_ne_ofNat {n : Nat} (positive : 0 < n) (small : n < 256) : 0 ≠ UInt8.ofNat n := by
  intro same
  have := congrArg UInt8.toNat same
  rw [toNat_ofNat_of_lt small] at this
  exact absurd this (Nat.ne_of_lt positive)

/-- A character other than NUL is encoded without a zero byte. -/
theorem zero_notMem_encodeChar {c : Char} (h : c ≠ '\x00') : 0 ∉ String.utf8EncodeChar c := by
  have positive : 0 < c.toNat := Nat.pos_of_ne_zero fun zero => h (Char.toNat_inj.1 zero)
  have valid := toNat_char_valid c
  rw [encodeChar_eq]
  generalize c.toNat = v at positive valid
  split
  · simpa using zero_ne_ofNat positive (by omega)
  split
  · simp only [List.mem_cons, List.not_mem_nil, or_false, not_or]
    exact ⟨zero_ne_ofNat (by omega) (by omega), zero_ne_ofNat (by omega) (by omega)⟩
  split
  · simp only [List.mem_cons, List.not_mem_nil, or_false, not_or]
    exact ⟨zero_ne_ofNat (by omega) (by omega), zero_ne_ofNat (by omega) (by omega),
      zero_ne_ofNat (by omega) (by omega)⟩
  · simp only [List.mem_cons, List.not_mem_nil, or_false, not_or]
    exact ⟨zero_ne_ofNat (by omega) (by omega), zero_ne_ofNat (by omega) (by omega),
      zero_ne_ofNat (by omega) (by omega), zero_ne_ofNat (by omega) (by omega)⟩

/-- A text without NUL has no NUL byte. -/
theorem zero_notMem_encode {s : String} (h : '\x00' ∉ s.toList) : 0 ∉ encode s := by
  intro zero
  obtain ⟨c, hc, hzero⟩ := List.mem_flatMap.1 zero
  exact zero_notMem_encodeChar (fun nul => h (nul ▸ hc)) hzero

/-- What a host sees of a text: what stands before its first NUL. -/
def beforeNul (s : String) : String := String.ofList (s.toList.takeWhile (· != '\x00'))

/-- The front of a text up to its NUL is without NUL. -/
theorem nul_notMem_beforeNul (s : String) : '\x00' ∉ (beforeNul s).toList := by
  intro nul
  rw [beforeNul, String.toList_ofList] at nul
  have others := List.all_eq_true.1 (List.all_takeWhile (p := (· != '\x00')) (l := s.toList))
  exact bne_iff_ne.1 (others _ nul) rfl

/-- Cutting a text at its NUL and cutting its bytes at the zero is the same. -/
theorem beforeNul_encode (s : String) : Bytes.beforeNul (encode s) = encode (beforeNul s) := by
  rw [encode, encode, beforeNul, String.toList_ofList]
  induction s.toList with
  | nil => rfl
  | cons c cs ih =>
    by_cases nul : c = '\x00'
    · subst nul
      rfl
    · have whole : ∀ b ∈ String.utf8EncodeChar c, (b != 0) = true := by
        intro b hb
        exact bne_iff_ne.2 fun zero => zero_notMem_encodeChar nul (zero ▸ hb)
      rw [List.flatMap_cons, Bytes.beforeNul, List.takeWhile_append_of_pos whole,
        List.takeWhile_cons, if_pos (bne_iff_ne.2 nul), List.flatMap_cons]
      exact congrArg _ ih

/-- Where there is no NUL, nothing is cut off. -/
theorem beforeNul_encode_of_notMem {s : String} (h : '\x00' ∉ s.toList) :
    Bytes.beforeNul (encode s) = encode s := by
  rw [← Bytes.beforeNul_append]
  exact Bytes.beforeNul_append_zero (zero_notMem_encode h) []

end Hostcall.Utf8
