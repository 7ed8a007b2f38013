import Hostcall.Text.Utf8

/-!
# Reading what was written

The bytes of a character bring the reader from no unfinished character back to none, with that
character read (`decodeFrom_encodeChar`). So a text comes back from its bytes (`decode_encode`), and
the byte strings that are UTF-8 are those that some text has (`decode?_eq_some_iff`). No byte is
lost without a trace: only the empty byte string reads as the empty text (`decode_eq_empty_iff`).
-/

namespace Hostcall.Utf8

/-- Decoding goes byte by byte. -/
theorem decodeFrom_cons {p : Option Partial} {b : UInt8} {n : Nat} {cs : List Char}
    {q : Option Partial} (hb : b.toNat = n) (h : step p n = (cs, q)) (rest : Bytes) :
    decodeFrom p (b :: rest) = cs ++ decodeFrom q rest := by
  simp [decodeFrom, hb, h]

/-- The last byte of a character. -/
theorem step_last {v lo hi b : Nat} (h : lo ≤ b ∧ b ≤ hi) :
    step (some ⟨v, 1, lo, hi⟩) b = ([Char.ofNat (v * 64 + (b - 0x80))], none) := by
  simp [step, h]

/-- A byte of a character that is not the last. -/
theorem step_more {v k lo hi b : Nat} (h : lo ≤ b ∧ b ≤ hi) :
    step (some ⟨v, k + 2, lo, hi⟩) b =
      ([], some ⟨v * 64 + (b - 0x80), k + 1, 0x80, 0xBF⟩) := by
  simp [step, h]

theorem toNat_ofNat_of_lt {n : Nat} (h : n < 256) : (UInt8.ofNat n).toNat = n := by
  simp; omega

/-- What reading the first byte of a character of two bytes leaves. -/
theorem step_two {b : Nat} (h : 0xC2 ≤ b ∧ b < 0xE0) :
    step none b = ([], some ⟨b - 0xC0, 1, 0x80, 0xBF⟩) := by
  have : start b = .unfinished ⟨b - 0xC0, 1, 0x80, 0xBF⟩ := by
    unfold start
    rw [if_neg (by omega), if_neg (by omega), if_pos (by omega)]
  simp [step, begin, this]

/-- What reading the first byte of a character of three bytes leaves. -/
theorem step_three {b : Nat} (h : 0xE0 ≤ b ∧ b < 0xF0) :
    step none b = ([], some ⟨b - 0xE0, 2, if b = 0xE0 then 0xA0 else 0x80,
      if b = 0xED then 0x9F else 0xBF⟩) := by
  have : start b = .unfinished ⟨b - 0xE0, 2, if b = 0xE0 then 0xA0 else 0x80,
      if b = 0xED then 0x9F else 0xBF⟩ := by
    unfold start
    rw [if_neg (by omega), if_neg (by omega), if_neg (by omega)]
    split
    · simp [*]
    split
    · simp [*]
    rw [if_pos (by omega)]
  simp [step, begin, this]

/-- What reading the first byte of a character of four bytes leaves. -/
theorem step_four {b : Nat} (h : 0xF0 ≤ b ∧ b < 0xF5) :
    step none b = ([], some ⟨b - 0xF0, 3, if b = 0xF0 then 0x90 else 0x80,
      if b = 0xF4 then 0x8F else 0xBF⟩) := by
  have : start b = .unfinished ⟨b - 0xF0, 3, if b = 0xF0 then 0x90 else 0x80,
      if b = 0xF4 then 0x8F else 0xBF⟩ := by
    unfold start
    rw [if_neg (by omega), if_neg (by omega), if_neg (by omega), if_neg (by omega),
      if_neg (by omega), if_neg (by omega)]
    split
    · simp [*]
    split
    · rw [if_neg (by omega)]
    · rw [if_pos (by omega), if_pos (by omega)]
      simp [show b = 0xF4 by omega]
  simp [step, begin, this]

/-- A character is no half of a surrogate pair and lies in the range of Unicode. -/
theorem toNat_char_valid (c : Char) : c.toNat < 0xD800 ∨ 0xDFFF < c.toNat ∧ c.toNat < 0x110000 :=
  c.valid

/-- The bytes of a character: its bits in groups of six, behind a first byte that says how many
groups there are. -/
theorem encodeChar_eq (c : Char) : String.utf8EncodeChar c =
    if c.toNat ≤ 127 then [UInt8.ofNat c.toNat] else
    if c.toNat ≤ 2047 then
      [UInt8.ofNat (c.toNat / 64 % 32 + 192), UInt8.ofNat (c.toNat % 64 + 128)] else
    if c.toNat ≤ 65535 then
      [UInt8.ofNat (c.toNat / 4096 % 16 + 224), UInt8.ofNat (c.toNat / 64 % 64 + 128),
        UInt8.ofNat (c.toNat % 64 + 128)]
    else
      [UInt8.ofNat (c.toNat / 262144 % 8 + 240), UInt8.ofNat (c.toNat / 4096 % 64 + 128),
        UInt8.ofNat (c.toNat / 64 % 64 + 128), UInt8.ofNat (c.toNat % 64 + 128)] := rfl

/-- An encoded character is decoded to itself, whatever comes after it. -/
theorem decodeFrom_encodeChar (c : Char) (rest : Bytes) :
    decodeFrom none (String.utf8EncodeChar c ++ rest) = c :: decodeFrom none rest := by
  have hv := toNat_char_valid c
  have hc : Char.ofNat c.toNat = c := Char.ofNat_toNat c
  rw [encodeChar_eq]
  generalize c.toNat = v at hv hc
  split
  · have : step none v = ([c], none) := by
      simp [step, begin, start, show v < 0x80 by omega, hc]
    exact decodeFrom_cons (toNat_ofNat_of_lt (by omega)) this rest
  split
  · refine (decodeFrom_cons (toNat_ofNat_of_lt (by omega)) (step_two (by omega)) _).trans ?_
    refine (decodeFrom_cons (toNat_ofNat_of_lt (by omega)) (step_last (by omega)) _).trans ?_
    rw [show (v / 64 % 32 + 192 - 192) * 64 + (v % 64 + 128 - 128) = v by omega, hc]
    rfl
  split
  · refine (decodeFrom_cons (toNat_ofNat_of_lt (by omega)) (step_three (by omega)) _).trans ?_
    refine (decodeFrom_cons (toNat_ofNat_of_lt (by omega))
      (step_more (by split <;> split <;> omega)) _).trans ?_
    refine (decodeFrom_cons (toNat_ofNat_of_lt (by omega)) (step_last (by omega)) _).trans ?_
    rw [show ((v / 4096 % 16 + 224 - 224) * 64 + (v / 64 % 64 + 128 - 128)) * 64 +
      (v % 64 + 128 - 128) = v by omega, hc]
    rfl
  · refine (decodeFrom_cons (toNat_ofNat_of_lt (by omega)) (step_four (by omega)) _).trans ?_
    refine (decodeFrom_cons (toNat_ofNat_of_lt (by omega))
      (step_more (by split <;> split <;> omega)) _).trans ?_
    refine (decodeFrom_cons (toNat_ofNat_of_lt (by omega)) (step_more (by omega)) _).trans ?_
    refine (decodeFrom_cons (toNat_ofNat_of_lt (by omega)) (step_last (by omega)) _).trans ?_
    rw [show (((v / 262144 % 8 + 240 - 240) * 64 + (v / 4096 % 64 + 128 - 128)) * 64 +
      (v / 64 % 64 + 128 - 128)) * 64 + (v % 64 + 128 - 128) = v by omega, hc]
    rfl

/-- A text comes back from its bytes. -/
theorem decode_encode (s : String) : decode (encode s) = s := by
  have (l : List Char) : decodeFrom none (l.flatMap String.utf8EncodeChar) = l := by
    induction l with
    | nil => rfl
    | cons c l ih => rw [List.flatMap_cons, decodeFrom_encodeChar, ih]
  rw [decode, encode, this, String.ofList_toList]

/-- Only the empty text has no bytes. -/
theorem encode_eq_nil_iff (s : String) : encode s = [] ↔ s = "" := by
  constructor
  · intro none
    calc s = decode (encode s) := (decode_encode s).symm
      _ = "" := by rw [none, decode_nil]
  · rintro rfl
    exact encode_empty

/-- A byte is the end of some characters, or it leaves one unfinished. -/
theorem step_ne (pending : Option Partial) (b : Nat) : step pending b ≠ ([], none) := by
  have begins : begin b ≠ ([], none) := by
    unfold begin
    cases start b <;> simp
  cases pending with
  | none => exact begins
  | some p =>
    unfold step
    dsimp only
    split
    · split <;> simp
    · simp

/-- Only the empty byte string has no characters. -/
theorem decode_eq_empty_iff (b : Bytes) : decode b = "" ↔ b = [] := by
  have (pending : Option Partial) : decodeFrom pending b = [] → b = [] ∧ pending = none := by
    induction b generalizing pending with
    | nil => cases pending <;> simp [decodeFrom]
    | cons x rest ih =>
      intro blank
      rcases read : step pending x.toNat with ⟨chars, next⟩
      rw [decodeFrom_cons rfl read, List.append_eq_nil_iff] at blank
      obtain ⟨rfl, later⟩ := blank
      exact absurd ((ih next later).2 ▸ read) (step_ne pending x.toNat)
  constructor
  · intro empty
    have blank := congrArg String.toList empty
    rw [decode, String.toList_ofList] at blank
    exact (this none blank).1
  · rintro rfl
    exact decode_nil

/-- The bytes that are decoded strictly are the encoded texts. -/
theorem decode?_eq_some_iff {b : Bytes} {s : String} : decode? b = some s ↔ encode s = b := by
  constructor
  · exact encode_eq_of_decode?
  · rintro rfl
    simp [decode?, decode_encode]

end Hostcall.Utf8
