import Hostcall.Json.Lexeme

/-!
# Reading blanks and strings that were written

Blanks before a character that is none are passed over, and a quoted string is read back from its
written form, whatever stands after it (`string_quote`). Quoting leaves no character that a string
may not hold as it is, so nothing is asked of the string.
-/

namespace Hostcall.Json

theorem skipBlank_of_not_blank {c : Char} (h : isBlank c = false) (rest : List Char) :
    skipBlank (c :: rest) = c :: rest := by
  rw [skipBlank, List.dropWhile_cons, h]
  rfl

/-- Any number of blanks is skipped. -/
theorem skipBlank_append {blanks : List Char} (h : ∀ c ∈ blanks, isBlank c = true)
    (rest : List Char) : skipBlank (blanks ++ rest) = skipBlank rest :=
  List.dropWhile_append_of_pos h

/-- A digit that is printed is read back. -/
theorem hexDigit?_digitChar {n : Nat} (h : n < 16) : hexDigit? (Nat.digitChar n) = some n := by
  have hall : ∀ m : Fin 16, hexDigit? (Nat.digitChar m) = some m.val := by decide
  exact hall ⟨n, h⟩

theorem utf8Size_digitChar {n : Nat} (h : n < 16) : (Nat.digitChar n).utf8Size = 1 := by
  have hall : ∀ m : Fin 16, (Nat.digitChar m).utf8Size = 1 := by decide
  exact hall ⟨n, h⟩

/-- A number below 256 is read back from the two digits that follow two zeros. -/
theorem hexQuad_digits {n : Nat} (h : n < 256) (rest : List Char) :
    hexQuad ('0' :: '0' :: Nat.digitChar (n / 16) :: Nat.digitChar (n % 16) :: rest) =
      .ok (n, rest) := by
  have hhigh : n / 16 < 16 := by omega
  have hlow : n % 16 < 16 := by omega
  have hvalue : hexValue? ('0' :: '0' :: Nat.digitChar (n / 16) :: Nat.digitChar (n % 16) :: rest) =
      some (n, rest) := by
    have hzero : hexDigit? '0' = some 0 := by decide
    simp only [hexValue?, hzero, hexDigit?_digitChar hhigh, hexDigit?_digitChar hlow,
      Option.bind_eq_bind, Option.bind_some, Option.pure_def, Option.some.injEq, Prod.mk.injEq,
      and_true]
    omega
  have hsize : ¬ size (['0', '0', Nat.digitChar (n / 16), Nat.digitChar (n % 16)]) < 4 := by
    have hzero : '0'.utf8Size = 1 := by decide
    simp [size, hzero, utf8Size_digitChar hhigh, utf8Size_digitChar hlow]
  rw [hexQuad, hvalue]
  exact if_neg hsize

/-- A control character comes back from its number. -/
theorem numberEscape_digits {c : Char} (h : c.toNat < 0x20) (rest : List Char) :
    numberEscape ('0' :: '0' :: Nat.digitChar (c.toNat / 16) :: Nat.digitChar (c.toNat % 16) ::
      rest) = .ok (c, rest) := by
  have hlow : isLowSurrogate c.toNat = false := by
    simp only [isLowSurrogate, Bool.and_eq_false_iff, decide_eq_false_iff_not]
    omega
  have hhigh : isHighSurrogate c.toNat = false := by
    simp only [isHighSurrogate, Bool.and_eq_false_iff, decide_eq_false_iff_not]
    omega
  rw [numberEscape, hexQuad_digits (by omega)]
  simp [hlow, hhigh, bind, Except.bind, pure, Except.pure, Char.ofNat_toNat]

/-- An escape is read as its character. -/
theorem stringChars_of_escape {text rest more s : List Char} {c : Char}
    (hc : escape text = .ok (c, rest)) (hs : stringChars rest = .ok (s, more)) :
    stringChars ('\\' :: text) = .ok (c :: s, more) := by
  rw [stringChars]
  simp only [Char.reduceEq, if_false, if_true]
  split
  · simp_all
  · rename_i d after h
    obtain ⟨rfl, rfl⟩ : c = d ∧ rest = after := by simpa [hc] using h
    rw [hs]
    rfl

/-- A character is read back from its written form. -/
theorem stringChars_quoteChar {text s rest : List Char} (c : Char)
    (h : stringChars text = .ok (s, rest)) :
    stringChars (quoteChar c ++ text) = .ok (c :: s, rest) := by
  unfold quoteChar
  split
  · exact stringChars_of_escape rfl h
  · exact stringChars_of_escape rfl h
  · exact stringChars_of_escape rfl h
  · exact stringChars_of_escape rfl h
  · exact stringChars_of_escape rfl h
  · exact stringChars_of_escape rfl h
  · exact stringChars_of_escape rfl h
  rename_i hquote hbackslash _ _ _ _ _
  split
  · rename_i hcontrol
    refine stringChars_of_escape ?_ h
    rw [← numberEscape_digits hcontrol text]
    rfl
  · rename_i hplain
    rw [List.singleton_append, stringChars, if_neg hquote, if_neg hbackslash, if_neg hplain, h]
    rfl

/-- A quoted text is read back up to its closing quote. -/
theorem stringChars_quote (s rest : List Char) :
    stringChars (s.flatMap quoteChar ++ '"' :: rest) = .ok (s, rest) := by
  induction s with
  | nil => rw [List.flatMap_nil, List.nil_append, stringChars, if_pos rfl]
  | cons c s ih =>
    rw [List.flatMap_cons, List.append_assoc]
    exact stringChars_quoteChar c ih

/-- A string is read back from its written form, past the opening quote. -/
theorem string_quote (s : String) (rest : List Char) :
    string (s.toList.flatMap quoteChar ++ '"' :: rest) = .ok (s, rest) := by
  rw [string, stringChars_quote]
  simp [bind, Except.bind, pure, Except.pure, String.ofList_toList]

end Hostcall.Json
