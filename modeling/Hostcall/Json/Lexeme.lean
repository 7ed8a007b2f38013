import Hostcall.Except
import Hostcall.Json.Fault

/-!
# Blanks, words and strings of a JSON text

Readers take the text that is left and give back what they read with the text after it.
-/

namespace Hostcall.Json

/-- The four characters that may stand between the parts of a text. -/
def isBlank (c : Char) : Bool := c == ' ' || c == '\n' || c == '\t' || c == '\r'

/-- The text from its first character on that is not blank. -/
def skipBlank (text : List Char) : List Char := text.dropWhile isBlank

/-- Reads the letters of a word. -/
def word : List Char → Reader Unit
  | [], rest => .ok ((), rest)
  | _ :: _, [] => .error (before .endInValue [])
  | c :: letters, d :: rest =>
    if c = d then word letters rest else .error (within .wordExpected (d :: rest))

/-- The value of a hexadecimal digit. -/
def hexDigit? (c : Char) : Option Nat :=
  if '0' ≤ c ∧ c ≤ '9' then some (c.toNat - '0'.toNat)
  else if 'a' ≤ c ∧ c ≤ 'f' then some (c.toNat - 'a'.toNat + 10)
  else if 'A' ≤ c ∧ c ≤ 'F' then some (c.toNat - 'A'.toNat + 10)
  else none

/-- The value of four hexadecimal digits at the front of a text. -/
def hexValue? : List Char → Option (Nat × List Char)
  | a :: b :: c :: d :: rest => do
    let a ← hexDigit? a
    let b ← hexDigit? b
    let c ← hexDigit? c
    let d ← hexDigit? d
    return (((a * 16 + b) * 16 + c) * 16 + d, rest)
  | _ => none

/-- Reads four hexadecimal digits. Four bytes are taken before they are looked at. -/
def hexQuad : Reader Nat := fun text =>
  if size (text.take 4) < 4 then .error (before .endInString [])
  else
    match hexValue? text with
    | some (n, rest) => .ok (n, rest)
    | none => .error (.placed .invalidEscape (size text - 4))

/-- The numbers of the first of two escapes that write one character. -/
def isHighSurrogate (n : Nat) : Bool := 0xD800 ≤ n && n ≤ 0xDBFF

/-- The numbers of the second of two escapes that write one character. -/
def isLowSurrogate (n : Nat) : Bool := 0xDC00 ≤ n && n ≤ 0xDFFF

/-- Reads one given character of an escape. -/
def escapeChar (expected : Char) : Reader Unit
  | [] => .error (before .endInString [])
  | c :: rest =>
    if c = expected then .ok ((), rest) else .error (within .escapeCutShort (c :: rest))

/-- Reads the digits of an escape by number. A character above U+FFFF is written as two such
escapes, the first in the high range of surrogates and the second in the low one. -/
def numberEscape : Reader Char := fun text => do
  let (n, rest) ← hexQuad text
  if isLowSurrogate n then throw (before .loneSurrogate rest)
  if isHighSurrogate n then
    let (_, rest) ← escapeChar '\\' rest
    let (_, rest) ← escapeChar 'u' rest
    let (m, rest) ← hexQuad rest
    if isLowSurrogate m then
      return (Char.ofNat ((n - 0xD800) * 0x400 + (m - 0xDC00) + 0x10000), rest)
    else throw (before .loneSurrogate rest)
  else return (Char.ofNat n, rest)

/-- The character of an escape by letter. -/
def letterEscape? (c : Char) : Option Char :=
  match c with
  | '"' => some '"'
  | '\\' => some '\\'
  | '/' => some '/'
  | 'b' => some '\x08'
  | 'f' => some '\x0C'
  | 'n' => some '\n'
  | 'r' => some '\r'
  | 't' => some '\t'
  | _ => none

/-- Reads an escape, whose backslash has been read. -/
def escape : Reader Char
  | [] => .error (before .endInString [])
  | c :: rest =>
    if c = 'u' then numberEscape rest
    else
      match letterEscape? c with
      | some d => .ok (d, rest)
      | none => .error (within .invalidEscape (c :: rest))

/-! Each part of an escape takes at least one character, so a string comes to an end. -/

theorem length_lt_of_hexValue? {text rest : List Char} {n : Nat}
    (h : hexValue? text = some (n, rest)) : rest.length < text.length := by
  unfold hexValue? at h
  split at h
  · simp only [Option.bind_eq_bind, Option.bind_eq_some_iff, Option.pure_def, Option.some.injEq,
      Prod.mk.injEq] at h
    obtain ⟨_, _, _, _, _, _, _, _, _, rfl⟩ := h
    simp only [List.length_cons]
    omega
  · contradiction

theorem length_lt_of_hexQuad {text rest : List Char} {n : Nat}
    (h : hexQuad text = .ok (n, rest)) : rest.length < text.length := by
  unfold hexQuad at h
  split at h
  · contradiction
  split at h
  · rename_i hv
    obtain ⟨rfl, rfl⟩ := Prod.mk.inj (Except.ok.inj h)
    exact length_lt_of_hexValue? hv
  · contradiction

/-- Whatever is read of an escape is taken off the text, so reading comes to an end. -/
theorem length_lt_of_escapeChar {c : Char} {text rest : List Char} {u : Unit}
    (h : escapeChar c text = .ok (u, rest)) : rest.length < text.length := by
  unfold escapeChar at h
  split at h
  · contradiction
  split at h
  · obtain ⟨_, rfl⟩ := Prod.mk.inj (Except.ok.inj h)
    simp
  · contradiction

theorem length_lt_of_numberEscape {text rest : List Char} {d : Char}
    (h : numberEscape text = .ok (d, rest)) : rest.length < text.length := by
  unfold numberEscape at h
  obtain ⟨⟨n, r⟩, hn, h⟩ := ok_of_bind h
  have hlen := length_lt_of_hexQuad hn
  simp only at h
  split at h
  · contradiction
  split at h
  · obtain ⟨⟨_, r₁⟩, h₁, h⟩ := ok_of_bind h
    obtain ⟨⟨_, r₂⟩, h₂, h⟩ := ok_of_bind h
    obtain ⟨⟨m, r₃⟩, h₃, h⟩ := ok_of_bind h
    have hlen₁ := length_lt_of_escapeChar h₁
    have hlen₂ := length_lt_of_escapeChar h₂
    have hlen₃ := length_lt_of_hexQuad h₃
    split at h
    · obtain ⟨_, rfl⟩ := Prod.mk.inj (Except.ok.inj h)
      simp only at hlen₁ hlen₂ hlen₃ ⊢
      omega
    · contradiction
  · obtain ⟨_, rfl⟩ := Prod.mk.inj (Except.ok.inj h)
    exact hlen

theorem length_lt_of_escape {text rest : List Char} {d : Char}
    (h : escape text = .ok (d, rest)) : rest.length < text.length := by
  unfold escape at h
  split at h
  · contradiction
  split at h
  · have hlen := length_lt_of_numberEscape h
    simp only [List.length_cons]
    omega
  split at h
  · obtain ⟨_, rfl⟩ := Prod.mk.inj (Except.ok.inj h)
    simp
  · contradiction

/-- Reads the characters of a string, whose opening quote has been read. -/
def stringChars : Reader (List Char)
  | [] => .error (before .endInString [])
  | c :: rest =>
    if c = '"' then .ok ([], rest)
    else if c = '\\' then
      match _h : escape rest with
      | .error e => .error e
      | .ok (d, rest) => do
        let (s, rest) ← stringChars rest
        return (d :: s, rest)
    else if c.toNat < 0x20 then .error (within .controlCharacter (c :: rest))
    else do
      let (s, rest) ← stringChars rest
      return (c :: s, rest)
termination_by text => text.length
decreasing_by
  · have hlen := length_lt_of_escape _h
    simp only [List.length_cons]
    omega
  · simp

/-- Reads a string, whose opening quote has been read. -/
def string : Reader String := fun text => do
  let (s, rest) ← stringChars text
  return (String.ofList s, rest)

/-- The written form of a character in a string. -/
def quoteChar (c : Char) : List Char :=
  match c with
  | '"' => ['\\', '"']
  | '\\' => ['\\', '\\']
  | '\x08' => ['\\', 'b']
  | '\x0C' => ['\\', 'f']
  | '\n' => ['\\', 'n']
  | '\r' => ['\\', 'r']
  | '\t' => ['\\', 't']
  | c =>
    if c.toNat < 0x20 then
      ['\\', 'u', '0', '0', Nat.digitChar (c.toNat / 16), Nat.digitChar (c.toNat % 16)]
    else [c]

/-- The written form of a string, quotes included. -/
def quote (s : String) : List Char := '"' :: s.toList.flatMap quoteChar ++ ['"']

end Hostcall.Json
