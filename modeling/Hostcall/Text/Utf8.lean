import Hostcall.Bytes

/-!
# UTF-8, with a reader that never fails

`Utf8.encode` writes a text as its UTF-8 bytes. `Utf8.decode` reads any byte string: every longest
stretch that begins a character but does not finish it, and every byte that cannot begin one,
becomes a single U+FFFD. The reader is a machine whose state is the unfinished character, so that
it is a fold over the bytes.
-/

namespace Hostcall.Utf8

/-- The UTF-8 bytes of a text. -/
def encode (s : String) : Bytes := s.toList.flatMap String.utf8EncodeChar

/-- The character that stands for bytes that are not UTF-8. -/
def replacement : Char := '\uFFFD'

/-- A character of which some bytes have been read: the value of its bits so far, how many bytes
are missing, and the range in which the next of them has to lie. -/
structure Partial where
  value : Nat
  missing : Nat
  low : Nat
  high : Nat

/-- What a byte begins: a whole character, an unfinished one, or nothing. The ranges of the second
byte exclude overlong forms, surrogates and values above U+10FFFF. -/
inductive Start where
  | whole (c : Char)
  | unfinished (p : Partial)
  | malformed

/-- What the byte with value `b` begins. -/
def start (b : Nat) : Start :=
  if b < 0x80 then .whole (Char.ofNat b)
  else if b < 0xC2 then .malformed
  else if b < 0xE0 then .unfinished ⟨b - 0xC0, 1, 0x80, 0xBF⟩
  else if b = 0xE0 then .unfinished ⟨0, 2, 0xA0, 0xBF⟩
  else if b = 0xED then .unfinished ⟨0xD, 2, 0x80, 0x9F⟩
  else if b < 0xF0 then .unfinished ⟨b - 0xE0, 2, 0x80, 0xBF⟩
  else if b = 0xF0 then .unfinished ⟨0, 3, 0x90, 0xBF⟩
  else if b < 0xF4 then .unfinished ⟨b - 0xF0, 3, 0x80, 0xBF⟩
  else if b = 0xF4 then .unfinished ⟨4, 3, 0x80, 0x8F⟩
  else .malformed

/-- Reads a byte with no character unfinished. -/
def begin (b : Nat) : List Char × Option Partial :=
  match start b with
  | .whole c => ([c], none)
  | .unfinished p => ([], some p)
  | .malformed => ([replacement], none)

/-- Reads one byte: the characters that it completes, and what is unfinished after it. -/
def step (pending : Option Partial) (b : Nat) : List Char × Option Partial :=
  match pending with
  | none => begin b
  | some p =>
    if p.low ≤ b ∧ b ≤ p.high then
      let value := p.value * 64 + (b - 0x80)
      if p.missing = 1 then ([Char.ofNat value], none)
      else ([], some ⟨value, p.missing - 1, 0x80, 0xBF⟩)
    else
      let (chars, next) := begin b
      (replacement :: chars, next)

/-- The characters of a byte string, read with `pending` unfinished before it. -/
def decodeFrom (pending : Option Partial) : Bytes → List Char
  | [] => if pending.isSome then [replacement] else []
  | b :: rest =>
    let (chars, next) := step pending b.toNat
    chars ++ decodeFrom next rest

/-- The text of a byte string, with U+FFFD for what is not UTF-8. -/
def decode (b : Bytes) : String := String.ofList (decodeFrom none b)

/-- The text of a byte string that is UTF-8, which is one that writing the text brings back. -/
def decode? (b : Bytes) : Option String :=
  if encode (decode b) = b then some (decode b) else none

/-- What is decoded strictly is encoded to the same bytes. -/
theorem encode_eq_of_decode? {b : Bytes} {s : String} (h : decode? b = some s) : encode s = b := by
  unfold decode? at h
  split at h
  · rename_i he
    exact Option.some.inj h ▸ he
  · contradiction

@[simp] theorem encode_append (s t : String) : encode (s ++ t) = encode s ++ encode t := by
  simp [encode]

@[simp] theorem encode_empty : encode "" = [] := rfl

@[simp] theorem decode_nil : decode [] = "" := rfl

end Hostcall.Utf8
