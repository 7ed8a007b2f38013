import Hostcall.Json.Bracket

/-!
# Skipping a JSON value

The value of a field that nobody asks for is read past without being kept. Brackets may be nested to
any depth, so the open ones are a stack and not a recursion; numbers may be of any size. Only the
grammar is checked, and in two places a failure is named or placed in another way than where values
are kept: at a control character in a string, and where an element is missing after a comma.
-/

namespace Hostcall.Json

/-- An open bracket. -/
inductive Bracket where
  | list
  | object
deriving DecidableEq, Repr

/-- What may follow inside open brackets. -/
inductive Expected where
  /-- An element, or the end of the brackets that have just opened. -/
  | elementOrEnd
  /-- A comma, or the end of the innermost brackets. -/
  | commaOrEnd

/-- Reads past an escape, whose backslash has been read. -/
def skipEscape : Reader Unit := fun text =>
  match text with
  | [] => .error (before .endInString [])
  | c :: rest =>
    if c = 'u' then do
      let (_, rest) ← hexQuad rest
      return ((), rest)
    else if (letterEscape? c).isSome then .ok ((), rest)
    else .error (within .invalidEscape text)

theorem length_lt_of_skipEscape {text rest : List Char} {u : Unit}
    (h : skipEscape text = .ok (u, rest)) : rest.length < text.length := by
  unfold skipEscape at h
  split at h
  · contradiction
  split at h
  · obtain ⟨⟨n, r⟩, hn, h⟩ := ok_of_bind h
    obtain ⟨_, rfl⟩ := Prod.mk.inj (Except.ok.inj h)
    have hlen := length_lt_of_hexQuad hn
    simp only [List.length_cons]
    omega
  split at h
  · obtain ⟨_, rfl⟩ := Prod.mk.inj (Except.ok.inj h)
    simp
  · contradiction

/-- Reads past a string, whose opening quote has been read. -/
def skipString : Reader Unit
  | [] => .error (before .endInString [])
  | c :: rest =>
    if c = '"' then .ok ((), rest)
    else if c = '\\' then
      match _h : skipEscape rest with
      | .error e => .error e
      | .ok (_, rest) => skipString rest
    else if c.toNat < 0x20 then .error (before .controlCharacter (c :: rest))
    else skipString rest
termination_by text => text.length
decreasing_by
  · have hlen := length_lt_of_skipEscape _h
    simp only [List.length_cons]
    omega
  · simp

/-- Reads past digits, of which there has to be one; `missing` is the failure if there is none. -/
def skipDigits (missing : List Char → Failure) : Reader Unit := fun text =>
  if text.head?.any Char.isDigit then .ok ((), text.dropWhile Char.isDigit)
  else .error (missing text)

/-- Reads past an exponent if there is one. -/
def skipExponent? : Reader Unit := fun text =>
  match text with
  | c :: rest =>
    if c = 'e' ∨ c = 'E' then
      let rest := if rest.head?.any (fun d => d == '+' || d == '-') then rest.tail else rest
      skipDigits (within .invalidNumber) rest
    else .ok ((), text)
  | [] => .ok ((), [])

/-- Reads past a number, whose sign has been read. -/
def skipNumber : Reader Unit := fun text => do
  let (_, rest) ←
    match text with
    | '0' :: rest =>
      if rest.head?.any Char.isDigit then throw (within .invalidNumber rest)
      else pure ((), rest)
    | _ => skipDigits (within .invalidNumber) text
  match rest with
  | '.' :: rest =>
    let (_, rest) ← skipDigits (within .invalidNumber) rest
    skipExponent? rest
  | _ => skipExponent? rest

/-- Reads past a value without brackets, from its first character on. -/
def skipScalar : Reader Unit := fun text =>
  match text with
  | [] => .error (within .endInValue [])
  | 'n' :: rest => word ['u', 'l', 'l'] rest
  | 't' :: rest => word ['r', 'u', 'e'] rest
  | 'f' :: rest => word ['a', 'l', 's', 'e'] rest
  | '"' :: rest => skipString rest
  | '-' :: rest => skipNumber rest
  | c :: _ => if c.isDigit then skipNumber text else .error (within .valueExpected text)

/-- Reads past what stands before the value of an element: in an object its key and the colon. -/
def skipName (b : Bracket) : Reader Unit := fun text =>
  match b with
  | .list => .ok ((), text)
  | .object =>
    match skipBlank text with
    | [] => .error (within .endInObject [])
    | '"' :: rest => do
      let (_, rest) ← skipString rest
      colon rest
    | rest => .error (within .keyNotString rest)

/-- The bracket that ends what another one began. -/
def Bracket.close : Bracket → Char
  | list => ']'
  | object => '\x7d'

/-- The failure where the text ends before the brackets do. -/
def Bracket.ended : Bracket → Cause
  | list => .endInList
  | object => .endInObject

/-- The failure where neither a comma nor the end of the brackets follows. -/
def Bracket.unseparated : Bracket → Cause
  | list => .listCommaOrEndExpected
  | object => .objectCommaOrEndExpected

/-- Reads past a value without brackets, or past the bracket that opens one; gives the open
brackets, the innermost first, and what may follow. -/
def skipStart (stack : List Bracket) : Reader (List Bracket × Expected) := fun text =>
  match skipBlank text with
  | '[' :: rest => .ok ((.list :: stack, .elementOrEnd), rest)
  | '\x7b' :: rest => .ok ((.object :: stack, .elementOrEnd), rest)
  | rest => do
    let (_, rest) ← skipScalar rest
    return ((stack, .commaOrEnd), rest)

/-- Reads past the start of an element of the innermost brackets `b`. -/
def skipElement (b : Bracket) (stack : List Bracket) : Reader (List Bracket × Expected) :=
  fun text => do
    let (_, rest) ← skipName b text
    skipStart (b :: stack) rest

/-- Reads past the end of the innermost brackets `b`, or past the start of their next element. -/
def skipStep (b : Bracket) (stack : List Bracket) (next : Expected) :
    Reader (List Bracket × Expected) := fun text =>
  match skipBlank text with
  | [] => .error (within b.ended [])
  | c :: rest =>
    if c = b.close then .ok ((stack, .commaOrEnd), rest)
    else
      match next with
      | .elementOrEnd => skipElement b stack (c :: rest)
      | .commaOrEnd =>
        if c = ',' then skipElement b stack rest
        else .error (within b.unseparated (c :: rest))

/-- Reads past everything up to the end of the outermost brackets, in at most as many steps as
`fuel` is long. -/
def skipFrom : List Char → List Bracket → Expected → Reader Unit
  | _, [], _, rest => .ok ((), rest)
  | [], b :: _, _, rest => .error (within b.ended rest)
  | _ :: fuel, b :: stack, next, text => do
    let ((stack, next), rest) ← skipStep b stack next text
    skipFrom fuel stack next rest

/-- Reads past a value. Every step takes a character at least. -/
def skip : Reader Unit := fun text => do
  let ((stack, next), rest) ← skipStart [] text
  skipFrom rest stack next rest

end Hostcall.Json
