import Hostcall.Json.Lexeme

/-!
# Lists and objects of a JSON text

What stands between brackets, for readers of any elements. A refusal inside is placed where the
closing bracket ends, if it is there (`closing`).
-/

namespace Hostcall.Json

/-- Reads the end of a list: the cause of a failure, if any, and where the reader then stands. -/
def listEnd (text : List Char) : Option Cause × List Char :=
  match skipBlank text with
  | [] => (some .endInList, [])
  | ']' :: rest => (none, rest)
  | ',' :: rest =>
    match skipBlank rest with
    | ']' :: rest => (some .trailingComma, ']' :: rest)
    | rest => (some .trailingCharacters, rest)
  | rest => (some .trailingCharacters, rest)

/-- Reads the end of an object. -/
def objectEnd (text : List Char) : Option Cause × List Char :=
  match skipBlank text with
  | [] => (some .endInObject, [])
  | '\x7d' :: rest => (none, rest)
  | ',' :: rest => (some .trailingComma, ',' :: rest)
  | rest => (some .trailingCharacters, rest)

/-- Reads the closing bracket after what stands between brackets. -/
def closing {α : Type} (close : List Char → Option Cause × List Char) :
    Except Failure (α × List Char) → Except Failure (α × List Char)
  | .ok (a, rest) =>
    match close rest with
    | (none, rest) => .ok (a, rest)
    | (some cause, rest) => .error (within cause rest)
  | .error (.refused m rest) => .error (before (.misfit m) (close rest).2)
  | .error (.placed cause left) => .error (.placed cause left)

/-- Goes to the next element of a list, if there is one. -/
def nextElement (first : Bool) : Reader Bool := fun text =>
  match skipBlank text with
  | [] => .error (within .endInList [])
  | ']' :: rest => .ok (false, ']' :: rest)
  | c :: rest =>
    if first then .ok (true, c :: rest)
    else if c = ',' then
      match skipBlank rest with
      | [] => .error (within .endInValue [])
      | ']' :: rest => .error (within .trailingComma (']' :: rest))
      | rest => .ok (true, rest)
    else .error (within .listCommaOrEndExpected (c :: rest))

/-- Reads a key at the front of a text. -/
def key : Reader (Option String) := fun text =>
  match text with
  | '"' :: rest => do
    let (s, rest) ← string rest
    return (some s, rest)
  | _ => .error (within .keyNotString text)

/-- Reads the next key of an object, if there is one. -/
def nextKey (first : Bool) : Reader (Option String) := fun text =>
  match skipBlank text with
  | [] => .error (within .endInObject [])
  | '\x7d' :: rest => .ok (none, '\x7d' :: rest)
  | c :: rest =>
    if first then key (c :: rest)
    else if c = ',' then
      match skipBlank rest with
      | [] => .error (within .endInValue [])
      | '\x7d' :: rest => .error (within .trailingComma ('\x7d' :: rest))
      | rest => key rest
    else .error (within .objectCommaOrEndExpected (c :: rest))

/-- Reads the colon between a key and its value. -/
def colon : Reader Unit := fun text =>
  match skipBlank text with
  | [] => .error (within .endInObject [])
  | ':' :: rest => .ok ((), rest)
  | rest => .error (within .colonExpected rest)

/-! A list or an object has fewer elements than its text has characters, so the text itself bounds
the steps that reading it takes. -/

/-- Reads the elements of a list up to its end, in at most as many steps as `fuel` is long. -/
def elementsFrom {α : Type} (item : Reader α) : List Char → Bool → Reader (List α)
  | [], _, rest => .error (within .endInList rest)
  | _ :: fuel, first, text => do
    let (more, rest) ← nextElement first text
    if more then
      let (a, rest) ← item rest
      let (as, rest) ← elementsFrom item fuel false rest
      return (a :: as, rest)
    else return ([], rest)

/-- Reads the elements of a list up to its end. -/
def elements {α : Type} (item : Reader α) (first : Bool) : Reader (List α) := fun text =>
  elementsFrom item text first text

/-- Reads the members of an object up to its end, in at most as many steps as `fuel` is long. A
member is read by `step` from the colon on. -/
def membersFrom {σ : Type} (step : σ → String → Reader σ) : List Char → Bool → σ → Reader σ
  | [], _, _, rest => .error (within .endInObject rest)
  | _ :: fuel, first, s, text => do
    let (name, rest) ← nextKey first text
    match name with
    | some name =>
      let (s, rest) ← step s name rest
      membersFrom step fuel false s rest
    | none => return (s, rest)

/-- Reads the members of an object up to its end. -/
def members {σ : Type} (step : σ → String → Reader σ) (s : σ) : Reader σ := fun text =>
  membersFrom step text true s text

end Hostcall.Json
