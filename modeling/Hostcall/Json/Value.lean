import Hostcall.Json.Bracket
import Hostcall.Json.Number

/-!
# JSON values

Values of any shape, read with a bound on the depth of brackets.
-/

namespace Hostcall.Json

/-- A JSON value; an object keeps its members as they were written. -/
inductive Value where
  | null
  | boolean (b : Bool)
  | integer (n : Int)
  | double (x : Double)
  | string (s : String)
  | list (items : List Value)
  | object (members : List (String × Value))

/-- What a value is called where another was expected. -/
def Value.found : Value → Found
  | null => .null
  | boolean b => .boolean b
  | integer n => .integer n
  | double x => .double x
  | string s => .string s
  | list _ => .list
  | object _ => .object

/-- Reads a value that is no list and no object, from its first character on. -/
def scalar : Reader Value := fun text =>
  match text with
  | [] => .error (within .endInValue [])
  | 'n' :: rest => do
    let (_, rest) ← word ['u', 'l', 'l'] rest
    return (.null, rest)
  | 't' :: rest => do
    let (_, rest) ← word ['r', 'u', 'e'] rest
    return (.boolean true, rest)
  | 'f' :: rest => do
    let (_, rest) ← word ['a', 'l', 's', 'e'] rest
    return (.boolean false, rest)
  | '"' :: rest => do
    let (s, rest) ← string rest
    return (.string s, rest)
  | '-' :: rest => do
    let (n, rest) ← number true rest
    return (ofNumber n, rest)
  | c :: _ =>
    if c.isDigit then do
      let (n, rest) ← number false text
      return (ofNumber n, rest)
    else .error (within .valueExpected text)
where
  ofNumber : Number → Value
    | .integer n => .integer n
    | .double x => .double x

/-- Reads a value; `inner` reads the values between its brackets, and where it is missing no
brackets may open. -/
def valueWith (inner : Option (Reader Value)) : Reader Value := fun text =>
  match skipBlank text, inner with
  | '[' :: rest, some inner =>
    closing listEnd do
      let (items, rest) ← elements inner true rest
      return (.list items, rest)
  | '\x7b' :: rest, some inner =>
    closing objectEnd do
      let (entries, rest) ← members
        (fun entries name rest => do
          let (_, rest) ← colon rest
          let (v, rest) ← inner rest
          return ((name, v) :: entries, rest))
        [] rest
      return (.object entries.reverse, rest)
  | '[' :: rest, none => .error (within .tooDeep ('[' :: rest))
  | '\x7b' :: rest, none => .error (within .tooDeep ('\x7b' :: rest))
  | rest, _ => scalar rest

/-- Reads a value with brackets at most `depth` deep. -/
def value : Nat → Reader Value
  | 0 => valueWith none
  | depth + 1 => valueWith (some (value depth))

/-- The failure where another type was expected: a value without brackets is read first, and its own
failure counts. -/
def unexpected (expected : String) (text : List Char) : Failure :=
  match text with
  | '[' :: _ => before (.misfit (.type .list expected)) text
  | '\x7b' :: _ => before (.misfit (.type .object expected)) text
  | _ =>
    match scalar text with
    | .ok (v, rest) => before (.misfit (.type v.found expected)) rest
    | .error e => e

end Hostcall.Json
