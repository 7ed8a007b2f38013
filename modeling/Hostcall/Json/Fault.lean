import Hostcall.Bytes
import Hostcall.Decimal.Shortest
import Hostcall.Text.Quoted

/-!
# What can be wrong with a JSON text

A text that does not read is too short, malformed, or well formed and of another shape than asked
for. A reader that fails says how many bytes of the text are left (`Failure`); the line and column
are found in the end from the whole text (`Failure.place`). Shape is judged where no place is known
yet, by code that looks at a value and not at the text: such a failure is `refused`, and the reader
of the innermost brackets around it gives it a place.
-/

namespace Hostcall.Json

/-- What a text holds where something else was asked for. -/
inductive Found where
  | null
  | boolean (b : Bool)
  | integer (n : Int)
  | double (x : Double)
  | string (s : String)
  | list
  | object
deriving DecidableEq, Repr

/-- A value as messages show it; lists and objects are not shown in full. -/
def Found.text : Found → String
  | null => "null"
  | boolean b => "boolean `" ++ toString b ++ "`"
  | integer n => "integer `" ++ toString n ++ "`"
  | double x => "floating point `" ++ Shortest.signed x ++ "`"
  | string s => "string " ++ Quoted.text s
  | list => "sequence"
  | object => "map"

/-- Why a well-formed text is not of the shape asked for. -/
inductive Misfit where
  /-- A value of another type. -/
  | type (found : Found) (expected : String)
  /-- An integer outside the range of its type. -/
  | range (n : Int) (expected : String)
  /-- A list with too few or too many elements. -/
  | length (count : Nat) (expected : String)
  /-- A name that is none of the two known. -/
  | variant (name first second : String)
  | missingField (name : String)
  | duplicateField (name : String)
deriving DecidableEq, Repr

/-- What is wrong with the shape, in words. -/
def Misfit.text : Misfit → String
  | type found expected => "invalid type: " ++ found.text ++ ", expected " ++ expected
  | range n expected => "invalid value: integer `" ++ toString n ++ "`, expected " ++ expected
  | length count expected => "invalid length " ++ toString count ++ ", expected " ++ expected
  | variant name first second =>
    "unknown variant `" ++ name ++ "`, expected `" ++ first ++ "` or `" ++ second ++ "`"
  | missingField name => "missing field `" ++ name ++ "`"
  | duplicateField name => "duplicate field `" ++ name ++ "`"

/-- The three kinds of failure. -/
inductive Category where
  /-- The text ends too early. -/
  | truncated
  /-- The text is not JSON, or JSON beyond what is read. -/
  | malformed
  /-- The text is JSON of another shape. -/
  | misfit
deriving DecidableEq, Repr

/-- Why a text does not read. -/
inductive Cause where
  | endInList
  | endInObject
  | endInString
  | endInValue
  | colonExpected
  | listCommaOrEndExpected
  | objectCommaOrEndExpected
  | wordExpected
  | valueExpected
  | invalidEscape
  | invalidNumber
  | numberOutOfRange
  | controlCharacter
  | keyNotString
  | loneSurrogate
  | trailingComma
  | trailingCharacters
  | escapeCutShort
  | tooDeep
  | misfit (m : Misfit)
deriving DecidableEq, Repr

namespace Cause

/-- The kind of a cause. -/
def category : Cause → Category
  | endInList | endInObject | endInString | endInValue => .truncated
  | misfit _ => .misfit
  | _ => .malformed

/-- What is wrong, in words. -/
def text : Cause → String
  | endInList => "EOF while parsing a list"
  | endInObject => "EOF while parsing an object"
  | endInString => "EOF while parsing a string"
  | endInValue => "EOF while parsing a value"
  | colonExpected => "expected `:`"
  | listCommaOrEndExpected => "expected `,` or `]`"
  | objectCommaOrEndExpected => "expected `,` or `\x7d`"
  | wordExpected => "expected ident"
  | valueExpected => "expected value"
  | invalidEscape => "invalid escape"
  | invalidNumber => "invalid number"
  | numberOutOfRange => "number out of range"
  | controlCharacter => "control character (\\u0000-\\u001F) found while parsing a string"
  | keyNotString => "key must be a string"
  | loneSurrogate => "lone leading surrogate in hex escape"
  | trailingComma => "trailing comma"
  | trailingCharacters => "trailing characters"
  | escapeCutShort => "unexpected end of hex escape"
  | tooDeep => "recursion limit exceeded"
  | misfit m => m.text

end Cause

/-- A failure with its place; lines count from 1, and the column is the number of bytes between the
start of the line and the place. -/
structure Fault where
  cause : Cause
  line : Nat
  column : Nat
deriving DecidableEq, Repr

namespace Fault

/-- The kind of a failure. -/
def category (f : Fault) : Category := f.cause.category

/-- The failure and its place in one sentence. -/
def message (f : Fault) : String :=
  f.cause.text ++ " at line " ++ toString f.line ++ " column " ++ toString f.column

end Fault

/-- The failure of a reader: with `left` bytes of the text left, or without a place while `rest` is
still unread. -/
inductive Failure where
  | placed (cause : Cause) (left : Nat)
  | refused (misfit : Misfit) (rest : List Char)
deriving DecidableEq, Repr

/-- A reader takes the text that is left, and comes to a value and the text after it, or to a
failure. -/
abbrev Reader (α : Type) := List Char → Except Failure (α × List Char)

/-- The number of bytes of a text. -/
def size (text : List Char) : Nat := text.foldl (fun n c => n + c.utf8Size) 0

/-- A failure right before `rest`. -/
def before (cause : Cause) (rest : List Char) : Failure := .placed cause (size rest)

/-- A failure one byte into `rest`, or at the end if nothing is left. -/
def within (cause : Cause) (rest : List Char) : Failure := .placed cause (size rest - 1)

/-- The line and column after `count` bytes of a text. -/
def position (text : Bytes) (count : Nat) : Nat × Nat :=
  let seen := text.take count
  (seen.count newline + 1, (seen.reverse.takeWhile (· != newline)).length)
where
  newline : UInt8 := 10

/-- A failure with its place in the text that was read. -/
def Failure.place (text : List Char) : Failure → Fault
  | placed cause left => locate cause left
  | refused m rest => locate (.misfit m) (size rest)
where
  locate (cause : Cause) (left : Nat) : Fault :=
    let bytes := text.flatMap String.utf8EncodeChar
    let (line, column) := position bytes (bytes.length - left)
    ⟨cause, line, column⟩

end Hostcall.Json
