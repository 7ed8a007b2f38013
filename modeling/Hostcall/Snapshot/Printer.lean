import Hostcall.Json.Lexeme
import Hostcall.Tree.Basic

/-!
# Writing snapshots

A snapshot is written in one form: paths in the order of their characters, one field or byte a line,
two spaces further in than the line that opens the brackets, and `[]` for a file without bytes.
-/

namespace Hostcall.Snapshot

open Json

/-- The break before a line at a given indentation. -/
def newline (indent : Nat) : List Char := '\n' :: List.replicate indent ' '

/-- Items between brackets, one a line, for brackets that open on a line at `indent`. -/
def block (left right : Char) (indent : Nat) : List (List Char) → List Char
  | [] => [left, right]
  | item :: items =>
    left :: newline (indent + 2) ++ item ++
      items.flatMap (fun item => ',' :: newline (indent + 2) ++ item) ++ newline indent ++ [right]

/-- A field with its value. -/
def field (name : String) (value : List Char) : List Char := quote name ++ ':' :: ' ' :: value

/-- The digits of a number. -/
def digits (n : Nat) : List Char := Nat.toDigits 10 n

/-- A node, on a line at `indent`. -/
def nodeText (indent : Nat) (n : Node) : List Char :=
  block '\x7b' '\x7d' indent <|
    match n with
    | .file data mode =>
      [field "kind" (quote "file"),
        field "data" (block '[' ']' (indent + 2) (data.bytes.map fun b => digits b.toNat)),
        field "mode" (digits mode.toNat)]
    | .directory mode => [field "kind" (quote "directory"), field "mode" (digits mode.toNat)]

/-- The characters of a snapshot. -/
def treeText (t : Tree) : List Char :=
  block '\x7b' '\x7d' 0
    [field "nodes" (block '\x7b' '\x7d' 2 (t.entries.map fun (path, n) =>
      field path (nodeText 4 n)))]

/-- The text of a snapshot. -/
def render (t : Tree) : String := String.ofList (treeText t)

end Hostcall.Snapshot
