import Hostcall.Json.Skip
import Hostcall.Json.Value
import Hostcall.Tree.Basic

/-!
# Reading snapshots

A snapshot is a JSON object whose field `nodes` maps paths to nodes; a node is an object with a
field `kind`, which says whether it is a file or a directory, and fields for its bytes and its mode,
which may be missing. Both objects may be written as lists of their fields instead. The text is read
once from left to right and the first failure counts; a node is read to its end before its fields
are judged.
-/

namespace Hostcall.Snapshot

open Json

/-- The two kinds of nodes. -/
inductive Kind where
  | file
  | directory
deriving DecidableEq, Repr

/-- The fields of a node apart from its kind, as they were written. -/
inductive Fields where
  | named (entries : List (String × Value))
  | listed (items : List Value)

/-- How deep brackets may be nested, those of the snapshot itself included. -/
def maxDepth : Nat := 127

/-- The integer of a value, which has to be below `bound`. -/
def natBelow (bound : Nat) (name : String) (v : Value) : Except Misfit Nat :=
  match v with
  | .integer n =>
    if 0 ≤ n ∧ n < bound then .ok n.toNat else .error (.range n name)
  | v => .error (.type v.found name)

/-- The bytes of a list of values. -/
def bytesOf (v : Value) : Except Misfit Bytes :=
  match v with
  | .list items => items.mapM fun item => return UInt8.ofNat (← natBelow (1 <<< 8) "u8" item)
  | v => .error (.type v.found "a sequence")

/-- The mode of a value. -/
def modeOf (v : Value) : Except Misfit Mode :=
  return UInt32.ofNat (← natBelow (1 <<< 32) "u32" v)

/-- The failure of a list of fields that goes on after the last field of the node. -/
def tooLong (count known : Nat) : Misfit :=
  .length count <|
    if known = 1 then "1 element in sequence" else toString known ++ " elements in sequence"

/-- The fields that were found so far. -/
structure Draft where
  data : Option Bytes := none
  mode : Option Mode := none

/-- Takes one field of a node. A directory has no bytes, so that field counts as unknown there, and
unknown fields are passed over. -/
def Draft.take (kind : Kind) (d : Draft) (entry : String × Value) : Except Misfit Draft :=
  if entry.1 = "data" ∧ kind = .file then
    if d.data.isSome then .error (.duplicateField "data")
    else return { d with data := some (← bytesOf entry.2) }
  else if entry.1 = "mode" then
    if d.mode.isSome then .error (.duplicateField "mode")
    else return { d with mode := some (← modeOf entry.2) }
  else .ok d

/-- The node with the fields found; those that are missing have default values. -/
def Draft.node (kind : Kind) (d : Draft) : Node :=
  match kind with
  | .file => .file (.ofBytes (d.data.getD [])) (d.mode.getD Mode.defaultFile)
  | .directory => .directory (d.mode.getD Mode.defaultDirectory)

/-- The node with given fields. -/
def nodeOf (kind : Kind) (fields : Fields) : Except Misfit Node :=
  match kind, fields with
  | kind, .named entries => return (← entries.foldlM (Draft.take kind) {}).node kind
  | .file, .listed items => do
    let data ← (items[0]?).mapM bytesOf
    let mode ← (items[1]?).mapM modeOf
    if 2 < items.length then throw (tooLong items.length 2)
    return Draft.node .file ⟨data, mode⟩
  | .directory, .listed items => do
    let mode ← (items[0]?).mapM modeOf
    if 1 < items.length then throw (tooLong items.length 1)
    return Draft.node .directory ⟨none, mode⟩

/-- Reads the kind of a node. -/
def kind : Reader Kind := fun text =>
  match skipBlank text with
  | '"' :: rest => do
    let (name, rest) ← string rest
    if name = "file" then return (.file, rest)
    else if name = "directory" then return (.directory, rest)
    else throw (before (.misfit (.variant name "file" "directory")) rest)
  | rest => .error (unexpected "variant identifier" rest)

/-- Reads one member of a node from the colon on: its kind, which it has once, or a field, which is
kept as it was written. The last field comes first. -/
def nodeMember (depth : Nat) (found : Option Kind × List (String × Value)) (name : String) :
    Reader (Option Kind × List (String × Value)) := fun rest => do
  if name = "kind" then
    if found.1.isSome then throw (.refused (.duplicateField "kind") rest)
    let (_, rest) ← colon rest
    let (k, rest) ← kind rest
    return ((some k, found.2), rest)
  else
    let (_, rest) ← colon rest
    let (v, rest) ← value depth rest
    return ((found.1, (name, v) :: found.2), rest)

/-- Reads the kind and the fields of a node, with brackets at most `depth` deep. -/
def tagged (depth : Nat) : Reader (Kind × Fields) := fun text =>
  match skipBlank text, depth with
  | '\x7b' :: rest, depth + 1 =>
    closing objectEnd do
      let ((tag, entries), rest) ← members (nodeMember depth) (none, []) rest
      match tag with
      | some k => return ((k, .named entries.reverse), rest)
      | none => throw (.refused (.missingField "kind") rest)
  | '[' :: rest, depth + 1 =>
    closing listEnd do
      let (more, rest) ← nextElement true rest
      if more then
        let (k, rest) ← kind rest
        let (items, rest) ← elements (value depth) false rest
        return ((k, .listed items), rest)
      else throw (.refused (.missingField "kind") rest)
  | '\x7b' :: rest, 0 => .error (within .tooDeep ('\x7b' :: rest))
  | '[' :: rest, 0 => .error (within .tooDeep ('[' :: rest))
  | rest, _ => .error (unexpected "internally tagged enum Node" rest)

/-- Reads a node. -/
def node (depth : Nat) : Reader Node := fun text => do
  let ((kind, fields), rest) ← tagged depth text
  match nodeOf kind fields with
  | .ok n => return (n, rest)
  | .error m => throw (.refused m rest)

/-- Nodes by the paths they were given with; of two with one path the later counts. -/
abbrev Nodes := Std.ExtTreeMap String Node

/-- Reads one member of the object that maps paths to nodes from the colon on. -/
def nodesMember (depth : Nat) (found : Nodes) (path : String) : Reader Nodes := fun rest => do
  let (_, rest) ← colon rest
  let (n, rest) ← node depth rest
  return (found.insert path n, rest)

/-- Reads the object that maps paths to nodes. -/
def nodes (depth : Nat) : Reader Nodes := fun text =>
  match skipBlank text, depth with
  | [], _ => .error (within .endInValue [])
  | '\x7b' :: rest, depth + 1 =>
    closing objectEnd <| members (nodesMember depth) ∅ rest
  | '\x7b' :: rest, 0 => .error (within .tooDeep ('\x7b' :: rest))
  | rest, _ => .error (unexpected "a map" rest)

/-- Reads one member of a snapshot from the colon on. Only `nodes` counts, which it has once. -/
def snapshotMember (found : Option Nodes) (name : String) : Reader (Option Nodes) := fun rest => do
  if name = "nodes" then
    if found.isSome then throw (.refused (.duplicateField "nodes") rest)
    let (_, rest) ← colon rest
    let (n, rest) ← nodes (maxDepth - 1) rest
    return (some n, rest)
  else
    let (_, rest) ← colon rest
    let (_, rest) ← skip rest
    return (found, rest)

/-- Reads a snapshot from its first character on. -/
def snapshot : Reader Nodes := fun text =>
  match skipBlank text with
  | '\x7b' :: rest =>
    closing objectEnd do
      let (found, rest) ← members snapshotMember none rest
      match found with
      | some n => return (n, rest)
      | none => throw (.refused (.missingField "nodes") rest)
  | '[' :: rest =>
    closing listEnd do
      let (more, rest) ← nextElement true rest
      if more then nodes (maxDepth - 1) rest
      else throw (.refused (.length 0 "struct FsSnapshot with 1 element") rest)
  | rest => .error (unexpected "struct FsSnapshot" rest)

/-- Reads a whole text. -/
def nodesOf (text : List Char) : Except Failure Nodes := do
  let (n, rest) ← snapshot text
  match skipBlank rest with
  | [] => return n
  | rest => throw (within .trailingCharacters rest)

/-- The tree of a snapshot. -/
def read (text : String) : Except Fault Tree :=
  match nodesOf text.toList with
  | .ok n => .ok (Tree.ofEntries n.toList)
  | .error e => .error (e.place text.toList)

end Hostcall.Snapshot
