import Hostcall.Proofs.Snapshot.Block
import Hostcall.Proofs.Tree.Operations
import Hostcall.Snapshot.Reader

/-!
# Snapshots are read back

A node is read back from its text (`node_nodeText`), and so are the nodes of a tree, under the same
paths (`nodesOf_treeText`), whatever characters, bytes and modes they have. Bringing the paths to
normal form changes nothing in a canonical tree, so that such a tree is read back from its snapshot
(`read_render`).
-/

namespace Hostcall.Snapshot

open Json

variable {depth indent : Nat} {rest : List Char}

theorem skipBlank_space (text : List Char) : skipBlank (' ' :: text) = skipBlank text := rfl

theorem value_space (depth : Nat) (text : List Char) :
    value depth (' ' :: text) = value depth text := by
  cases depth <;> simp only [value, valueWith, skipBlank_space]

theorem tagged_space (depth : Nat) (text : List Char) :
    tagged depth (' ' :: text) = tagged depth text := by
  simp only [tagged, skipBlank_space]

theorem nodes_space (depth : Nat) (text : List Char) :
    nodes depth (' ' :: text) = nodes depth text := by
  simp only [nodes, skipBlank_space]

theorem toNat_le_of_mode (mode : Mode) : mode.toNat ≤ maxSignificand := by
  have := mode.toNat_lt
  unfold maxSignificand
  omega

theorem toNat_le_of_byte (b : UInt8) : b.toNat ≤ maxSignificand := by
  have := b.toNat_lt
  unfold maxSignificand
  omega

theorem value_bracket (depth : Nat) (text : List Char) :
    value (depth + 1) ('[' :: text) = closing listEnd do
      let (items, rest) ← elements (value depth) true text
      return (.list items, rest) := rfl

/-- A list of bytes is read back as a list of numbers. -/
theorem value_bytes (depth indent : Nat) (data : Bytes) (rest : List Char) :
    value (depth + 1) (block '[' ']' indent (data.map fun b => digits b.toNat) ++ rest) =
      .ok (.list (data.map fun b => .integer b.toNat), rest) := by
  have hstarts (b : UInt8) : StartsItem (digits b.toNat) := by
    obtain ⟨c, more, htext, hc⟩ := exists_toDigits_eq_cons b.toNat
    exact ⟨c, more, htext, isBlank_of_isDigit hc, ne_of_isDigit hc rfl⟩
  have hreads (b : UInt8) (rest : List Char) (h : Follows rest) :
      value depth (digits b.toNat ++ rest) = .ok (.integer b.toNat, rest) := by
    exact value_digits (toNat_le_of_byte b) (endsNumber_of_follows h) depth
  rw [block_append, value_bracket, elements_inside (fun b _ => hstarts b) (fun b _ => hreads b)]
  rfl

theorem mapM_map_eq {α β ε : Type} {f : β → α} {g : α → Except ε β} (h : ∀ b, g (f b) = .ok b)
    (bs : List β) : (bs.map f).mapM g = .ok bs := by
  induction bs with
  | nil => rfl
  | cons b bs ih =>
    rw [List.map_cons, List.mapM_cons, h, ih]
    rfl

theorem natBelow_integer {bound n : Nat} (h : n < bound) (name : String) :
    natBelow bound name (.integer n) = .ok n := by
  have hn : (0 : Int) ≤ n ∧ (n : Int) < bound := ⟨Int.natCast_nonneg n, Int.ofNat_lt.2 h⟩
  simp only [natBelow, if_pos hn, Int.toNat_natCast]

/-- Bytes are read back from the integers they are written as. -/
theorem bytesOf_bytes (data : Bytes) :
    bytesOf (.list (data.map fun b => .integer b.toNat)) = .ok data := by
  apply mapM_map_eq
  intro b
  have hb : b.toNat < 1 <<< 8 := b.toNat_lt
  rw [natBelow_integer hb]
  exact congrArg Except.ok UInt8.ofNat_toNat

/-- So is a mode. -/
theorem modeOf_integer (mode : Mode) : modeOf (.integer mode.toNat) = .ok mode := by
  have hmode : mode.toNat < 1 <<< 32 := mode.toNat_lt
  rw [modeOf, natBelow_integer hmode]
  exact congrArg Except.ok UInt32.ofNat_toNat

/-- The name of a kind in a snapshot. -/
def Kind.name : Kind → String
  | .file => "file"
  | .directory => "directory"

theorem kind_quote (k : Kind) (rest : List Char) :
    kind (' ' :: (quote k.name ++ rest)) = .ok (k, rest) := by
  have htext : quote k.name ++ rest = '"' :: (k.name.toList.flatMap quoteChar ++ '"' :: rest) := by
    simp [quote]
  rw [htext]
  show (string _ >>= _) = _
  rw [string_quote]
  cases k <;> rfl

theorem colon_space (text : List Char) : colon (':' :: ' ' :: text) = .ok ((), ' ' :: text) := rfl

theorem nodeMember_kind (depth : Nat) (k : Kind) (entries : List (String × Value))
    (rest : List Char) :
    nodeMember depth (none, entries) "kind" (':' :: ' ' :: (quote k.name ++ rest)) =
      .ok ((some k, entries), rest) := by
  simp only [nodeMember, colon_space, kind_quote, if_true, Option.isSome_none, bind, Except.bind,
    pure, Except.pure, Bool.false_eq_true, if_false]

theorem nodeMember_field {text : List Char} {v : Value} {name : String} (k : Option Kind)
    (entries : List (String × Value)) (hname : name ≠ "kind")
    (h : value depth (text ++ rest) = .ok (v, rest)) :
    nodeMember depth (k, entries) name (':' :: ' ' :: (text ++ rest)) =
      .ok ((k, (name, v) :: entries), rest) := by
  simp only [nodeMember, colon_space, value_space, h, if_neg hname, bind, Except.bind, pure,
    Except.pure]

/-- The kind of a node. -/
def kindOf : Node → Kind
  | .file .. => .file
  | .directory _ => .directory

/-- The fields of a node after its kind, as values. -/
def valuesOf : Node → List (String × Value)
  | .file data mode =>
    [("data", .list (data.bytes.map fun b => .integer b.toNat)), ("mode", .integer mode.toNat)]
  | .directory mode => [("mode", .integer mode.toNat)]

/-- The fields of a node, as they are written. -/
def fieldsOf (indent : Nat) : Node → List (String × List Char)
  | .file data mode =>
    [("kind", quote "file"),
      ("data", block '[' ']' (indent + 2) (data.bytes.map fun b => digits b.toNat)),
      ("mode", digits mode.toNat)]
  | .directory mode => [("kind", quote "directory"), ("mode", digits mode.toNat)]

/-- The text of a node is a block of its fields. -/
theorem nodeText_eq (indent : Nat) (n : Node) :
    nodeText indent n = block '\x7b' '\x7d' indent ((fieldsOf indent n).map fieldText) := by
  cases n <;> rfl

theorem take_data {v : Value} {data : Bytes} (h : bytesOf v = .ok data) (mode : Option Mode) :
    Draft.take .file ⟨none, mode⟩ ("data", v) = .ok ⟨some data, mode⟩ := by
  simp [Draft.take, h, bind, Except.bind, pure, Except.pure]

theorem take_mode {v : Value} {mode : Mode} (h : modeOf v = .ok mode) (k : Kind)
    (data : Option Bytes) : Draft.take k ⟨data, none⟩ ("mode", v) = .ok ⟨data, some mode⟩ := by
  simp [Draft.take, h, bind, Except.bind, pure, Except.pure]

theorem nodeOf_file {d m : Value} {data : Bytes} {mode : Mode} (hd : bytesOf d = .ok data)
    (hm : modeOf m = .ok mode) :
    nodeOf .file (.named [("data", d), ("mode", m)]) = .ok (.file (.ofBytes data) mode) := by
  simp only [nodeOf, List.foldlM_cons, List.foldlM_nil, take_data hd, take_mode hm, bind,
    Except.bind, pure, Except.pure, Draft.node, Option.getD_some]

theorem nodeOf_directory {m : Value} {mode : Mode} (hm : modeOf m = .ok mode) :
    nodeOf .directory (.named [("mode", m)]) = .ok (.directory mode) := by
  simp only [nodeOf, List.foldlM_cons, List.foldlM_nil, take_mode hm, bind, Except.bind, pure,
    Except.pure, Draft.node, Option.getD_some]

/-- A node is read back from the values of its fields. -/
theorem nodeOf_valuesOf (n : Node) : nodeOf (kindOf n) (.named (valuesOf n)) = .ok n := by
  cases n with
  | file data mode =>
    have hnode := nodeOf_file (bytesOf_bytes data.bytes) (modeOf_integer mode)
    rwa [Contents.ofBytes_bytes] at hnode
  | directory mode => exact nodeOf_directory (modeOf_integer mode)

/-- Its fields are taken in the order they are written in. -/
theorem steps_fieldsOf (depth indent : Nat) (n : Node) :
    Steps (nodeMember (depth + 1)) (none, []) (fieldsOf indent n)
      (some (kindOf n), (valuesOf n).reverse) := by
  have mode (k : Kind) (entries : List (String × Value)) (mode : Mode) :
      Steps (nodeMember (depth + 1)) (some k, entries) [("mode", digits mode.toNat)]
        (some k, ("mode", .integer mode.toNat) :: entries) := by
    apply Steps.cons _ (.nil _)
    intro rest hrest
    apply nodeMember_field _ _ (by decide)
    exact value_digits (toNat_le_of_mode mode) (endsNumber_of_follows hrest) _
  cases n with
  | file data m =>
    have hkind (rest : List Char) (_ : Follows rest) := nodeMember_kind (depth + 1) .file [] rest
    apply Steps.cons hkind
    apply Steps.cons _ (mode .file _ m)
    intro rest _
    apply nodeMember_field _ _ (by decide)
    exact value_bytes depth (indent + 2) data.bytes rest
  | directory m =>
    have hkind (rest : List Char) (_ : Follows rest) :=
      nodeMember_kind (depth + 1) .directory [] rest
    exact Steps.cons hkind (mode .directory _ m)

theorem tagged_brace (depth : Nat) (text : List Char) :
    tagged (depth + 1) ('\x7b' :: text) = closing objectEnd (do
      let ((tag, entries), rest) ← members (nodeMember depth) (none, []) text
      match tag with
      | some k => return ((k, .named entries.reverse), rest)
      | none => throw (.refused (.missingField "kind") rest)) := rfl

/-- So the text of a node gives its kind and its values. -/
theorem tagged_nodeText (depth indent : Nat) (n : Node) (rest : List Char) :
    tagged (depth + 2) (nodeText indent n ++ rest) =
      .ok ((kindOf n, .named (valuesOf n)), rest) := by
  rw [nodeText_eq, block_append, tagged_brace, members_inside (steps_fieldsOf depth indent n)]
  simp [closing, bind, Except.bind, pure, Except.pure]

/-- A node is read back from its text. -/
theorem node_nodeText (depth indent : Nat) (n : Node) (rest : List Char) :
    node (depth + 2) (' ' :: (nodeText indent n ++ rest)) = .ok (n, rest) := by
  simp only [node, tagged_space, tagged_nodeText, nodeOf_valuesOf, bind, Except.bind, pure,
    Except.pure]

/-- The entries of a tree are taken in the order they are written in. -/
theorem steps_nodes (depth indent : Nat) (entries : List (String × Node)) (found : Nodes) :
    Steps (nodesMember (depth + 2)) found
      (entries.map fun entry => (entry.1, nodeText indent entry.2))
      (entries.foldl (fun found entry => found.insert entry.1 entry.2) found) := by
  induction entries generalizing found with
  | nil => exact .nil found
  | cons entry entries ih =>
    apply Steps.cons _ (ih _)
    intro rest _
    simp only [nodesMember, colon_space, node_nodeText, bind, Except.bind, pure, Except.pure]

theorem nodes_brace (depth : Nat) (text : List Char) :
    nodes (depth + 1) ('\x7b' :: text) =
      closing objectEnd (members (nodesMember depth) ∅ text) := rfl

/-- The fields of a snapshot, as they are written. -/
def placesOf (t : Tree) : List (String × List Char) :=
  t.entries.map fun entry => (entry.1, nodeText 4 entry.2)

/-- The text of a tree is a block with one field, the block of its nodes. -/
theorem treeText_eq (t : Tree) :
    treeText t = block '\x7b' '\x7d' 0 ([("nodes",
      block '\x7b' '\x7d' 2 ((placesOf t).map fieldText))].map fieldText) := by
  rw [placesOf, List.map_map]
  rfl

/-- The nodes of a tree are read back. -/
theorem nodes_places (depth : Nat) (t : Tree) (rest : List Char) :
    nodes (depth + 3) (block '\x7b' '\x7d' 2 ((placesOf t).map fieldText) ++ rest) =
      .ok (t.nodes, rest) := by
  have hnodes : t.entries.foldl (fun found entry => found.insert entry.1 entry.2) ∅ = t.nodes :=
    Tree.foldl_insert_toList (by simp)
  rw [block_append, nodes_brace, placesOf, members_inside (steps_nodes depth 4 t.entries ∅), hnodes]
  rfl

theorem steps_snapshot (t : Tree) : Steps snapshotMember none
    [("nodes", block '\x7b' '\x7d' 2 ((placesOf t).map fieldText))] (some t.nodes) := by
  apply Steps.cons _ (.nil _)
  intro rest _
  have hnodes := nodes_places 123 t rest
  simp only [snapshotMember, colon_space, nodes_space, maxDepth, Nat.reduceSub, hnodes, if_true,
    Option.isSome_none, Bool.false_eq_true, if_false, bind, Except.bind, pure, Except.pure]

theorem snapshot_brace (text : List Char) :
    snapshot ('\x7b' :: text) = closing objectEnd (do
      let (found, rest) ← members snapshotMember none text
      match found with
      | some n => return (n, rest)
      | none => throw (.refused (.missingField "nodes") rest)) := rfl

/-- So is the tree. -/
theorem snapshot_treeText (t : Tree) (rest : List Char) :
    snapshot (treeText t ++ rest) = .ok (t.nodes, rest) := by
  rw [treeText_eq, block_append, snapshot_brace, members_inside (steps_snapshot t)]
  simp [closing, bind, Except.bind, pure, Except.pure]

/-- The nodes of any tree are read back from its snapshot, under the paths they have. -/
theorem nodesOf_treeText (t : Tree) : nodesOf (treeText t) = .ok t.nodes := by
  have hsnapshot := snapshot_treeText t []
  rw [List.append_nil] at hsnapshot
  simp only [nodesOf, hsnapshot, bind, Except.bind]
  rfl

/-- A canonical tree is read back from its snapshot. -/
theorem read_render {t : Tree} (h : t.Canonical) : read (render t) = .ok t := by
  rw [read, render, String.toList_ofList, nodesOf_treeText]
  exact congrArg Except.ok (Tree.ofEntries_entries h)

end Hostcall.Snapshot
