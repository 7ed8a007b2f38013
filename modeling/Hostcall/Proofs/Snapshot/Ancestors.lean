import Hostcall.Proofs.Machine.Failure
import Hostcall.Proofs.Machine.Removed

/-!
# Ancestors in snapshots

A snapshot puts its nodes into a tree one by one and asks for no parent, so the tree is canonical
and need not be proper. What stands at a place is what the last entry that names the place says
(`get?_ofEntries`); the tree is proper if and only if the entries are `Rooted`: above every place
that is named there is the root or a directory of the snapshot (`proper_ofEntries_iff`). A file
without a directory above can be opened and removed, and cannot be created again
(`read_proper_iff`).
-/

namespace Hostcall

namespace Tree

open Hostcall.Path (Normal)

variable {t u : Tree} {entries : List (String × Node)} {path place : String} {node : Node}
  {mode : Mode}

/-- The node that entries give to a place: of those that name it, the last one counts. -/
def lastNamed (entries : List (String × Node)) (place : String) : Option Node :=
  (entries.reverse.find? fun entry => Path.resolve "/" entry.1 == some place).map Prod.snd

/-- Above every place that an entry names there is the root, or a directory among the entries. -/
def Rooted (entries : List (String × Node)) : Prop :=
  ∀ entry ∈ entries, ∀ place parent, Path.resolve "/" entry.1 = some place →
    Path.parent? place = some parent →
    parent = "/" ∨ ∃ mode, lastNamed entries parent = some (.directory mode)

/-- Loading an entry sets the place that its path resolves to. -/
theorem get?_load (t : Tree) (entry : String × Node) (place : String) :
    (t.load entry).get? place =
      if Path.resolve "/" entry.1 = some place then some entry.2 else t.get? place := by
  unfold load
  cases Path.resolve "/" entry.1 with
  | none => simp
  | some path => simp

/-- A later entry for a place goes before an earlier one. -/
theorem lastNamed_cons (entry : String × Node) (entries : List (String × Node)) (place : String) :
    lastNamed (entry :: entries) place =
      (lastNamed entries place).or
        (if Path.resolve "/" entry.1 = some place then some entry.2 else none) := by
  unfold lastNamed
  rw [List.reverse_cons, List.find?_append, Option.map_or]
  by_cases named : Path.resolve "/" entry.1 = some place <;> simp [named]

/-- Loading entries leaves at each place the last that names it. -/
theorem get?_foldl_load (entries : List (String × Node)) (t : Tree) (place : String) :
    (entries.foldl load t).get? place = (lastNamed entries place).or (t.get? place) := by
  induction entries generalizing t with
  | nil => rfl
  | cons entry entries ih =>
    rw [List.foldl_cons, ih, get?_load, lastNamed_cons, Option.or_assoc]
    congr 1
    split <;> rfl

/-- Everywhere but at the root, where there is always a directory, the entries decide. -/
theorem get?_ofEntries (below : place ≠ "/") :
    (ofEntries entries).get? place = lastNamed entries place := by
  have loaded : (entries.foldl load rootOnly).get? place = lastNamed entries place := by
    rw [get?_foldl_load, get?_rootOnly, if_neg (Ne.symm below), Option.or_none]
  rw [ofEntries_eq]
  split
  · exact loaded
  · rw [get?_put, if_neg (Ne.symm below), loaded]

/-- What is found last was among the entries. -/
theorem exists_entry_of_lastNamed (h : lastNamed entries place = some node) :
    ∃ entry ∈ entries, Path.resolve "/" entry.1 = some place := by
  obtain ⟨entry, found, -⟩ := Option.map_eq_some_iff.1 h
  exact ⟨entry, List.mem_reverse.1 (List.mem_of_find?_eq_some found),
    by simpa using List.find?_some found⟩

theorem lastNamed_isSome {entry : String × Node} (he : entry ∈ entries)
    (named : Path.resolve "/" entry.1 = some place) : (lastNamed entries place).isSome := by
  rw [lastNamed, Option.isSome_map, List.find?_isSome]
  exact ⟨entry, List.mem_reverse.2 he, by simp [named]⟩

/-- The directories of a loaded tree are the root and what the entries name so. -/
theorem isDirectory_ofEntries_iff :
    (ofEntries entries).isDirectory place = true ↔
      place = "/" ∨ ∃ mode, lastNamed entries place = some (.directory mode) := by
  by_cases root : place = "/"
  · subst root
    simp [(canonical_ofEntries entries).root]
  · rw [isDirectory_iff, get?_ofEntries root]
    simp [root]

/-- The tree of a snapshot is proper if and only if nothing in the snapshot lacks a directory
above. -/
theorem proper_ofEntries_iff : (ofEntries entries).Proper ↔ Rooted entries := by
  constructor
  · intro proper entry he place parent named above
    have below : place ≠ "/" := by
      rintro rfl
      simp at above
    obtain ⟨node, hnode⟩ := Option.isSome_iff_exists.1 (lastNamed_isSome he named)
    have present : (ofEntries entries).contains place = true :=
      contains_iff.2 ⟨node, (get?_ofEntries below).trans hnode⟩
    obtain ⟨other, hother, directory⟩ := proper.parent place present below
    obtain rfl : parent = other := Option.some.inj (above.symm.trans hother)
    exact isDirectory_ofEntries_iff.1 directory
  · intro rooted
    have canonical := canonical_ofEntries entries
    refine ⟨canonical, ?_⟩
    intro place present below
    obtain ⟨node, hnode⟩ := contains_iff.1 present
    rw [get?_ofEntries below] at hnode
    obtain ⟨entry, he, named⟩ := exists_entry_of_lastNamed hnode
    obtain ⟨parent, above, -⟩ := (canonical.normal place present).parent? below
    exact ⟨parent, above,
      isDirectory_ofEntries_iff.2 (rooted entry he place parent named above)⟩

/-- Something can be created where there is nothing yet and a directory above. -/
theorem exists_createUnder_iff {parent : Option String} :
    (∃ u, t.createUnder parent path node = .ok u) ↔
      t.contains path = false ∧ ∃ above, parent = some above ∧ t.isDirectory above = true := by
  constructor
  · rintro ⟨u, h⟩
    obtain ⟨absent, above, -⟩ := createUnder_eq_ok h
    exact ⟨absent, above⟩
  · rintro ⟨absent, above, rfl, directory⟩
    obtain ⟨mode, hmode⟩ := isDirectory_iff.1 directory
    exact ⟨t.put path node, by simp [createUnder, absent, hmode]⟩

/-- Taking a node away leaves what stands above it. -/
theorem isDirectory_drop_parent {parent : String} (above : Path.parent? path = some parent) :
    (t.drop path).isDirectory parent = t.isDirectory parent := by
  have different : path ≠ parent := by
    rintro rfl
    exact Nat.lt_irrefl _ (Path.length_lt_of_parent? above)
  rw [isDirectory, get?_drop, if_neg different]
  rfl

end Tree

namespace Machine

variable {m : Machine} {name : CString} {path : String} {data : Contents} {flags : OpenFlags}
  {mode : Mode}

/-- A file that a path leads to can be removed. -/
theorem perform_unlink_file (named : m.place name = .ok path)
    (file : m.tree.get? path = some (.file data mode)) :
    m.perform (.unlink name) =
      ((0 : Int), { m.counted (.unlink name) with tree := m.tree.drop path }) := by
  have named : (m.counted (.unlink name)).place name = .ok path := named
  have removed : (m.counted (.unlink name)).tree.remove path = .ok (m.tree.drop path) := by
    show m.tree.remove path = _
    simp [Tree.remove, Tree.file_eq_ok_iff.2 file, bind, Except.bind, pure, Except.pure]
  show (m.counted (.unlink name)).settle ((m.counted (.unlink name)).unlink name) = _
  simp only [unlink, named, removed, bind, Except.bind, pure, Except.pure]
  rfl

/-- With a valid access mode, a path that names a place is opened as the tree allows it. -/
theorem exists_openFile_iff (named : m.place name = .ok path)
    (access : flags.access ≠ ⟨OpenFlags.accessMask⟩) :
    (∃ answer, m.openFile name flags mode = .ok answer) ↔
      ∃ tree, m.openTree path flags mode = .ok tree := by
  simp only [openFile, if_neg access, named, bind, Except.bind]
  cases m.openTree path flags mode with
  | error e => simp
  | ok tree => simp [pure, Except.pure]

/-- Where nothing stands, a file is created if and only if there is a directory above. -/
theorem creates_iff (named : m.place name = .ok path) (absent : m.tree.get? path = none)
    (creates : flags.creates = true) (access : flags.access ≠ ⟨OpenFlags.accessMask⟩) :
    m.TakesEffect (.openFile name flags mode) ↔
      ∃ parent, Path.parent? path = some parent ∧ m.tree.isDirectory parent = true := by
  let counted := m.counted (.openFile name flags mode)
  have absent : counted.tree.get? path = none := absent
  rw [takesEffect_openFile_iff, exists_openFile_iff (m := counted) named access,
    openTree_of_absent absent creates]
  show (∃ tree, m.tree.createUnder (Path.parent? path) path _ = .ok tree) ↔ _
  rw [Tree.exists_createUnder_iff]
  exact and_iff_right (Tree.contains_eq_false_iff.2 absent)

/-- A snapshot that is read is loaded entry by entry. -/
theorem read_eq_ok {text : String} {t : Tree} (h : Snapshot.read text = .ok t) :
    ∃ nodes, Snapshot.nodesOf text.toList = .ok nodes ∧ t = Tree.ofEntries nodes.toList := by
  unfold Snapshot.read at h
  split at h
  · rename_i nodes hnodes
    exact ⟨nodes, hnodes, (Except.ok.inj h).symm⟩
  · contradiction

/-- **Which snapshots are proper trees.** A snapshot that is read gives a canonical tree, which is
proper if and only if the entries are rooted. Every file of it can be removed, and then created
again if and only if there is a directory above; the answer says so where the number of the new
descriptor fits. -/
theorem read_proper_iff {text : String} {t : Tree} (h : Snapshot.read text = .ok t) :
    ∃ nodes, Snapshot.nodesOf text.toList = .ok nodes ∧ t.Canonical ∧
      (t.Proper ↔ Tree.Rooted nodes.toList) ∧
      ∀ (m : Machine) (name : CString) (path : String) (data : Contents) (mode : Mode),
        m.tree = t → m.place name = .ok path → t.get? path = some (.file data mode) →
        (m.perform (.unlink name)).1 = (0 : Int) ∧
        ∀ (flags : OpenFlags) (mode : Mode), flags.creates = true →
          flags.access ≠ ⟨OpenFlags.accessMask⟩ →
          let above := ∃ parent, Path.parent? path = some parent ∧ t.isDirectory parent = true
          ((m.perform (.unlink name)).2.TakesEffect (.openFile name flags mode) ↔ above) ∧
            (m.files.next < CInt.bound →
              (0 ≤ ((m.perform (.unlink name)).2.perform (.openFile name flags mode)).1 ↔
                above)) := by
  obtain ⟨nodes, hnodes, rfl⟩ := read_eq_ok h
  refine ⟨nodes, hnodes, Tree.canonical_ofEntries _, Tree.proper_ofEntries_iff, ?_⟩
  intro m name path data mode htree named file
  rw [← htree] at file ⊢
  rw [perform_unlink_file named file]
  refine ⟨rfl, ?_⟩
  intro flags mode creates access above
  let removed : Machine := { m.counted (.unlink name) with tree := m.tree.drop path }
  have gone : removed.tree.get? path = none := by
    show (m.tree.drop path).get? path = none
    simp
  have effect_iff : removed.TakesEffect (.openFile name flags mode) ↔ above := by
    rw [creates_iff (m := removed) named gone creates access]
    refine exists_congr fun parent => and_congr_right fun upwards => ?_
    show (m.tree.drop path).isDirectory parent = true ↔ _
    rw [Tree.isDirectory_drop_parent upwards]
  refine ⟨effect_iff, fun fits => ?_⟩
  exact (opens_iff (m := removed) fits name flags mode).symm.trans effect_iff

/-- A snapshot of one file without the directory that it is in. -/
def orphanText : String :=
  "\x7b\"nodes\": \x7b\"/a/b\": \x7b\"kind\": \"file\"\x7d\x7d\x7d"

/-- A file whose parent is not in the snapshot is removed for good. -/
theorem read_proper_iff_orphan :
    ∃ t, Snapshot.read orphanText = .ok t ∧ t.get? "/a/b" = some (.file .empty 0o644) ∧
      ¬ t.Proper ∧
      let m := { initial with tree := t }
      let name : CString := ⟨Utf8.encode "/a/b"⟩
      (m.perform (.unlink name)).1 = (0 : Int) ∧
        ¬ 0 ≤ ((m.perform (.unlink name)).2.perform
          (.openFile name (OpenFlags.readWrite ||| OpenFlags.create) 0o644)).1 := by
  have nodes : (Snapshot.read orphanText).toOption.map (fun t => (t.get? "/a/b", t.get? "/a")) =
      some (some (.file .empty 0o644), none) := by decide +kernel
  cases h : Snapshot.read orphanText with
  | error fault => simp [h, Except.toOption] at nodes
  | ok t =>
    obtain ⟨file, absent⟩ : t.get? "/a/b" = some (.file .empty 0o644) ∧ t.get? "/a" = none := by
      simpa [h, Except.toOption] using nodes
    have nothing : ¬ ∃ above, Path.parent? "/a/b" = some above ∧ t.isDirectory above = true := by
      rintro ⟨above, habove, directory⟩
      obtain rfl : "/a" = above := Option.some.inj ((by decide : _ = _).symm.trans habove)
      simp [Tree.isDirectory, absent] at directory
    have named : ({ initial with tree := t } : Machine).place ⟨Utf8.encode "/a/b"⟩ = .ok "/a/b" :=
      place_eq_ok_iff.2 (show Path.resolve "/" _ = _ by decide)
    obtain ⟨-, -, -, -, files⟩ := read_proper_iff h
    obtain ⟨removed, again⟩ := files _ _ _ _ _ rfl named file
    refine ⟨t, rfl, file, ?_, removed, ?_⟩
    · intro proper
      have present : t.contains "/a/b" = true := Tree.contains_iff.2 ⟨_, file⟩
      exact nothing (proper.parent "/a/b" present (by decide))
    · have answer := (again (OpenFlags.readWrite ||| OpenFlags.create) 0o644 (by decide)
        (by decide)).2 (show initial.files.next < CInt.bound by decide)
      rw [answer]
      exact nothing

end Machine

end Hostcall
