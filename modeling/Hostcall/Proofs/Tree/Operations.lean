import Hostcall.Proofs.Tree.Proper

/-!
# The operations of a tree as edits

Each operation that succeeds makes one edit, and one that fails makes none. `createDirs` and
`putFile` make several: what they added before they failed stays. On normal paths a tree therefore
stays proper, and canonical, under all of them; loading a snapshot yields a canonical tree
(`canonical_ofEntries`) and brings a canonical one back from its own entries
(`ofEntries_entries`).
-/

namespace Hostcall.Tree

open Hostcall.Path (Normal)

variable {t u : Tree} {path : String} {mode : Mode}

theorem file_eq_ok_iff {data : Contents} :
    t.file path = .ok (data, mode) ↔ t.get? path = some (.file data mode) := by
  unfold file
  cases t.get? path with
  | none => simp
  | some node => cases node <;> simp

/-- What the success of adding a node says. -/
theorem createUnder_eq_ok {parent : Option String} {node : Node}
    (h : t.createUnder parent path node = .ok u) :
    t.contains path = false ∧ (∃ above, parent = some above ∧ t.isDirectory above = true) ∧
      u = t.put path node := by
  unfold createUnder at h
  split at h
  · contradiction
  rename_i habsent
  split at h
  · rename_i mode hparent
    obtain ⟨above, rfl, hdir⟩ := Option.bind_eq_some_iff.1 hparent
    exact ⟨Bool.eq_false_iff.2 habsent, ⟨above, rfl, isDirectory_iff.2 ⟨mode, hdir⟩⟩,
      (Except.ok.inj h).symm⟩
  · contradiction
  · contradiction

/-- To create is an edit. -/
theorem edit_of_create {node : Node} (normal : Normal path) (h : t.create path node = .ok u) :
    Edit t u := by
  obtain ⟨habsent, ⟨above, habove, hdir⟩, rfl⟩ := createUnder_eq_ok h
  exact .add node habsent normal habove hdir

/-- What is emptied was a file, and keeps its mode. -/
theorem truncate_eq_ok (h : t.truncate path = .ok u) :
    ∃ data mode, t.get? path = some (.file data mode) ∧ u = t.put path (.file .empty mode) := by
  cases hf : t.file path with
  | error e => simp [truncate, hf, bind, Except.bind] at h
  | ok found =>
    have hu : t.put path (.file .empty found.2) = u := by
      simpa [truncate, hf, bind, Except.bind, pure, Except.pure] using h
    exact ⟨found.1, found.2, file_eq_ok_iff.1 hf, hu.symm⟩

/-- What is removed was a file. -/
theorem remove_eq_ok (h : t.remove path = .ok u) :
    ∃ data mode, t.get? path = some (.file data mode) ∧ u = t.drop path := by
  cases hf : t.file path with
  | error e => simp [remove, hf, bind, Except.bind] at h
  | ok found =>
    have hu : t.drop path = u := by
      simpa [remove, hf, bind, Except.bind, pure, Except.pure] using h
    exact ⟨found.1, found.2, file_eq_ok_iff.1 hf, hu.symm⟩

/-- To remove a file is an edit. -/
theorem edit_of_remove (h : t.remove path = .ok u) : Edit t u := by
  obtain ⟨data, mode, hfile, rfl⟩ := remove_eq_ok h
  exact .remove hfile

/-- So is writing to one. -/
theorem edit_of_writeAt {position : Nat} {data : Bytes} (h : t.writeAt path position data = .ok u) :
    Edit t u := by
  unfold writeAt at h
  split at h
  · rename_i old mode hfile
    split at h
    · exact Except.ok.inj h ▸ .rewrite _ hfile
    · contradiction
  · contradiction

/-- A directory that is there is not made again. -/
theorem createDirs_of_isDirectory (h : t.isDirectory path = true) :
    t.createDirs path = (.ok (), t) := by
  rw [createDirs, if_pos h]

/-- A step that leaves the tree alone when it fails makes the edits of its success. -/
theorem edits_orSame {x : Except SysError Tree} (h : ∀ u, x = .ok u → Edit t u) :
    Edits t (t.orSame x).2 := by
  cases x with
  | error e => exact .refl
  | ok u => exact .single (h u rfl)

/-- Making directories is a series of edits. -/
theorem edits_createDirs (t : Tree) (path : String) (normal : Normal path) :
    Edits t (t.createDirs path).2 := by
  fun_induction createDirs t path with
  | case1 => exact .refl
  | case2 path node hdir hparent =>
    -- Nothing can be added where there is no parent.
    apply edits_orSame
    intro u hu
    obtain ⟨-, ⟨above, habove, -⟩, -⟩ := createUnder_eq_ok hu
    contradiction
  | case3 path hdir parent hparent e u hrec ih =>
    rw [hrec] at ih
    exact ih (normal.of_parent? hparent)
  | case4 path node hdir parent hparent u hrec ih =>
    rw [hrec] at ih
    have habove := ih (normal.of_parent? hparent)
    apply habove.trans
    apply edits_orSame
    intro v hv
    obtain ⟨habsent, ⟨above, habove, hdir⟩, rfl⟩ := createUnder_eq_ok hv
    exact .add node habsent normal (hparent.trans habove) hdir

/-- What is made sure of is there afterwards. -/
theorem isDirectory_of_createDirs (h : t.createDirs path = (.ok (), u)) :
    u.isDirectory path = true := by
  have of_orSame {s : Tree} {parent : Option String}
      (hs : s.orSame (s.createUnder parent path (.directory Mode.defaultDirectory)) = (.ok (), u)) :
      u.isDirectory path = true := by
    cases hv : s.createUnder parent path (.directory Mode.defaultDirectory) with
    | error e => simp [hv, orSame] at hs
    | ok v =>
      obtain ⟨-, -, rfl⟩ := createUnder_eq_ok hv
      simp only [hv, orSame, Prod.mk.injEq, true_and] at hs
      exact hs ▸ isDirectory_iff.2 ⟨Mode.defaultDirectory, by simp⟩
  rw [createDirs] at h
  split at h
  · rename_i hdir
    exact (Prod.mk.inj h).2 ▸ hdir
  split at h
  · exact of_orSame h
  · split at h
    · simp at h
    · exact of_orSame h

/-- The root is a directory and has no contents, so a file whose contents are replaced has a
parent. -/
theorem edits_putFile (canonical : t.Canonical) (normal : Normal path) (data : Bytes) :
    Edits t (t.putFile path data).2 := by
  by_cases hroot : path = "/"
  · subst hroot
    obtain ⟨mode, hmode⟩ := isDirectory_iff.1 canonical.root
    simp [putFile, hmode]
    exact .refl
  obtain ⟨parent, hparent, hnormal⟩ := normal.parent? hroot
  have hedits := edits_createDirs t parent hnormal
  rcases hdirs : t.createDirs parent with ⟨above, u⟩
  rw [hdirs] at hedits
  cases above with
  | error e => simpa only [putFile, hparent, hdirs] using hedits
  | ok =>
    have hdir := isDirectory_of_createDirs hdirs
    simp only [putFile, hparent, hdirs]
    refine hedits.trans ?_
    split
    · rename_i mode hfile
      exact .single (.rewrite _ hfile)
    · exact .refl
    · rename_i habsent
      exact .single (.add _ (contains_eq_false_iff.2 habsent) normal hparent hdir)

/-- Adds one entry of a snapshot; an empty path names no place. -/
def load (t : Tree) (entry : String × Node) : Tree :=
  match Path.resolve "/" entry.1 with
  | some path => t.put path entry.2
  | none => t

theorem ofEntries_eq (entries : List (String × Node)) :
    ofEntries entries =
      if (entries.foldl load rootOnly).isDirectory "/" then entries.foldl load rootOnly
      else (entries.foldl load rootOnly).put "/" (.directory Mode.defaultDirectory) := rfl

/-- Loading puts nodes at normal paths only. -/
theorem normal_of_contains_foldl_load {entries : List (String × Node)}
    (h : ∀ q, t.contains q = true → Normal q)
    (hpath : (entries.foldl load t).contains path = true) : Normal path := by
  induction entries generalizing t with
  | nil => exact h path hpath
  | cons entry entries ih =>
    apply ih _ hpath
    intro q hq
    unfold load at hq
    split at hq
    · rename_i place hplace
      obtain ⟨node, hnode⟩ := contains_iff.1 hq
      rw [get?_put] at hnode
      split at hnode
      · rename_i e
        exact e ▸ Path.normal_of_resolve hplace
      · exact h q (contains_iff.2 ⟨node, hnode⟩)
    · exact h q hq

/-- Whatever the paths of a snapshot, they are brought to normal form and the root is mended. -/
theorem canonical_ofEntries (entries : List (String × Node)) : (ofEntries entries).Canonical := by
  have hnormal (q : String) (hq : (entries.foldl load rootOnly).contains q = true) : Normal q :=
    normal_of_contains_foldl_load proper_rootOnly.normal hq
  rw [ofEntries_eq]
  split
  · rename_i hroot
    exact ⟨hnormal, hroot⟩
  · constructor
    · intro q hq
      obtain ⟨node, hnode⟩ := contains_iff.1 hq
      rw [get?_put] at hnode
      split at hnode
      · rename_i hroot
        exact hroot ▸ Path.normal_root
      · exact hnormal q (contains_iff.2 ⟨node, hnode⟩)
    · exact isDirectory_iff.2 ⟨Mode.defaultDirectory, by simp⟩

/-- The entries of a map, inserted one after the other over some of its keys, are the map. -/
theorem foldl_insert_toList {m n : Std.ExtTreeMap String Node} (h : ∀ q, q ∈ n → q ∈ m) :
    m.toList.foldl (fun n entry => n.insert entry.1 entry.2) n = m := by
  have hfold := Std.ExtTreeMap.insertMany_list_eq_foldl (t := n) (l := m.toList)
  apply hfold.symm.trans
  apply Std.ExtTreeMap.ext_getElem?
  intro q
  cases hq : m[q]? with
  | some node =>
    exact Std.ExtTreeMap.getElem?_insertMany_list_of_mem Std.ReflCmp.compare_self
      Std.ExtTreeMap.distinct_keys_toList (Std.ExtTreeMap.mem_toList_iff_getElem?_eq_some.2 hq)
  | none =>
    have hm : q ∉ m := by simpa using hq
    have hkeys : (m.toList.map Prod.fst).contains q = false := by
      rw [Std.ExtTreeMap.map_fst_toList_eq_keys]
      simpa using hm
    rw [Std.ExtTreeMap.getElem?_insertMany_list_of_contains_eq_false hkeys]
    simpa using fun hn => hm (h q hn)

/-- Entries at normal paths are loaded where they say. -/
theorem nodes_foldl_load {entries : List (String × Node)} (h : ∀ entry ∈ entries, Normal entry.1)
    (t : Tree) : (entries.foldl load t).nodes =
      entries.foldl (fun n entry => n.insert entry.1 entry.2) t.nodes := by
  induction entries generalizing t with
  | nil => rfl
  | cons entry entries ih =>
    have hload : t.load entry = t.put entry.1 entry.2 := by
      rw [load, Path.resolve_of_normal (h entry List.mem_cons_self)]
    rw [List.foldl_cons, List.foldl_cons, ih fun e he => h e (List.mem_cons_of_mem _ he), hload]
    rfl

theorem normal_of_mem_entries (h : t.Canonical) {entry : String × Node} (he : entry ∈ t.entries) :
    Normal entry.1 :=
  h.normal _ (contains_iff.2 ⟨entry.2, Std.ExtTreeMap.mem_toList_iff_getElem?_eq_some.1 he⟩)

/-- A canonical tree is brought back from its own entries. -/
theorem ofEntries_entries (h : t.Canonical) : ofEntries t.entries = t := by
  have hnodes : (t.entries.foldl load rootOnly).nodes = t.nodes := by
    rw [nodes_foldl_load fun entry => normal_of_mem_entries h]
    apply foldl_insert_toList
    intro q hq
    obtain ⟨mode, hroot⟩ := isDirectory_iff.1 h.root
    obtain rfl : "/" = q := by simpa [rootOnly] using hq
    exact Std.ExtTreeMap.mem_iff_isSome_getElem?.2 (Option.isSome_iff_exists.2 ⟨_, hroot⟩)
  have hfold : t.entries.foldl load rootOnly = t := congrArg Tree.mk hnodes
  rw [ofEntries_eq, hfold, if_pos h.root]

end Hostcall.Tree
