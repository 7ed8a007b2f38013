import Hostcall.Proofs.Snapshot.Ancestors

/-!
# Where a file can be

A file can be put where there is no directory and right below one that there is (`Tree.Admits`). A
file that is there does not count: with it removed or not, creating and replacing come to the same
tree (`Admits.create`). In a proper tree, removing and opening succeed nowhere else
(`Machine.admits_of_unlink`, `Machine.admits_of_openFile`).
-/

namespace Hostcall

namespace Tree

variable {t u : Tree} {path : String} {node : Node}

/-- A file can be put at a path: there is no directory at it, and right above it there is one. -/
structure Admits (t : Tree) (path : String) : Prop where
  free : t.isDirectory path = false
  above : ∃ parent, Path.parent? path = some parent ∧ t.isDirectory parent = true

/-- Dropping what is not there changes nothing. -/
theorem drop_of_absent (absent : t.get? path = none) : t.drop path = t := by
  apply ext_get?
  intro q
  rw [get?_drop]
  split
  · rename_i here
    rw [← here, absent]
  · rfl

/-- Dropping a path before something is put at it is lost work. -/
theorem put_drop (t : Tree) (path : String) (node : Node) :
    (t.drop path).put path node = t.put path node := by
  apply ext_get?
  intro q
  simp only [get?_put, get?_drop]
  split <;> rfl

/-- Where there is no directory, a removal leaves nothing, and it fails if there was nothing. -/
theorem remove_cases (free : t.isDirectory path = false) :
    (t.drop path = t ∧ t.remove path = .error .notFound) ∨ t.remove path = .ok (t.drop path) := by
  cases found : t.get? path with
  | none =>
    refine .inl ⟨drop_of_absent found, ?_⟩
    rw [remove, file, found]
    rfl
  | some node =>
    cases node with
    | directory mode => simp [isDirectory, found, Node.isDirectory] at free
    | file data mode =>
      refine .inr ?_
      rw [remove, file, found]
      rfl

/-- The file itself makes no difference to whether there can be one. -/
theorem Admits.create (h : t.Admits path) (node : Node) :
    (t.drop path).create path node = .ok (t.put path node) := by
  obtain ⟨parent, above, directory⟩ := h.above
  have absent : (t.drop path).contains path = false :=
    contains_eq_false_iff.2 (by rw [get?_drop, if_pos rfl])
  have added : ∃ u, (t.drop path).create path node = .ok u := exists_createUnder_iff.2
    ⟨absent, parent, above, (isDirectory_drop_parent above).trans directory⟩
  obtain ⟨u, added⟩ := added
  obtain ⟨-, -, rfl⟩ := createUnder_eq_ok added
  rw [added, put_drop]

/-- In a proper tree, every file is where a file can be. -/
theorem Proper.admits (proper : t.Proper) {data : Contents} {mode : Mode}
    (file : t.get? path = some (.file data mode)) : t.Admits path := by
  have free : t.isDirectory path = false := by
    rw [isDirectory, file]
    rfl
  refine ⟨free, proper.parent path (contains_iff.2 ⟨_, file⟩) ?_⟩
  rintro rfl
  exact Bool.false_ne_true (free.symm.trans proper.root)

/-- A tree that created something at a path has room for it there. -/
theorem admits_of_create (created : t.create path node = .ok u) : t.Admits path := by
  obtain ⟨absent, above, -⟩ := createUnder_eq_ok created
  refine ⟨?_, above⟩
  rw [isDirectory, contains_eq_false_iff.1 absent]
  rfl

end Tree

namespace Machine

variable {m : Machine} {name : CString} {answer : Nat × Machine}

/-- Where a file can be, an open that creates one succeeds after the removal. -/
theorem openTree_of_drop {t : Tree} {path : String} {flags : OpenFlags} {mode : Mode}
    (admits : t.Admits path) (creates : flags.creates = true) (removed : m.tree = t.drop path) :
    m.openTree path flags mode = .ok (t.put path (.file .empty mode)) := by
  have absent : m.tree.get? path = none := by rw [removed, Tree.get?_drop, if_pos rfl]
  rw [openTree_of_absent absent creates, removed]
  exact admits.create _

/-- The path of a file that was removed stays free to be used again. -/
theorem admits_of_unlink (proper : m.tree.Proper) (unlinked : m.unlink name = .ok answer) :
    ∃ place, m.place name = .ok place ∧ m.tree.Admits place := by
  obtain ⟨place, tree, named, removed, -⟩ := eq_of_unlink unlinked
  obtain ⟨data, mode, file, -⟩ := Tree.remove_eq_ok removed
  exact ⟨place, named, proper.admits file⟩

/-- Only where a file can be is one opened, or created first. -/
theorem admits_of_openFile {flags : OpenFlags} {mode : Mode} (proper : m.tree.Proper)
    (opened : m.openFile name flags mode = .ok answer) :
    ∃ place, m.place name = .ok place ∧ m.tree.Admits place := by
  obtain ⟨-, place, tree, named, opened, -⟩ := eq_of_openFile opened
  refine ⟨place, named, ?_⟩
  rcases openTree_cases opened with ⟨data, mode, file, -⟩ | ⟨-, -, created⟩
  · exact proper.admits file
  · exact Tree.admits_of_create created

end Machine

end Hostcall
