import Mathlib.Logic.Relation
import Hostcall.Proofs.Path.Normal
import Hostcall.Tree.Basic

/-!
# Proper trees

The nodes of a tree stand side by side in a map, so nothing in it says that they form a tree. They
do if every path is in normal form, the root is a directory and so is the parent of every other path
(`Tree.Proper`). Without the last condition the tree is canonical: a place has one path, but a node
may be orphaned, as a snapshot may leave it.

An operation takes a tree through edits of three kinds (`Tree.Edit`): a node is added under a
directory, the contents of a file are replaced, or a file is removed. Every edit keeps both
conditions (`Edit.canonical`, `Edit.proper`), because no edit takes a directory away
(`Edit.isDirectory`); each operation on a normal path makes edits and nothing else.
-/

namespace Hostcall.Tree

open Hostcall.Path (Normal)

variable {t u : Tree} {path q : String}

/-- Every path of a tree is in normal form, and the root is a directory. -/
structure Canonical (t : Tree) : Prop where
  normal : ∀ path, t.contains path → Normal path
  root : t.isDirectory "/"

/-- Every path of a tree is in normal form, the root is a directory, and so is the parent of every
other path. -/
structure Proper (t : Tree) : Prop extends Canonical t where
  parent : ∀ path, t.contains path → path ≠ "/" →
    ∃ parent, Path.parent? path = some parent ∧ t.isDirectory parent

/-- One change of a tree. -/
inductive Edit (t : Tree) : Tree → Prop where
  | add {path parent : String} (node : Node) (absent : t.contains path = false)
      (normal : Normal path) (above : Path.parent? path = some parent)
      (directory : t.isDirectory parent) : Edit t (t.put path node)
  | rewrite {path : String} {old : Contents} {mode : Mode} (new : Contents)
      (file : t.get? path = some (.file old mode)) : Edit t (t.put path (.file new mode))
  | remove {path : String} {old : Contents} {mode : Mode}
      (file : t.get? path = some (.file old mode)) : Edit t (t.drop path)

/-- Any number of changes, one after the other. -/
abbrev Edits : Tree → Tree → Prop := Relation.ReflTransGen Edit

theorem contains_iff : t.contains path = true ↔ ∃ node, t.get? path = some node := by
  rw [contains, Option.isSome_iff_exists]

theorem contains_eq_false_iff : t.contains path = false ↔ t.get? path = none := by
  rw [contains, Option.isSome_eq_false_iff, Option.isNone_iff_eq_none]

theorem isDirectory_iff :
    t.isDirectory path = true ↔ ∃ mode, t.get? path = some (.directory mode) := by
  unfold isDirectory
  cases t.get? path with
  | none => simp
  | some node => cases node <;> simp [Node.isDirectory]

/-- No edit takes a directory away. -/
theorem Edit.isDirectory (e : Edit t u) (h : t.isDirectory q = true) : u.isDirectory q = true := by
  obtain ⟨mode, hq⟩ := isDirectory_iff.1 h
  refine isDirectory_iff.2 ⟨mode, ?_⟩
  cases e with
  | add node absent =>
    rw [get?_put, if_neg, hq]
    rintro rfl
    simp [contains_eq_false_iff.1 absent] at hq
  | rewrite new file =>
    rw [get?_put, if_neg, hq]
    rintro rfl
    simp [file] at hq
  | remove file =>
    rw [get?_drop, if_neg, hq]
    rintro rfl
    simp [file] at hq

/-- A path that an edit adds is normal and lies right below a directory. -/
theorem Edit.contains (e : Edit t u) (h : u.contains q = true) : t.contains q = true ∨
    Normal q ∧ ∃ parent, Path.parent? q = some parent ∧ t.isDirectory parent = true := by
  obtain ⟨node, hq⟩ := contains_iff.1 h
  cases e with
  | add new absent normal above directory =>
    rw [get?_put] at hq
    split at hq
    · rename_i hpath
      subst hpath
      exact .inr ⟨normal, _, above, directory⟩
    · exact .inl (contains_iff.2 ⟨node, hq⟩)
  | rewrite new file =>
    rw [get?_put] at hq
    split at hq
    · rename_i hpath
      subst hpath
      exact .inl (contains_iff.2 ⟨_, file⟩)
    · exact .inl (contains_iff.2 ⟨node, hq⟩)
  | remove file =>
    rw [get?_drop] at hq
    split at hq
    · contradiction
    · exact .inl (contains_iff.2 ⟨node, hq⟩)

/-- An edit keeps paths normal. -/
theorem Edit.canonical (e : Edit t u) (h : t.Canonical) : u.Canonical where
  normal path hpath := (e.contains hpath).elim (h.normal path) And.left
  root := e.isDirectory h.root

/-- An edit puts nothing where there is no directory above, and takes away nothing but files. -/
theorem Edit.proper (e : Edit t u) (h : t.Proper) : u.Proper where
  toCanonical := e.canonical h.toCanonical
  parent path hpath hroot := by
    have above : ∃ parent, Path.parent? path = some parent ∧ t.isDirectory parent :=
      (e.contains hpath).elim (fun was => h.parent path was hroot) And.right
    obtain ⟨parent, hparent, hdir⟩ := above
    exact ⟨parent, hparent, e.isDirectory hdir⟩

/-- Directories are never taken away. -/
theorem Edits.isDirectory (e : Edits t u) (h : t.isDirectory q = true) :
    u.isDirectory q = true := by
  induction e with
  | refl => exact h
  | tail _ step ih => exact step.isDirectory ih

theorem Edits.canonical (e : Edits t u) (h : t.Canonical) : u.Canonical := by
  induction e with
  | refl => exact h
  | tail _ step ih => exact step.canonical ih

theorem Edits.proper (e : Edits t u) (h : t.Proper) : u.Proper := by
  induction e with
  | refl => exact h
  | tail _ step ih => exact step.proper ih

/-- Only directories have children. -/
theorem Proper.parent?_ne_of_file (h : t.Proper) {data : Contents} {mode : Mode}
    (file : t.get? path = some (.file data mode)) (child : t.contains q = true) :
    Path.parent? q ≠ some path := by
  intro hparent
  have hroot : q ≠ "/" := by
    rintro rfl
    simp at hparent
  obtain ⟨above, habove, hdir⟩ := h.parent q child hroot
  obtain rfl : path = above := Option.some.inj (hparent.symm.trans habove)
  obtain ⟨other, hother⟩ := isDirectory_iff.1 hdir
  simp [file] at hother

/-- The tree that is the root alone is proper. -/
theorem proper_rootOnly : rootOnly.Proper where
  normal path h := by
    obtain ⟨node, h⟩ := contains_iff.1 h
    rw [get?_rootOnly] at h
    split at h
    · rename_i hroot
      exact hroot ▸ Path.normal_root
    · contradiction
  root := isDirectory_iff.2 ⟨_, get?_rootOnly "/"⟩
  parent path h hroot := by
    obtain ⟨node, h⟩ := contains_iff.1 h
    rw [get?_rootOnly, if_neg (Ne.symm hroot)] at h
    contradiction

end Hostcall.Tree
