import Mathlib.Data.List.Induction
import Mathlib.Logic.Relation
import Hostcall.Proofs.Path.Normal

/-!
# Ancestors of a path

The ancestors of a text are what one comes to by going from parent to parent (`Path.Above`). There
are finitely many because every one is shorter (`length_lt_of_above`). Those of a normal path have
its first names (`atOrAbove_ofNames_iff`).
-/

namespace Hostcall.Path

variable {path parent q : String}

/-- One path is the parent of another. -/
def IsParent (upper lower : String) : Prop := parent? lower = some upper

/-- One path is another or an ancestor of it. -/
abbrev AtOrAbove : String → String → Prop := Relation.ReflTransGen IsParent

/-- One path is an ancestor of another. -/
abbrev Above : String → String → Prop := Relation.TransGen IsParent

theorem atOrAbove_iff : AtOrAbove q path ↔ q = path ∨ Above q path :=
  Relation.reflTransGen_iff_eq_or_transGen.trans (or_congr_left eq_comm)

/-- The ancestors of a path are its parent and the ancestors of that. -/
theorem above_iff (parents : parent? path = some parent) : Above q path ↔ AtOrAbove q parent := by
  rw [Above, Relation.TransGen.tail'_iff]
  constructor
  · rintro ⟨other, rest, parents'⟩
    obtain rfl : parent = other := Option.some.inj (parents.symm.trans parents')
    exact rest
  · intro rest
    exact ⟨parent, rest, parents⟩

/-- What is at or above the parent is at or above the path. -/
theorem atOrAbove_of_parent (parents : parent? path = some parent) (above : AtOrAbove q parent) :
    AtOrAbove q path :=
  atOrAbove_iff.2 (.inr ((above_iff parents).2 above))

/-- Of the normal paths, only the root has no parent. -/
theorem Normal.eq_root_of_parent? (normal : Normal path) (top : Path.parent? path = none) :
    path = "/" := by
  by_contra below
  obtain ⟨parent, parents, -⟩ := normal.parent? below
  exact Option.some_ne_none parent (parents.symm.trans top)

/-- Nothing is above a path without a parent. -/
theorem not_above_of_parent?_eq_none (top : parent? path = none) : ¬ Above q path := by
  intro above
  obtain ⟨other, -, parents⟩ := Relation.TransGen.tail'_iff.1 above
  exact Option.some_ne_none other (parents.symm.trans top)

/-- What is above a path is shorter, so climbing ends. -/
theorem length_lt_of_above (above : Above q path) : q.length < path.length := by
  induction above with
  | single parents => exact length_lt_of_parent? parents
  | tail _ parents ih => exact Nat.lt_trans ih (length_lt_of_parent? parents)

theorem ne_of_above (above : Above q path) : q ≠ path := by
  rintro rfl
  exact Nat.lt_irrefl _ (length_lt_of_above above)

/-- The ancestors of a normal path, and the path itself, are those along its first names. -/
theorem atOrAbove_ofNames_iff {ns : List (List Char)} (h : ∀ name ∈ ns, IsName name) :
    AtOrAbove q (ofNames ns) ↔ ∃ first, first <+: ns ∧ q = ofNames first := by
  induction ns using List.reverseRecOn with
  | nil =>
    rw [atOrAbove_iff]
    simp [ofNames, not_above_of_parent?_eq_none]
  | append_singleton ns name ih =>
    have parents : parent? (ofNames (ns ++ [name])) = some (ofNames ns) :=
      parent?_ofNames (h name (by simp))
    rw [atOrAbove_iff, above_iff parents, ih fun other ho => h other (by simp [ho])]
    constructor
    · rintro (rfl | ⟨first, hfirst, rfl⟩)
      · exact ⟨_, List.prefix_rfl, rfl⟩
      · exact ⟨first, hfirst.trans (List.prefix_append ..), rfl⟩
    · rintro ⟨first, hfirst, rfl⟩
      rcases List.prefix_concat_iff.1 (by simpa using hfirst) with rfl | hfirst
      · exact .inl (by simp)
      · exact .inr ⟨first, hfirst, rfl⟩

end Hostcall.Path
