import Hostcall.Machine.Perform

/-!
# Descriptors

What becomes of the entries of the descriptor table. Moving a position changes the entry of its
descriptor only. A table is `Tidy` if no key that waits to be handed out again has an entry, and
then a new entry takes no other's place (`get?_insert`).
-/

namespace Hostcall

namespace SlotTable

variable {α : Type} {t : SlotTable α} {key : Nat}

/-- A key that is taken lies within the slots. -/
theorem lt_length_of_get? {a : α} (h : t.get? key = some a) : key < t.slots.length := by
  apply Decidable.byContradiction
  intro past
  simp [get?, List.getElem?_eq_none (Nat.not_lt.1 past)] at h

theorem update_update (t : SlotTable α) (key : Nat) (a b : α) :
    (t.update key a).update key b = t.update key b := by
  cases h : t.get? key with
  | none => simp [update, h]
  | some old =>
    have again : ((t.update key a).get? key).isSome := by
      rw [get?_update, if_pos rfl, h]
      rfl
    rw [update, if_pos again]
    simp [update, h]

/-- No key that was given back has an entry, and none was given back twice. -/
structure Tidy (t : SlotTable α) : Prop where
  empty : ∀ key ∈ t.vacant, t.get? key = none
  nodup : t.vacant.Nodup

/-- A table made of a list has no vacant slot. -/
theorem tidy_ofList (entries : List α) : (ofList entries).Tidy :=
  ⟨fun _ h => absurd h List.not_mem_nil, List.nodup_nil⟩

theorem vacant_update (t : SlotTable α) (key : Nat) (a : α) :
    (t.update key a).vacant = t.vacant := by
  unfold update
  split <;> rfl

/-- An update gives no slot back. -/
theorem Tidy.update (tidy : t.Tidy) (key : Nat) (a : α) : (t.update key a).Tidy := by
  constructor
  · intro other h
    rw [vacant_update] at h
    rw [get?_update, tidy.empty other h]
    split <;> rfl
  · rw [vacant_update]
    exact tidy.nodup

theorem vacant_erase {a : α} (h : t.get? key = some a) :
    (t.erase key).vacant = key :: t.vacant := by
  simp [erase, h]

/-- Closing puts the slot among the vacant, where it was not before. -/
theorem Tidy.erase (tidy : t.Tidy) (key : Nat) : (t.erase key).Tidy := by
  cases hkey : t.get? key with
  | none => simpa [SlotTable.erase, hkey] using tidy
  | some a =>
    have vacant := vacant_erase hkey
    constructor
    · intro other h
      rw [get?_erase]
      split
      · rfl
      · rename_i different
        rw [vacant] at h
        exact tidy.empty other ((List.mem_cons.1 h).resolve_left (Ne.symm different))
    · rw [vacant, List.nodup_cons]
      refine ⟨?_, tidy.nodup⟩
      intro h
      simp [tidy.empty key h] at hkey

/-- An entry stays when another is added. -/
theorem get?_insert {a b : α} (tidy : t.Tidy) (h : t.get? key = some b) :
    (t.insert a).2.get? key = some b := by
  unfold insert
  split
  · rename_i free vacant hvacant
    have different : free ≠ key := by
      rintro rfl
      rw [tidy.empty free (hvacant ▸ List.mem_cons_self)] at h
      contradiction
    simpa [get?, List.getElem?_set, different] using h
  · simp only [get?, List.getElem?_append_left (lt_length_of_get? h)]
    exact h

/-- Opening takes a vacant slot out of them, or adds one at the end. -/
theorem Tidy.insert (tidy : t.Tidy) (a : α) : (t.insert a).2.Tidy := by
  unfold SlotTable.insert
  split
  · rename_i free vacant hvacant
    have hnodup := tidy.nodup
    rw [hvacant, List.nodup_cons] at hnodup
    constructor
    · intro other h
      have different : free ≠ other := by
        rintro rfl
        exact hnodup.1 h
      simpa [get?, List.getElem?_set, different] using
        tidy.empty other (hvacant ▸ List.mem_cons_of_mem _ h)
    · exact hnodup.2
  · exact ⟨fun _ h => absurd h List.not_mem_nil, List.nodup_nil⟩

end SlotTable

namespace Machine

variable {m : Machine} {fd other : Fd} {file : OpenFile} {path : String} {position : Nat}
  {flags : OpenFlags}

@[simp] theorem movedTo_tree : (m.movedTo fd path position flags).tree = m.tree := rfl

/-- A number is open when it is a key that is taken. -/
theorem entry?_eq_some :
    m.entry? fd = some file ↔ 0 ≤ fd.number ∧ m.files.get? fd.number.toNat = some file := by
  unfold entry?
  split
  · simp
    omega
  · simp
    omega

/-- One number stands for one entry. -/
theorem same_file {place : String} {reached : Nat} {openFlags : OpenFlags}
    (entry : m.entry? fd = some (.file path position flags))
    (again : m.entry? fd = some (.file place reached openFlags)) :
    path = place ∧ position = reached ∧ flags = openFlags := by
  simpa [entry] using again

/-- A descriptor that is moved stands for the same file at its new position. -/
theorem entry?_movedTo (entry : m.entry? fd = some file) (path : String) (position : Nat)
    (flags : OpenFlags) :
    entry? (m.movedTo fd path position flags) fd = some (.file path position flags) := by
  obtain ⟨valid, h⟩ := entry?_eq_some.1 entry
  refine entry?_eq_some.2 ⟨valid, ?_⟩
  rw [movedTo, SlotTable.get?_update, if_pos rfl, h]
  rfl

theorem toNat_ne (valid : 0 ≤ fd.number) (different : other ≠ fd) (valid' : 0 ≤ other.number) :
    fd.number.toNat ≠ other.number.toNat := by
  intro same
  apply different
  obtain ⟨a⟩ := fd
  obtain ⟨b⟩ := other
  simp only [Fd.mk.injEq] at *
  omega

/-- What is done to the slot of an open descriptor concerns no other. -/
theorem entry?_of_get? {files : SlotTable OpenFile} (entry : m.entry? fd = some file)
    (different : other ≠ fd)
    (h : ∀ key, fd.number.toNat ≠ key → files.get? key = m.files.get? key) :
    entry? { m with files } other = m.entry? other := by
  unfold entry?
  split
  · rfl
  · rename_i valid
    exact h _ (toNat_ne (entry?_eq_some.1 entry).1 different (Int.not_lt.1 valid))

/-- Moving one leaves the others. -/
theorem entry?_movedTo_of_ne (entry : m.entry? fd = some file) (different : other ≠ fd) :
    entry? (m.movedTo fd path position flags) other = m.entry? other := by
  apply entry?_of_get? entry different
  intro key hkey
  rw [SlotTable.get?_update, if_neg hkey]

/-- Closing one leaves the others. -/
theorem entry?_erase_of_ne (entry : m.entry? fd = some file) (different : other ≠ fd) :
    entry? { m with files := m.files.erase fd.number.toNat } other = m.entry? other := by
  apply entry?_of_get? entry different
  intro key hkey
  rw [SlotTable.get?_erase, if_neg hkey]

theorem entry?_erase (entry : m.entry? fd = some file) (other : Fd) :
    entry? { m with files := m.files.erase fd.number.toNat } other =
      if other = fd then none else m.entry? other := by
  split
  · rename_i same
    unfold entry?
    simp only [same, SlotTable.get?_erase, if_true, ite_self]
  · rename_i different
    exact entry?_erase_of_ne entry different

end Machine

end Hostcall
