/-!
# Slot tables

A table that hands out small numbers as keys. A key that was given back is handed out again before
any new one, the one given back last first.
-/

namespace Hostcall

/-- Entries by key, and the keys given back, the latest first. -/
structure SlotTable (α : Type) where
  slots : List (Option α)
  vacant : List Nat
deriving DecidableEq, Repr

namespace SlotTable

variable {α : Type}

/-- The table that hands out its first keys to given entries. -/
def ofList (entries : List α) : SlotTable α := ⟨entries.map some, []⟩

/-- The entry of a key. -/
def get? (t : SlotTable α) (key : Nat) : Option α := (t.slots[key]?).join

/-- The number of entries. -/
def count (t : SlotTable α) : Nat := t.slots.countP Option.isSome

/-- Adds an entry and gives its key. -/
def insert (t : SlotTable α) (a : α) : Nat × SlotTable α :=
  match t.vacant with
  | key :: vacant => (key, ⟨t.slots.set key (some a), vacant⟩)
  | [] => (t.slots.length, ⟨t.slots ++ [some a], []⟩)

/-- The key of the next new entry. -/
def next (t : SlotTable α) : Nat := t.vacant.headD t.slots.length

/-- Takes the entry of a key away, if there is one. -/
def erase (t : SlotTable α) (key : Nat) : SlotTable α :=
  if (t.get? key).isSome then ⟨t.slots.set key none, key :: t.vacant⟩ else t

/-- Replaces the entry of a key, if there is one. -/
def update (t : SlotTable α) (key : Nat) (a : α) : SlotTable α :=
  if (t.get? key).isSome then { t with slots := t.slots.set key (some a) } else t

/-- The next key is the one that an insertion gives. -/
theorem insert_fst (t : SlotTable α) (a : α) : (t.insert a).1 = t.next := by
  unfold insert next
  split
  · rename_i vacant
    rw [vacant]
    rfl
  · rename_i vacant
    rw [vacant]
    rfl

/-- An insertion always shows: a slot is filled that was vacant, or there is one slot more. -/
theorem insert_ne (t : SlotTable α) (a : α) : (t.insert a).2 ≠ t := by
  intro same
  unfold insert at same
  split at same
  · rename_i key vacant filled
    have shorter := congrArg (List.length ∘ SlotTable.vacant) same
    simp [filled] at shorter
  · have longer := congrArg (List.length ∘ SlotTable.slots) same
    simp at longer

/-- A key that was given back is the next one. -/
theorem next_erase (t : SlotTable α) {key : Nat} (present : (t.get? key).isSome) :
    (t.erase key).next = key := by
  rw [erase, if_pos present]
  rfl

/-- Replacing an entry hands out no key. -/
theorem next_update (t : SlotTable α) (key : Nat) (a : α) : (t.update key a).next = t.next := by
  unfold update
  split
  · simp only [next, List.length_set]
  · rfl

/-- An erased key has no entry, and no other key is concerned. -/
theorem get?_erase (t : SlotTable α) (key other : Nat) :
    (t.erase key).get? other = if key = other then none else t.get? other := by
  unfold erase
  split
  · simp only [get?, List.getElem?_set]
    split
    · split <;> simp_all
    · rfl
  · rename_i h
    split
    · rename_i e
      subst e
      simpa using h
    · rfl

/-- Only a key with an entry gets the new one, and no other key is concerned. -/
theorem get?_update (t : SlotTable α) (key other : Nat) (a : α) :
    (t.update key a).get? other =
      if key = other then (t.get? other).map fun _ => a else t.get? other := by
  unfold update
  split
  · rename_i h
    obtain ⟨b, hb⟩ := Option.isSome_iff_exists.1 h
    have hlen : key < t.slots.length := by
      apply Decidable.byContradiction
      intro hlen
      simp [get?, List.getElem?_eq_none (Nat.le_of_not_lt hlen)] at hb
    split
    · rename_i e
      subst e
      rw [hb]
      simp [get?, hlen]
    · rename_i e
      simp [get?, e]
  · rename_i h
    split
    · rename_i e
      subst e
      simp only [Bool.not_eq_true, Option.isSome_eq_false_iff, Option.isNone_iff_eq_none] at h
      simp [h]
    · rfl

end SlotTable

end Hostcall
