import Hostcall.Proofs.Machine.Descriptor

/-!
# Keys that are handed out again

A slot table is sound when the keys that wait to be handed out again are those of its empty slots,
each of them once (`Sound`): none of them has an entry or waits twice, each has a slot, and together
with the entries they are as many as the slots. Then a new entry comes to a key that was free and to
no other (`Sound.get?_insert`), and a slot is added only where all slots are taken
(`Sound.length_insert`), so a table is never longer than it was full.
-/

namespace Hostcall.SlotTable

variable {α : Type} {t : SlotTable α} {key : Nat} {a : α}

@[simp] theorem length_update (t : SlotTable α) (key : Nat) (a : α) :
    (t.update key a).slots.length = t.slots.length := by
  unfold update
  split <;> simp

@[simp] theorem length_erase (t : SlotTable α) (key : Nat) :
    (t.erase key).slots.length = t.slots.length := by
  unfold erase
  split <;> simp

/-- An insert takes no slot away. -/
theorem length_le_insert (t : SlotTable α) (a : α) :
    t.slots.length ≤ (t.insert a).2.slots.length := by
  unfold insert
  split <;> simp

/-- Every key that was given back has a slot. -/
def Compact (t : SlotTable α) : Prop := ∀ key ∈ t.vacant, key < t.slots.length

theorem Compact.update (compact : t.Compact) (key : Nat) (a : α) : (t.update key a).Compact := by
  intro other h
  rw [vacant_update] at h
  rw [length_update]
  exact compact other h

/-- The key that is given back had a slot. -/
theorem Compact.erase (compact : t.Compact) (key : Nat) : (t.erase key).Compact := by
  intro other h
  rw [length_erase]
  unfold SlotTable.erase at h
  split at h
  · rename_i taken
    rcases List.mem_cons.1 h with rfl | h
    · obtain ⟨a, ha⟩ := Option.isSome_iff_exists.1 taken
      exact lt_length_of_get? ha
    · exact compact other h
  · exact compact other h

/-- Keys that stay vacant keep their slots. -/
theorem Compact.insert (compact : t.Compact) (a : α) : (t.insert a).2.Compact := by
  have grown := t.length_le_insert a
  intro other h
  apply Nat.lt_of_lt_of_le (compact other _) grown
  unfold SlotTable.insert at h
  split at h
  · rename_i free vacant hvacant
    exact hvacant ▸ List.mem_cons_of_mem free h
  · contradiction

theorem count_le_length (t : SlotTable α) : t.count ≤ t.slots.length := List.countP_le_length

theorem get?_of_lt (inside : key < t.slots.length) : t.get? key = t.slots[key] := by
  rw [get?, List.getElem?_eq_getElem inside]
  rfl

/-- A slot counts if it has an entry, the old one before and the new one after. -/
theorem countP_set (inside : key < t.slots.length) (entry : Option α) :
    (t.slots.set key entry).countP Option.isSome + (t.get? key).isSome.toNat =
      t.count + entry.isSome.toNat := by
  have counts : t.slots[key].isSome = true → 0 < t.slots.countP Option.isSome :=
    fun taken => List.countP_pos_iff.2 ⟨_, List.getElem_mem inside, taken⟩
  rw [List.countP_set inside, get?_of_lt inside, count]
  cases held : t.slots[key] with
  | none => cases entry <;> simp
  | some old =>
    have positive := counts (held ▸ rfl)
    cases entry <;> simp <;> omega

/-- An update neither opens nor closes. -/
theorem count_update (t : SlotTable α) (key : Nat) (a : α) : (t.update key a).count = t.count := by
  unfold update
  split
  · rename_i taken
    obtain ⟨old, entry⟩ := Option.isSome_iff_exists.1 taken
    have counted := countP_set (lt_length_of_get? entry) (some a)
    rw [taken] at counted
    exact Nat.add_right_cancel counted
  · rfl

/-- Closing takes one entry out. -/
theorem count_erase (entry : t.get? key = some a) : (t.erase key).count + 1 = t.count := by
  have counted := countP_set (lt_length_of_get? entry) none
  rw [entry] at counted
  rw [erase, entry]
  exact counted

/-- The keys that wait to be handed out again are those of the empty slots, each once. -/
structure Sound (t : SlotTable α) : Prop extends Tidy t where
  compact : t.Compact
  balanced : t.count + t.vacant.length = t.slots.length

/-- A table made of a list is sound. -/
theorem sound_ofList (entries : List α) : (ofList entries).Sound where
  toTidy := tidy_ofList entries
  compact := fun _ h => absurd h List.not_mem_nil
  balanced := by simp [ofList, count, List.countP_map, Function.comp_def]

theorem Sound.update (sound : t.Sound) (key : Nat) (a : α) : (t.update key a).Sound where
  toTidy := sound.toTidy.update key a
  compact := sound.compact.update key a
  balanced := by rw [count_update, vacant_update, length_update, sound.balanced]

theorem Sound.erase (sound : t.Sound) (key : Nat) : (t.erase key).Sound where
  toTidy := sound.toTidy.erase key
  compact := sound.compact.erase key
  balanced := by
    rw [length_erase, ← sound.balanced]
    cases entry : t.get? key with
    | none => simp [SlotTable.erase, entry]
    | some a =>
      have counted := count_erase entry
      rw [vacant_erase entry, List.length_cons]
      omega

/-- A new entry comes to a key without one. -/
theorem Sound.get?_key (sound : t.Sound) (a : α) : t.get? (t.insert a).1 = none := by
  unfold SlotTable.insert
  split
  · rename_i free vacant hvacant
    exact sound.empty free (hvacant ▸ List.mem_cons_self)
  · simp [SlotTable.get?]

/-- An insert adds its entry under the new key and leaves the others. -/
theorem Sound.get?_insert (sound : t.Sound) (a : α) (key : Nat) :
    (t.insert a).2.get? key = if key = (t.insert a).1 then some a else t.get? key := by
  unfold SlotTable.insert
  split
  · rename_i free vacant hvacant
    have inside : free < t.slots.length := sound.compact free (hvacant ▸ List.mem_cons_self)
    simp only [SlotTable.get?, List.getElem?_set, inside, if_true]
    split
    · rename_i same
      rw [if_pos same.symm]
      rfl
    · rename_i different
      rw [if_neg (Ne.symm different)]
  · simp only [SlotTable.get?]
    rcases Nat.lt_trichotomy key t.slots.length with inside | same | past
    · rw [List.getElem?_append_left inside, if_neg (Nat.ne_of_lt inside)]
    · rw [same, List.getElem?_concat_length, if_pos rfl]
      rfl
    · rw [if_neg (Nat.ne_of_gt past), List.getElem?_eq_none (by simp; omega),
        List.getElem?_eq_none (Nat.le_of_lt past)]

/-- Opening adds one entry. -/
theorem Sound.count_insert (sound : t.Sound) (a : α) : (t.insert a).2.count = t.count + 1 := by
  unfold SlotTable.insert
  split
  · rename_i free vacant hvacant
    have waiting : free ∈ t.vacant := hvacant ▸ List.mem_cons_self
    have counted := countP_set (sound.compact free waiting) (some a)
    rw [sound.empty free waiting] at counted
    exact counted
  · simp [SlotTable.count]

/-- A slot is added only where all slots are taken. -/
theorem Sound.length_insert (sound : t.Sound) (a : α) :
    (t.insert a).2.slots.length = max t.slots.length (t.count + 1) := by
  have balanced := sound.balanced
  unfold SlotTable.insert
  split
  · rename_i free vacant hvacant
    rw [hvacant, List.length_cons] at balanced
    rw [List.length_set]
    omega
  · rename_i hvacant
    rw [hvacant, List.length_nil] at balanced
    rw [List.length_append, List.length_singleton]
    omega

theorem Sound.insert (sound : t.Sound) (a : α) : (t.insert a).2.Sound where
  toTidy := sound.toTidy.insert a
  compact := sound.compact.insert a
  balanced := by
    have balanced := sound.balanced
    rw [sound.count_insert, sound.length_insert]
    unfold SlotTable.insert
    split
    · rename_i free vacant hvacant
      rw [hvacant, List.length_cons] at balanced
      dsimp only
      omega
    · rename_i hvacant
      rw [hvacant, List.length_nil] at balanced
      dsimp only [List.length_nil]
      omega

/-- The new key lies within the slots. -/
theorem Sound.key_lt_length (sound : t.Sound) (a : α) :
    (t.insert a).1 < (t.insert a).2.slots.length := by
  apply lt_length_of_get? (a := a)
  rw [sound.get?_insert, if_pos rfl]

end Hostcall.SlotTable
