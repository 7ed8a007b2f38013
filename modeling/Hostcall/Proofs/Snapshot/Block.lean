import Hostcall.Proofs.Json.Number
import Hostcall.Snapshot.Printer

/-!
# Reading brackets that were written

Between brackets every item stands on a line of its own, so that what follows an item is a comma or
the end of the line (`Follows`). Readers that get over each item in front of that get over the whole
block: the elements of a list (`elements_inside`), and the members of an object, whose reader goes
from one state to the next (`Steps`, `members_inside`).
-/

namespace Hostcall.Snapshot

open Json

/-- What stands after an item of a block. -/
def Follows (rest : List Char) : Prop := ∃ c more, (c = ',' ∨ c = '\n') ∧ rest = c :: more

/-- What stands after the first item of a block: the items after it, and what the block ends
with. -/
def followers (right : Char) (indent : Nat) (items : List (List Char)) (rest : List Char) :
    List Char :=
  items.flatMap (fun item => ',' :: newline (indent + 2) ++ item) ++
    (newline indent ++ right :: rest)

/-- What stands after the opening bracket of a block. -/
def inside (right : Char) (indent : Nat) (items : List (List Char)) (rest : List Char) :
    List Char :=
  match items with
  | [] => right :: rest
  | item :: items => newline (indent + 2) ++ (item ++ followers right indent items rest)

variable {indent : Nat} {rest : List Char}

theorem block_append (left right : Char) (indent : Nat) (items : List (List Char))
    (rest : List Char) :
    block left right indent items ++ rest = left :: inside right indent items rest := by
  cases items with
  | nil => rfl
  | cons item items => simp [block, inside, followers]

theorem followers_cons (right : Char) (indent : Nat) (item : List Char)
    (items : List (List Char)) (rest : List Char) :
    followers right indent (item :: items) rest =
      ',' :: (newline (indent + 2) ++ (item ++ followers right indent items rest)) := by
  simp [followers]

theorem followers_nil (right : Char) (indent : Nat) (rest : List Char) :
    followers right indent [] rest = newline indent ++ right :: rest := rfl

theorem follows_followers (right : Char) (indent : Nat) (items : List (List Char))
    (rest : List Char) : Follows (followers right indent items rest) := by
  cases items with
  | nil => exact ⟨'\n', _, .inr rfl, rfl⟩
  | cons item items => exact ⟨',', _, .inl rfl, followers_cons ..⟩

theorem endsNumber_of_follows (h : Follows rest) : EndsNumber rest := by
  obtain ⟨c, more, hc, rfl⟩ := h
  intro d hd
  obtain rfl : c = d := Option.some.inj hd
  rcases hc with rfl | rfl <;> decide

theorem skipBlank_newline (indent : Nat) (text : List Char) :
    skipBlank (newline indent ++ text) = skipBlank text := by
  apply skipBlank_append
  intro c hc
  rcases List.mem_cons.1 hc with rfl | hc
  · rfl
  · obtain rfl := List.eq_of_mem_replicate hc
    rfl

theorem length_lt_followers (right : Char) (indent : Nat) (items : List (List Char))
    (rest : List Char) : items.length < (followers right indent items rest).length := by
  induction items with
  | nil =>
    rw [followers_nil, List.length_append, List.length_cons, List.length_nil]
    omega
  | cons item items ih =>
    rw [followers_cons]
    simp only [List.length_cons, List.length_append]
    omega

/-- A block has more characters than items. -/
theorem length_lt_inside (right : Char) (indent : Nat) (items : List (List Char))
    (rest : List Char) : items.length < (inside right indent items rest).length := by
  cases items with
  | nil => simp [inside]
  | cons item items =>
    have := length_lt_followers right indent items rest
    simp only [inside, newline, List.length_cons, List.length_append]
    omega

theorem exists_cons_of_lt {fuel : List Char} {n : Nat} (enough : n < fuel.length) :
    ∃ c more, fuel = c :: more :=
  List.exists_cons_of_length_pos (Nat.lt_of_le_of_lt (Nat.zero_le n) enough)

/-- An item starts in a way that no end of a list does. -/
def StartsItem (text : List Char) : Prop :=
  ∃ c more, text = c :: more ∧ isBlank c = false ∧ c ≠ ']'

section Lists

variable {α β : Type} {item : Reader α} {write : β → List Char} {value : β → α} {items : List β}

/-- Before the first element there is blank only. -/
theorem nextElement_first {text : List Char} (h : StartsItem text) (indent : Nat) :
    nextElement true (newline indent ++ (text ++ rest)) = .ok (true, text ++ rest) := by
  obtain ⟨c, more, rfl, hblank, hend⟩ := h
  rw [nextElement, skipBlank_newline, List.cons_append, skipBlank_of_not_blank hblank]
  split
  · contradiction
  · rename_i e
    exact absurd (List.cons.inj e).1 hend
  · rename_i e
    obtain ⟨rfl, rfl⟩ := List.cons.inj e
    rfl

/-- Before a later one there is a comma and blank. -/
theorem nextElement_later {text : List Char} (h : StartsItem text) (indent : Nat) :
    nextElement false (',' :: (newline indent ++ (text ++ rest))) = .ok (true, text ++ rest) := by
  obtain ⟨c, more, rfl, hblank, hend⟩ := h
  rw [nextElement, skipBlank_of_not_blank rfl]
  split
  · contradiction
  · rename_i e
    exact absurd (List.cons.inj e).1 (by decide)
  · rename_i e
    obtain ⟨rfl, rfl⟩ := List.cons.inj e
    simp only [Bool.false_eq_true, if_false, if_true, skipBlank_newline, List.cons_append,
      skipBlank_of_not_blank hblank]
    split
    · contradiction
    · rename_i e
      exact absurd (List.cons.inj e).1 hend
    · rfl

/-- Elements that are each read back are read back one after the other. -/
theorem elementsFrom_followers (starts : ∀ b ∈ items, StartsItem (write b))
    (reads : ∀ b ∈ items, ∀ rest, Follows rest → item (write b ++ rest) = .ok (value b, rest))
    {fuel : List Char} (enough : items.length < fuel.length) :
    elementsFrom item fuel false (followers ']' indent (items.map write) rest) =
      .ok (items.map value, ']' :: rest) := by
  induction items generalizing fuel with
  | nil =>
    obtain ⟨c, fuel, rfl⟩ := exists_cons_of_lt enough
    have hnext : nextElement false (newline indent ++ ']' :: rest) = .ok (false, ']' :: rest) := by
      rw [nextElement, skipBlank_newline, skipBlank_of_not_blank rfl]
      rfl
    simp only [elementsFrom, List.map_nil, followers_nil, hnext]
    rfl
  | cons b items ih =>
    obtain ⟨c, fuel, rfl⟩ := exists_cons_of_lt enough
    have hlater := ih (fun d hd => starts d (List.mem_cons_of_mem _ hd))
      (fun d hd => reads d (List.mem_cons_of_mem _ hd)) (Nat.lt_of_succ_lt_succ enough)
    simp only [elementsFrom, List.map_cons, followers_cons,
      nextElement_later (starts b List.mem_cons_self), bind, Except.bind, if_true,
      reads b List.mem_cons_self _ (follows_followers ..), hlater]
    rfl

/-- So is a whole block of them. -/
theorem elements_inside (starts : ∀ b ∈ items, StartsItem (write b))
    (reads : ∀ b ∈ items, ∀ rest, Follows rest → item (write b ++ rest) = .ok (value b, rest)) :
    elements item true (inside ']' indent (items.map write) rest) =
      .ok (items.map value, ']' :: rest) := by
  have enough := length_lt_inside ']' indent (items.map write) rest
  rw [elements]
  obtain ⟨c, fuel, hfuel⟩ := exists_cons_of_lt enough
  rw [hfuel] at enough
  rw [hfuel, elementsFrom, ← hfuel]
  cases items with
  | nil => rfl
  | cons b items =>
    have hlater : elementsFrom item fuel false (followers ']' indent (items.map write) rest) =
        .ok (items.map value, ']' :: rest) :=
      elementsFrom_followers (fun d hd => starts d (List.mem_cons_of_mem _ hd))
        (fun d hd => reads d (List.mem_cons_of_mem _ hd)) (by simpa using enough)
    simp only [inside, List.map_cons, nextElement_first (starts b List.mem_cons_self), bind,
      Except.bind, if_true, reads b List.mem_cons_self _ (follows_followers ..), hlater]
    rfl

end Lists

/-- A reader of members that gets from one state to another over given fields. -/
inductive Steps {σ : Type} (step : σ → String → Reader σ) :
    σ → List (String × List Char) → σ → Prop where
  | nil (s : σ) : Steps step s [] s
  | cons {s t u : σ} {name : String} {text : List Char} {fields : List (String × List Char)}
      (reads : ∀ rest, Follows rest → step s name (':' :: ' ' :: (text ++ rest)) = .ok (t, rest))
      (later : Steps step t fields u) : Steps step s ((name, text) :: fields) u

section Objects

variable {σ : Type} {step : σ → String → Reader σ} {s u : σ} {fields : List (String × List Char)}

/-- The text of a field with its name. -/
def fieldText (f : String × List Char) : List Char := field f.1 f.2

/-- The key of a field is read up to its colon. -/
theorem key_fieldText (f : String × List Char) (rest : List Char) :
    key (fieldText f ++ rest) = .ok (some f.1, ':' :: ' ' :: (f.2 ++ rest)) := by
  have htext : fieldText f ++ rest =
      '"' :: (f.1.toList.flatMap quoteChar ++ '"' :: ':' :: ' ' :: (f.2 ++ rest)) := by
    simp [fieldText, field, quote]
  rw [htext, key]
  simp only [string_quote]
  rfl

theorem nextKey_first (f : String × List Char) (indent : Nat) (rest : List Char) :
    nextKey true (newline indent ++ (fieldText f ++ rest)) =
      .ok (some f.1, ':' :: ' ' :: (f.2 ++ rest)) := by
  rw [← key_fieldText, nextKey, skipBlank_newline]
  rfl

theorem nextKey_later (f : String × List Char) (indent : Nat) (rest : List Char) :
    nextKey false (',' :: (newline indent ++ (fieldText f ++ rest))) =
      .ok (some f.1, ':' :: ' ' :: (f.2 ++ rest)) := by
  rw [← key_fieldText, nextKey, skipBlank_of_not_blank rfl]
  split
  · contradiction
  · rename_i e
    exact absurd (List.cons.inj e).1 (by decide)
  · rename_i e
    obtain ⟨rfl, rfl⟩ := List.cons.inj e
    simp only [Bool.false_eq_true, if_false, if_true, skipBlank_newline]
    rfl

/-- Fields are taken one after the other, as the steps say. -/
theorem membersFrom_followers (h : Steps step s fields u) {fuel : List Char}
    (enough : fields.length < fuel.length) :
    membersFrom step fuel false s (followers '\x7d' indent (fields.map fieldText) rest) =
      .ok (u, '\x7d' :: rest) := by
  induction h generalizing fuel with
  | nil s =>
    obtain ⟨c, fuel, rfl⟩ := exists_cons_of_lt enough
    have hnext : nextKey false (newline indent ++ '\x7d' :: rest) = .ok (none, '\x7d' :: rest) := by
      rw [nextKey, skipBlank_newline, skipBlank_of_not_blank rfl]
      rfl
    simp only [membersFrom, List.map_nil, followers_nil, hnext]
    rfl
  | cons reads later ih =>
    obtain ⟨c, fuel, rfl⟩ := exists_cons_of_lt enough
    have hlater := ih (Nat.lt_of_succ_lt_succ enough)
    simp only [membersFrom, List.map_cons, followers_cons, nextKey_later, bind, Except.bind,
      reads _ (follows_followers ..), hlater]

/-- So is a whole block of them. -/
theorem members_inside (h : Steps step s fields u) :
    members step s (inside '\x7d' indent (fields.map fieldText) rest) =
      .ok (u, '\x7d' :: rest) := by
  have enough := length_lt_inside '\x7d' indent (fields.map fieldText) rest
  rw [members]
  obtain ⟨c, fuel, hfuel⟩ := exists_cons_of_lt enough
  rw [hfuel] at enough
  rw [hfuel, membersFrom, ← hfuel]
  cases h with
  | nil s => rfl
  | @cons _ t _ _ _ fields reads later =>
    have hlater : membersFrom step fuel false t
        (followers '\x7d' indent (fields.map fieldText) rest) = .ok (u, '\x7d' :: rest) :=
      membersFrom_followers later (by simpa using enough)
    simp only [inside, List.map_cons, nextKey_first, bind, Except.bind,
      reads _ (follows_followers ..), hlater]

end Objects

@[simp] theorem listEnd_bracket (rest : List Char) : listEnd (']' :: rest) = (none, rest) := rfl

@[simp] theorem objectEnd_bracket (rest : List Char) : objectEnd ('\x7d' :: rest) = (none, rest) :=
  rfl

end Hostcall.Snapshot
