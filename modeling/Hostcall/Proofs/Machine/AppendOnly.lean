import Hostcall.Proofs.Machine.Removed

/-!
# Files that are only appended to

Several descriptors may append to one file, each with a position of its own. As long as nobody
removes the file, empties it on opening, or writes to it through a descriptor that does not append
(`AppendsOnly`), it holds what it held followed by what the writers were told to have written, in
the order of their calls (`appends_in_order`). A write begins at the end that the file has at that
moment, whatever the position of its descriptor, and no other turn touches the file
(`Succeeded.contents`).
-/

namespace Hostcall

/-- Writing at the end is appending. -/
theorem Contents.splice_size (c : Contents) (data : Bytes) :
    c.splice c.size data = c.append data := by
  apply Contents.ext_bytes
  rw [Contents.bytes_splice, Contents.bytes_append, Nat.sub_self, List.replicate_zero,
    List.append_nil, List.take_of_length_le (by simp), List.drop_eq_nil_of_le (by simp),
    List.append_nil]

/-- Whether a descriptor may be written through to a file elsewhere than at its end. -/
def OpenFile.writesOver (path : String) : OpenFile → Bool
  | .file place _ flags => place == path && flags.writes && !flags.appends
  | _ => false

namespace Machine

variable {m n : Machine} {path : String} {c : Contents} {request : Request} {turns : List Turn}

/-- What a call added to a file, by its answer: the bytes taken by a write through a descriptor of
the file. -/
def takenFrom (m : Machine) (path : String) : (request : Request) → request.Reply → Bytes
  | .write fd data, count =>
    match m.entry? fd with
    | some (.file place _ _) => if place = path then data.take count.toNat else []
    | _ => []
  | _, _ => []

/-- What a turn added to a file. -/
def taken (m : Machine) (path : String) : Turn → Bytes
  | .call request => m.takenFrom path request (m.perform request).1
  | _ => []

/-- What turns added to a file, one after the other. -/
def takenBy (path : String) (m : Machine) : List Turn → Bytes
  | [] => []
  | turn :: turns => m.taken path turn ++ (m.turn turn).takenBy path turns

/-- Whether a call, if it takes effect, may do more to a file than add to its end: remove it, empty
it on opening, or write to it through a descriptor that does not append. -/
def Overrides (m : Machine) (path : String) : Request → Prop
  | .unlink name => m.place name = .ok path
  | .openFile name flags _ =>
    m.place name = .ok path ∧ flags.truncates = true ∧ flags.writes = true
  | .write fd _ => (m.entry? fd).any (OpenFile.writesOver path) = true
  | _ => False

/-- Whether a turn is a call that takes effect and overrides a file. -/
def Disturbs (m : Machine) (path : String) : Turn → Prop
  | .call request => m.TakesEffect request ∧ m.Overrides path request
  | _ => False

/-- Turns of which none does more to a file than add to its end. -/
def AppendsOnly (path : String) (m : Machine) : List Turn → Prop
  | [] => True
  | turn :: turns => ¬ m.Disturbs path turn ∧ (m.turn turn).AppendsOnly path turns

@[simp] theorem takenFrom_counted (m : Machine) (counted : Request) (path : String)
    (request : Request) (reply : request.Reply) :
    (m.counted counted).takenFrom path request reply = m.takenFrom path request reply := by
  cases request <;> rfl

@[simp] theorem overrides_counted (m : Machine) (counted : Request) (path : String)
    (request : Request) :
    (m.counted counted).Overrides path request ↔ m.Overrides path request := by
  cases request <;> rfl

/-- Opening leaves the tree alone, empties the file, or adds an empty one where nothing was. -/
theorem openTree_eq_ok {flags : OpenFlags} {mode : Mode} {tree : Tree}
    (opened : m.openTree path flags mode = .ok tree) :
    (∃ data mode, m.tree.get? path = some (.file data mode) ∧
      (tree = m.tree ∨ flags.truncates = true ∧ flags.writes = true ∧
        tree = m.tree.put path (.file .empty mode))) ∨
    m.tree.get? path = none ∧ flags.creates = true ∧ tree = m.tree.put path (.file .empty mode) := by
  rcases openTree_cases opened with ⟨data, bits, file, -, rfl⟩ | ⟨absent, creates, created⟩
  · refine .inl ⟨data, bits, file, ?_⟩
    split
    · rename_i empties
      rw [Bool.and_eq_true] at empties
      exact .inr ⟨empties.1, empties.2, rfl⟩
    · exact .inl rfl
  · obtain ⟨-, -, rfl⟩ := Tree.createUnder_eq_ok created
    exact .inr ⟨absent, creates, rfl⟩

/-- Opening keeps what a file holds, unless it is that file that is opened and emptied. -/
theorem contents_of_openTree {place : String} {flags : OpenFlags} {mode : Mode} {tree : Tree}
    (file : m.tree.contents? path = some c)
    (kept : flags.truncates = true → flags.writes = true → place ≠ path)
    (opened : m.openTree place flags mode = .ok tree) : tree.contents? path = some c := by
  rcases openTree_eq_ok opened with ⟨data, mode, -, rfl | ⟨truncates, writes, rfl⟩⟩ |
    ⟨absent, -, rfl⟩
  · exact file
  · rw [Tree.contents?_put_file, if_neg (kept truncates writes), file]
  · have different : place ≠ path := by
      rintro rfl
      simp [Tree.contents?, absent] at file
    rw [Tree.contents?_put_file, if_neg different, file]

/-- A write that succeeds through an appending descriptor of a file adds what it took to the end, and
one through a descriptor of another file does nothing to it. -/
theorem Wrote.contents {fd : Fd} {data : Bytes} {count : Nat} (wrote : Wrote m fd data count n)
    (file : m.tree.contents? path = some c) (kept : ¬ m.Overrides path (.write fd data)) :
    n.tree.contents? path = some (c.append (m.takenFrom path (.write fd data) (count : Int))) := by
  cases wrote with
  | stalled entry input stall =>
    have nothing : m.takenFrom path (.write fd data) ((0 : Nat) : Int) = [] := by
      simp only [takenFrom]
      split
      · split <;> rfl
      · rfl
    rw [nothing, Contents.append_nil, file]
  | stdout entry runs => simpa [takenFrom, entry] using file
  | stderr entry runs => simpa [takenFrom, entry] using file
  | @file place position flags tree entry runs writes written =>
    obtain ⟨old, mode, found, -, rfl⟩ := Tree.writeAt_eq_ok written
    rw [movedTo_tree, Tree.contents?_put_file]
    by_cases same : place = path
    · subst same
      have appends : flags.appends = true := by
        cases h : flags.appends with
        | true => rfl
        | false => exact absurd (by simp [Overrides, OpenFile.writesOver, entry, writes, h]) kept
      have current : m.tree.contents? place = some old := by simp [Tree.contents?, found]
      obtain rfl : old = c := Option.some.inj (current.symm.trans file)
      have start : m.writeStart place position flags = old.size := by
        simp [writeStart, appends, Tree.endOf, file]
      rw [if_pos rfl, start, Contents.splice_size]
      simp [takenFrom, entry, take_length_capped]
    · rw [if_neg same, file]
      simp [takenFrom, entry, same]

/-- A call that succeeds does no more to a file than a write that adds to its end, unless it
overrides the file. -/
theorem Succeeded.contents {reply : request.Reply} (h : Succeeded m request reply n)
    (file : m.tree.contents? path = some c) (kept : ¬ m.Overrides path request) :
    n.tree.contents? path = some (c.append (m.takenFrom path request reply)) := by
  have untouched {t : Tree} (same : t.contents? path = some c) :
      t.contents? path = some (c.append []) := by
    rwa [Contents.append_nil]
  cases h with
  | write wrote => exact wrote.contents file kept
  | openFile access resolved opened =>
    apply untouched (contents_of_openTree file _ opened)
    rintro truncates writes rfl
    exact kept ⟨resolved, truncates, writes⟩
  | @unlink name place tree resolved removed =>
    obtain ⟨data, mode, -, rfl⟩ := Tree.remove_eq_ok removed
    have different : place ≠ path := by
      rintro rfl
      exact kept resolved
    apply untouched
    rw [Tree.contents?_drop, if_neg different, file]
  | @mkdir name mode place tree resolved created =>
    obtain ⟨absent, -, rfl⟩ := Tree.createUnder_eq_ok created
    have different : place ≠ path := by
      rintro rfl
      simp [Tree.contents?, Tree.contains_eq_false_iff.1 absent] at file
    apply untouched
    rw [Tree.contents?_put_directory, if_neg different, file]
  | read read => cases read <;> exact untouched file
  | close => exact untouched file
  | chdir => exact untouched file
  | getcwd => exact untouched file
  | lseek => exact untouched file
  | errno => exact untouched file
  | strerror => exact untouched file
  | sleep => exact untouched (by rwa [later_tree])
  | usleep => exact untouched (by rwa [later_tree])

/-- A write that fails has taken nothing. -/
theorem takenFrom_of_fails {reply : request.Reply} (fails : request.Fails reply) :
    m.takenFrom path request reply = [] := by
  cases request with
  | write fd data =>
    simp only [takenFrom, take_of_negative data fails, ite_self]
    split <;> rfl
  | _ => rfl

/-- A call that does not override a file appends to it what the call took for it, and nothing
else. -/
theorem contents_perform (file : m.tree.contents? path = some c)
    (kept : m.TakesEffect request → ¬ m.Overrides path request) :
    (m.perform request).2.tree.contents? path =
      some (c.append (m.takenFrom path request (m.perform request).1)) := by
  rcases m.takesEffect_cases request with ⟨-, fails, -, e, he⟩ | ⟨effect, h⟩
  · rw [takenFrom_of_fails fails, Contents.append_nil, he]
    exact file
  · have done := h.contents file (mt (overrides_counted m request path request).1 (kept effect))
    rwa [takenFrom_counted] at done

/-- The same for a turn, a start or an end of a program among them. -/
theorem contents_turn {turn : Turn} (file : m.tree.contents? path = some c)
    (kept : ¬ m.Disturbs path turn) :
    (m.turn turn).tree.contents? path = some (c.append (m.taken path turn)) := by
  cases turn with
  | call request => exact contents_perform file fun effect overrides => kept ⟨effect, overrides⟩
  | stop => exact c.append_nil.symm ▸ file
  | resetCalls => exact c.append_nil.symm ▸ file
  | takeStdout => exact c.append_nil.symm ▸ file
  | takeStderr => exact c.append_nil.symm ▸ file

/-- Hence for any number of turns. -/
theorem contents_after (file : m.tree.contents? path = some c) (kept : m.AppendsOnly path turns) :
    (m.after turns).tree.contents? path = some (c.append (m.takenBy path turns)) := by
  induction turns generalizing m c with
  | nil => exact c.append_nil.symm ▸ file
  | cons turn turns ih =>
    obtain ⟨first, rest⟩ := kept
    have later := ih (contents_turn file first) rest
    rwa [Contents.append_append] at later

/-- A run that only appends does so in each first part. -/
theorem AppendsOnly.of_append {before later : List Turn}
    (kept : m.AppendsOnly path (before ++ later)) : m.AppendsOnly path before := by
  induction before generalizing m with
  | nil => trivial
  | cons turn before ih => exact ⟨kept.1, ih kept.2⟩

/-- A write through an appending descriptor, or to another file, disturbs nothing. -/
theorem not_disturbs_write {fd : Fd} {data : Bytes}
    (appends : (m.entry? fd).any (OpenFile.writesOver path) = false) :
    ¬ m.Disturbs path (.call (.write fd data)) :=
  fun disturbs => Bool.false_ne_true (appends.symm.trans disturbs.2)

/-- **Appending never overwrites.** Whoever appends to a file in whatever order, after every turn
the file holds what it held at first, followed by the bytes that the writes were answered to have
taken. -/
theorem appends_in_order (file : m.tree.contents? path = some c)
    (kept : m.AppendsOnly path turns) (before later : List Turn) (split : turns = before ++ later) :
    ((m.after before).tree.contents? path).map Contents.bytes =
      some (c.bytes ++ m.takenBy path before) := by
  subst split
  rw [contents_after file kept.of_append, Option.map_some, Contents.bytes_append]

/-- Two writers, one with its position at the start, under a cap that cuts the first write. -/
theorem appends_in_order_two_writers :
    let flags := OpenFlags.writeOnly ||| OpenFlags.append
    let m := { initial with writeCap := some 2 }.after
      [.call (.openFile ⟨Utf8.encode "/f"⟩ (flags ||| OpenFlags.create) 0o644),
        .call (.openFile ⟨Utf8.encode "/d/../f"⟩ flags 0)]
    let turns : List Turn := [.call (.write ⟨3⟩ [1, 2, 3]), .call (.write ⟨4⟩ [4]),
      .call (.lseek ⟨3⟩ 0 Whence.start.code), .call (.write ⟨3⟩ [5])]
    m.tree.contents? "/f" = some .empty ∧ m.AppendsOnly "/f" turns ∧
      ((m.after turns).tree.contents? "/f").map Contents.bytes = some [1, 2, 4, 5] := by
  intro flags m turns
  have file : m.tree.contents? "/f" = some .empty := by decide
  have kept : m.AppendsOnly "/f" turns :=
    ⟨not_disturbs_write (by decide), not_disturbs_write (by decide), And.right,
      not_disturbs_write (by decide), trivial⟩
  have taken : m.takenBy "/f" turns = [1, 2, 4, 5] := by decide
  have held := appends_in_order file kept turns [] (List.append_nil _).symm
  rw [taken] at held
  exact ⟨file, kept, held⟩

end Machine

end Hostcall
