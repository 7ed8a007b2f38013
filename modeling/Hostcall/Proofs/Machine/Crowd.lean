import Hostcall.Proofs.Machine.Turns

/-!
# As many descriptors as can be numbered

A file can be opened any number of times, and every time there is a descriptor more
(`after_opens`). So turns lead to a machine on which the keys of the descriptors are all numbers
that an `int` has from zero on (`crowd_crowding`). The next key is cast to a negative number: the
open takes effect, and its answer is that of a failure (`Crowd.perform_openAt`).
-/

namespace Hostcall.Machine

variable {m : Machine} {name : CString} {flags : OpenFlags} {mode : Mode} {path : String}
  {data : Contents} {bits : Mode}

/-- Opening a file that is there once more changes the descriptors and the count. -/
theorem perform_reopen (access : flags.access ≠ ⟨OpenFlags.accessMask⟩)
    (named : m.place name = .ok path) (file : m.tree.get? path = some (.file data bits))
    (shared : (flags.creates && flags.excludes) = false)
    (keeps : (flags.truncates && flags.writes) = false) :
    m.perform (.openFile name flags mode) =
      (CInt.ofNat m.files.next,
        { m.counted (.openFile name flags mode) with
          files := (m.files.insert (.file path 0 flags)).2 }) := by
  have opened : m.openTree path flags mode = .ok m.tree := by
    simp only [openTree, file, shared, keeps, Bool.false_eq_true, if_false]
  exact perform_openFile_of_openTree access named opened

/-- A file that is opened again and again takes a new slot each time where none is vacant, and no
more than that and the counts changes. -/
theorem after_opens (access : flags.access ≠ ⟨OpenFlags.accessMask⟩)
    (named : m.place name = .ok path) (file : m.tree.get? path = some (.file data bits))
    (shared : (flags.creates && flags.excludes) = false)
    (keeps : (flags.truncates && flags.writes) = false) (filled : m.files.vacant = []) (n : Nat) :
    ∃ calls, m.after (List.replicate n (.call (.openFile name flags mode))) =
      { m with
        files := ⟨m.files.slots ++ List.replicate n (some (.file path 0 flags)), []⟩, calls } := by
  induction n generalizing m with
  | zero =>
    refine ⟨m.calls, ?_⟩
    rw [List.replicate_zero, List.replicate_zero, List.append_nil, ← filled]
    rfl
  | succ n ih =>
    let opened : Machine := { m.counted (.openFile name flags mode) with
      files := ⟨m.files.slots ++ [some (.file path 0 flags)], []⟩ }
    have first : m.turn (.call (.openFile name flags mode)) = opened := by
      show (m.perform (.openFile name flags mode)).2 = opened
      rw [perform_reopen access named file shared keeps, SlotTable.insert, filled]
    obtain ⟨calls, same⟩ := ih (m := opened) named file rfl
    refine ⟨calls, ?_⟩
    rw [List.replicate_succ, after_cons, first, same, List.append_assoc, List.singleton_append,
      ← List.replicate_succ]
    rfl

/-- Opens a file for reading and writing, and creates it where there is none. -/
def openAt (path : String) : Request :=
  .openFile ⟨Utf8.encode path⟩ (OpenFlags.readWrite ||| OpenFlags.create) 0o644

/-- What such a descriptor stands for at first. -/
def openedAt (path : String) : OpenFile :=
  .file path 0 (OpenFlags.readWrite ||| OpenFlags.create)

/-- One file was opened until there was a given number of descriptors, and nothing else was done. -/
structure Crowd (m : Machine) (count : Nat) : Prop where
  tree : m.tree = Tree.rootOnly.put "/f" (.file .empty 0o644)
  cwd : m.cwd = "/"
  filled : m.files.vacant = []
  length : m.files.slots.length = count
  stdout : m.entry? .stdout = some .stdout
  stderr : m.entry? .stderr = some .stderr
  runs : m.stalled = false
  flows : m.writeCap = none

/-- The next descriptor of a crowd gets the key after the last. -/
theorem Crowd.next {count : Nat} (crowd : m.Crowd count) : m.files.next = count := by
  rw [SlotTable.next, crowd.filled]
  exact crowd.length

/-- From the start, the first open creates the file and all others find it. -/
theorem crowd_after_opens (n : Nat) :
    (initial.after (.call (openAt "/f") :: List.replicate n (.call (openAt "/f")))).Crowd
      (4 + n) := by
  let opened : Machine := { initial.counted (openAt "/f") with
    tree := Tree.rootOnly.put "/f" (.file .empty 0o644)
    files := (standardFiles.insert (openedAt "/f")).2 }
  have access : (OpenFlags.readWrite ||| OpenFlags.create).access ≠ ⟨OpenFlags.accessMask⟩ := by
    decide
  have named : initial.place ⟨Utf8.encode "/f"⟩ = .ok "/f" := place_eq_ok_iff.2 (by decide)
  have first : initial.turn (.call (openAt "/f")) = opened :=
    congrArg Prod.snd (perform_openFile_of_openTree access named
      (openTree_of_above (m := initial) rfl (by decide) (by decide : _ = some "/") rfl))
  have file : opened.tree.get? "/f" = some (.file .empty 0o644) := rfl
  have again : opened.place ⟨Utf8.encode "/f"⟩ = .ok "/f" := named
  -- After the first open, which creates the file, all opens are alike.
  obtain ⟨calls, same⟩ : ∃ calls, opened.after (List.replicate n (.call (openAt "/f"))) =
      { opened with
        files := ⟨opened.files.slots ++ List.replicate n (some (openedAt "/f")), []⟩, calls } :=
    after_opens access again file (by decide) (by decide) rfl n
  rw [after_cons, first, same]
  refine ⟨rfl, rfl, rfl, ?_, rfl, rfl, rfl, rfl⟩
  show (opened.files.slots ++ List.replicate n (some (openedAt "/f"))).length = 4 + n
  rw [List.length_append, List.length_replicate]
  rfl

/-- **An answer that does not fit.** Where there are as many descriptors as an `int` has numbers from
zero on, the next file is created and its descriptor is there, and the answer is the least number of
an `int`. -/
theorem Crowd.perform_openAt (crowd : m.Crowd CInt.bound) :
    m.perform (openAt "/g") = ((-2147483648 : Int),
      { m.counted (openAt "/g") with
        tree := m.tree.put "/g" (.file .empty 0o644)
        files := (m.files.insert (openedAt "/g")).2 }) := by
  have named : m.place ⟨Utf8.encode "/g"⟩ = .ok "/g" :=
    place_eq_ok_iff.2 (by rw [resolve, crowd.cwd]; decide)
  have absent : m.tree.get? "/g" = none := by rw [crowd.tree]; decide
  have root : m.tree.get? "/" = some (.directory 0o755) := by rw [crowd.tree]; decide
  have opened : m.openTree "/g" (OpenFlags.readWrite ||| OpenFlags.create) 0o644 =
      .ok (m.tree.put "/g" (.file .empty 0o644)) :=
    openTree_of_above absent (by decide) (by decide : _ = some "/") root
  have answer : m.perform (openAt "/g") = _ :=
    perform_openFile_of_openTree (by decide) named opened
  have least : CInt.ofNat m.files.next = -2147483648 := by
    rw [crowd.next]
    decide
  rw [answer, least]
  rfl

/-- Opening one file until there are as many descriptors as an `int` has numbers from zero on. -/
def crowding : List Turn :=
  .call (openAt "/f") :: List.replicate 2147483644 (.call (openAt "/f"))

/-- One descriptor after the other, opened and none closed, makes a crowd of the size of the
bound. -/
theorem crowd_crowding : (initial.after crowding).Crowd CInt.bound := by
  have crowd : (initial.after crowding).Crowd (4 + 2147483644) := crowd_after_opens 2147483644
  have all : 4 + 2147483644 = CInt.bound := by decide
  exact all ▸ crowd

end Hostcall.Machine
