import Hostcall.Proofs.Machine.Removed

/-!
# Where entries of the descriptor table come from

After a call that succeeds, an entry of the descriptor table is an old one, or it is one of a file
whose position a machine can attain (`Succeeded.entry_cases`): a position that a seek may go to, or
one within a file that is there. New entries of streams are never made, so each stream is open under
its own number or not at all (`InPlace.after`).
-/

namespace Hostcall

/-- What a table holds after an insert is the new entry, or was there before. -/
theorem SlotTable.get?_insert_cases {α : Type} {t : SlotTable α} {key : Nat} {a b : α}
    (h : (t.insert a).2.get? key = some b) : b = a ∨ t.get? key = some b := by
  unfold insert at h
  split at h
  · rename_i free vacant hvacant
    simp only [get?, List.getElem?_set] at h ⊢
    split at h
    · split at h
      · exact .inl (Option.some.inj h).symm
      · contradiction
    · exact .inr h
  · simp only [get?, List.getElem?_append] at h ⊢
    split at h
    · exact .inr h
    · rw [List.getElem?_singleton] at h
      split at h
      · exact .inl (Option.some.inj h).symm
      · contradiction

namespace Machine

variable {m n : Machine} {fd : Fd} {file : OpenFile} {path : String} {position : Nat}
  {flags : OpenFlags} {request : Request}

/-- A position that a seek may go to, or one within a file that is there. -/
def Attains (m : Machine) (position : Nat) : Prop :=
  (position : Int) ≤ maxPosition ∨ ∃ path c, m.tree.contents? path = some c ∧ position ≤ c.size

/-- A position within a file fits the word it is answered in. -/
theorem maxFileSize_le_maxPosition : (Tree.maxFileSize : Int) ≤ maxPosition := by decide

/-- Moving a position changes one entry at most. -/
theorem entry?_movedTo_cases {other : Fd} {target : Nat}
    (h : entry? (m.movedTo other path target flags) fd = some file) :
    m.entry? fd = some file ∨ file = .file path target flags := by
  obtain ⟨valid, h⟩ := entry?_eq_some.1 h
  rw [movedTo, SlotTable.get?_update] at h
  split at h
  · obtain ⟨-, -, rfl⟩ := Option.map_eq_some_iff.1 h
    exact .inr rfl
  · exact .inl (entry?_eq_some.2 ⟨valid, h⟩)

/-- Reading stays where it is, or it ends within the file. -/
theorem readAt_within (t : Tree) (path : String) (position count : Nat) :
    t.readAt path position count = [] ∨
      ∃ c, t.contents? path = some c ∧
        position + (t.readAt path position count).length ≤ c.size := by
  unfold Tree.readAt
  cases h : t.contents? path with
  | none => exact .inl rfl
  | some c =>
    simp only [Contents.slice_eq]
    rcases Nat.le_total position c.size with inside | past
    · refine .inr ⟨c, rfl, ?_⟩
      rw [List.length_take, List.length_drop, Contents.length_bytes]
      omega
    · left
      rw [List.drop_eq_nil_of_le (by simpa using past), List.take_nil]

/-- A read moves one descriptor, to a position it can attain. -/
theorem WasRead.entry_cases {count : Nat} {data : Bytes} (read : WasRead m fd count data n)
    {other : Fd} (entry : n.entry? other = some file) :
    m.entry? other = some file ∨
      ∃ path position flags, file = .file path position flags ∧ m.Attains position := by
  cases read with
  | stdin => exact .inl entry
  | @file path position flags moved =>
    rcases readAt_within m.tree path position count with nothing | ⟨c, hc, within⟩
    · rw [nothing, List.length_nil, Nat.add_zero] at entry
      by_cases same : other = fd
      · subst same
        rw [entry?_movedTo moved] at entry
        exact .inl (moved.trans entry)
      · exact .inl ((entry?_movedTo_of_ne moved same).symm.trans entry)
    · refine (entry?_movedTo_cases entry).imp id fun h => ⟨path, _, flags, h, .inr ⟨path, c, hc, within⟩⟩

/-- After a call that succeeds an entry is an old one, or one of a file with a position that can be
attained. -/
theorem Succeeded.entry_cases {reply : request.Reply} (h : Succeeded m request reply n)
    (entry : n.entry? fd = some file) :
    m.entry? fd = some file ∨
      ∃ path position flags, file = .file path position flags ∧ m.Attains position := by
  cases h with
  | write wrote =>
    cases wrote with
    | stalled => exact .inl entry
    | stdout => exact .inl entry
    | stderr => exact .inl entry
    | file moved runs writes written =>
      obtain ⟨old, mode, -, room, rfl⟩ := Tree.writeAt_eq_ok written
      refine (entry?_movedTo_cases entry).imp id fun h => ⟨_, _, _, h, .inl ?_⟩
      exact Int.le_trans (Int.ofNat_le.2 room) maxFileSize_le_maxPosition
  | read read => exact read.entry_cases entry
  | @openFile name flags mode place tree =>
    obtain ⟨valid, h⟩ := entry?_eq_some.1 entry
    rcases SlotTable.get?_insert_cases h with new | old
    · -- A new descriptor starts at position 0.
      exact .inr ⟨place, 0, flags, new, .inl (by decide)⟩
    · exact .inl (entry?_eq_some.2 ⟨valid, old⟩)
  | close =>
    obtain ⟨valid, h⟩ := entry?_eq_some.1 entry
    rw [SlotTable.get?_erase] at h
    split at h
    · contradiction
    · exact .inl (entry?_eq_some.2 ⟨valid, h⟩)
  | lseek moved origin min max =>
    refine (entry?_movedTo_cases entry).imp id fun h => ⟨_, _, _, h, .inl ?_⟩
    rwa [Int.toNat_of_nonneg min]
  | unlink => exact .inl entry
  | mkdir => exact .inl entry
  | chdir => exact .inl entry
  | getcwd => exact .inl entry
  | errno => exact .inl entry
  | strerror => exact .inl entry
  | sleep => exact .inl ((entry?_later m _ fd).symm.trans entry)
  | usleep => exact .inl ((entry?_later m _ fd).symm.trans entry)

/-- An entry after a turn was there before, or stands for a file at a position that can be
attained. -/
theorem entry_cases_turn {turn : Turn} (entry : entry? (m.turn turn) fd = some file) :
    m.entry? fd = some file ∨
      ∃ path position flags, file = .file path position flags ∧ m.Attains position := by
  rcases m.turn_cases turn with ⟨request, reply, succeeded⟩ | kept
  · exact succeeded.entry_cases entry
  · unfold entry? at entry
    rw [kept.files] at entry
    exact .inl entry

/-- The number under which a stream is open from the start; any number will do for a file. -/
def OpenFile.HasPlace (fd : Fd) : OpenFile → Prop
  | .stdin => fd = .stdin
  | .stdout => fd = .stdout
  | .stderr => fd = .stderr
  | .file .. => True

/-- Every stream that is open is open under its own number. -/
def InPlace (m : Machine) : Prop :=
  ∀ fd file, m.entry? fd = some file → OpenFile.HasPlace fd file

/-- The standard streams keep to their numbers in a turn. -/
theorem InPlace.turn (h : m.InPlace) (turn : Turn) : (m.turn turn).InPlace := by
  intro fd file entry
  rcases entry_cases_turn entry with old | ⟨path, position, flags, rfl, -⟩
  · exact h fd file old
  · trivial

/-- So they do in a run. -/
theorem InPlace.after (h : m.InPlace) (turns : List Turn) : (m.after turns).InPlace :=
  after_of_turn (fun _ turn h => h.turn turn) h turns

theorem inPlace_of_build {steps : List SetupStep} {warnings : List LogEntry}
    (h : build steps = .ok (m, warnings)) : m.InPlace := by
  intro fd file entry
  obtain ⟨valid, entry⟩ := entry?_eq_some.1 entry
  rw [files_of_build h] at entry
  have numbered (k : Nat) (hk : fd.number.toNat = k) : fd = ⟨k⟩ := by
    rw [← hk, Int.toNat_of_nonneg valid]
  match hkey : fd.number.toNat with
  | 0 =>
    rw [hkey] at entry
    obtain rfl : .stdin = file := Option.some.inj entry
    exact numbered 0 hkey
  | 1 =>
    rw [hkey] at entry
    obtain rfl : .stdout = file := Option.some.inj entry
    exact numbered 1 hkey
  | 2 =>
    rw [hkey] at entry
    obtain rfl : .stderr = file := Option.some.inj entry
    exact numbered 2 hkey
  | k + 3 =>
    rw [hkey] at entry
    contradiction

end Machine

end Hostcall
