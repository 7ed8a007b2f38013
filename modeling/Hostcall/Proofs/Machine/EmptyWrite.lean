import Hostcall.Proofs.Facade.WriteAll
import Hostcall.Proofs.Machine.Pieces
import Hostcall.Proofs.Machine.Turns

/-!
# Writes that take nothing

A write takes nothing where writes stall, under a cap of no bytes, or because there is nothing to
write. Only where writes stall does it always leave the machine alone. Else a write to a file still
fills the gap up to where it begins, and moves the position there; it leaves the files and the
positions alone if and only if it begins at the position and there is no gap
(`write_of_nothing`). A `writeAll` that reports all of its bytes as left is one such write
(`run_writeAll_of_all_left`).
-/

namespace Hostcall.Machine

open Facade (hosted)

variable {m after : Machine} {fd other : Fd} {data : Bytes} {path : String} {position : Nat}
  {flags : OpenFlags} {old : Contents} {mode : Mode}

/-- A write through a descriptor begins nowhere, because writes stall, or it begins at the position
of the descriptor and has no gap before it. -/
def AtRest (m : Machine) (fd : Fd) : Prop :=
  m.stalled = true ∨ ∀ path position flags, m.entry? fd = some (.file path position flags) →
    m.writeStart path position flags = position ∧ position ≤ m.tree.endOf path

/-- The machine in which the gap before a write is filled and the position is where the write
begins. -/
def gapFilled (m : Machine) (fd : Fd) (path : String) (position : Nat) (flags : OpenFlags)
    (old : Contents) (mode : Mode) : Machine :=
  let start := m.writeStart path position flags
  { m with tree := m.tree.put path (.file (old.splice start []) mode) }.movedTo fd path start flags

theorem entry?_gapFilled (entry : m.entry? fd = some (.file path position flags)) :
    entry? (m.gapFilled fd path position flags old mode) fd =
      some (.file path (m.writeStart path position flags) flags) :=
  entry?_movedTo
    (m := { m with
      tree := m.tree.put path (.file (old.splice (m.writeStart path position flags) []) mode) })
    entry _ _ _

theorem entry?_gapFilled_of_ne (entry : m.entry? fd = some (.file path position flags))
    (different : other ≠ fd) :
    entry? (m.gapFilled fd path position flags old mode) other = m.entry? other :=
  entry?_movedTo_of_ne
    (m := { m with
      tree := m.tree.put path (.file (old.splice (m.writeStart path position flags) []) mode) })
    entry different

theorem contents?_gapFilled (q : String) :
    (m.gapFilled fd path position flags old mode).tree.contents? q =
      if path = q then some (old.splice (m.writeStart path position flags) [])
      else m.tree.contents? q :=
  m.tree.contents?_put_file path q _ mode

/-- Writing nothing changes a file exactly when it is written past the end. -/
theorem splice_nil_eq_self_iff {start : Nat} : old.splice start [] = old ↔ start ≤ old.size := by
  constructor
  · intro same
    have := congrArg Contents.size same
    rw [Contents.size_splice, List.length_nil] at this
    omega
  · intro inside
    apply Contents.ext_bytes
    rw [Contents.bytes_splice_nil, Nat.sub_eq_zero_of_le inside, List.replicate_zero,
      List.append_nil]

/-- A write that takes nothing leaves the machine alone, or it is one to a file and fills the
gap. -/
theorem eq_or_gapFilled (h : m.write fd data = .ok (0, after)) :
    (after = m ∧ (m.stalled = true ∨
      ∀ path position flags, m.entry? fd ≠ some (.file path position flags))) ∨
    ∃ path position flags old mode, m.entry? fd = some (.file path position flags) ∧
      m.tree.get? path = some (.file old mode) ∧ m.stalled = false ∧
      after = m.gapFilled fd path position flags old mode := by
  generalize hcount : 0 = count at h
  cases wrote_of_write h with
  | stalled entry input stall => exact .inl ⟨rfl, .inl stall⟩
  | stdout entry runs =>
    have none : m.capped data = [] := List.length_eq_zero_iff.1 hcount.symm
    refine .inl ⟨?_, .inr ?_⟩
    · rw [none, Contents.append_nil]
    · simp [entry]
  | stderr entry runs =>
    have none : m.capped data = [] := List.length_eq_zero_iff.1 hcount.symm
    refine .inl ⟨?_, .inr ?_⟩
    · rw [none, Contents.append_nil]
    · simp [entry]
  | @file path position flags tree entry runs writes written =>
    have none : m.capped data = [] := List.length_eq_zero_iff.1 hcount.symm
    rw [none] at written ⊢
    obtain ⟨old, mode, hfile, -, rfl⟩ := Tree.writeAt_eq_ok written
    exact .inr ⟨path, position, flags, old, mode, entry, hfile, runs, rfl⟩

/-- A descriptor at rest stands where it would write, within the file. -/
theorem atRest_iff (runs : m.stalled = false)
    (entry : m.entry? fd = some (.file path position flags))
    (file : m.tree.get? path = some (.file old mode)) :
    m.AtRest fd ↔ m.writeStart path position flags = position ∧ position ≤ old.size := by
  have hend : m.tree.endOf path = old.size := by simp [Tree.endOf, Tree.contents?, file]
  rw [← hend]
  constructor
  · rintro (stall | still)
    · simp [runs] at stall
    · exact still path position flags entry
  · intro still
    refine .inr ?_
    intro path' position' flags' entry'
    obtain ⟨rfl, rfl, rfl⟩ := same_file entry entry'
    exact still

/-- The gap is filled for good unless there is none. -/
theorem gapFilled_unchanged_iff (runs : m.stalled = false)
    (entry : m.entry? fd = some (.file path position flags))
    (file : m.tree.get? path = some (.file old mode)) :
    ((∀ q, (m.gapFilled fd path position flags old mode).tree.contents? q = m.tree.contents? q) ∧
      ∀ other, entry? (m.gapFilled fd path position flags old mode) other = m.entry? other) ↔
      m.AtRest fd := by
  have hold : m.tree.contents? path = some old := by simp [Tree.contents?, file]
  rw [atRest_iff runs entry file]
  constructor
  · rintro ⟨contents, entries⟩
    have same := contents path
    rw [contents?_gapFilled, if_pos rfl, hold, Option.some.injEq, splice_nil_eq_self_iff] at same
    have begins := entries fd
    rw [entry?_gapFilled entry, entry] at begins
    have begins : m.writeStart path position flags = position := by simpa using begins
    exact ⟨begins, begins ▸ same⟩
  · rintro ⟨begins, inside⟩
    constructor
    · intro q
      rw [contents?_gapFilled, begins, splice_nil_eq_self_iff.2 inside]
      split
      · rename_i same
        rw [← same, hold]
      · rfl
    · intro other
      by_cases same : other = fd
      · rw [same, entry?_gapFilled entry, begins, entry]
      · exact entry?_gapFilled_of_ne entry same

/-- What may be different after a write through a descriptor that took nothing. -/
structure FillsGapOnly (m : Machine) (fd : Fd) (after : Machine) : Prop where
  stdout : after.stdout = m.stdout
  stderr : after.stderr = m.stderr
  others : ∀ other, other ≠ fd → after.entry? other = m.entry? other
  files : ∀ path, (∀ position flags, m.entry? fd ≠ some (.file path position flags)) →
    after.tree.contents? path = m.tree.contents? path
  /-- The position is where the write begins, and zeros have filled the gap up to there. -/
  gap : m.stalled = false → ∀ path position flags,
    m.entry? fd = some (.file path position flags) →
    after.entry? fd = some (.file path (m.writeStart path position flags) flags) ∧
    ∃ old new, m.tree.contents? path = some old ∧ after.tree.contents? path = some new ∧
      new.bytes = old.bytes ++ List.replicate (m.writeStart path position flags - old.size) 0
  unchanged_iff : (∀ path, after.tree.contents? path = m.tree.contents? path) ∧
    (∀ other, after.entry? other = m.entry? other) ↔ m.AtRest fd

/-- A host that stalls, or a number that is no file, changes nothing. -/
theorem fillsGapOnly_self
    (still : m.stalled = true ∨
      ∀ path position flags, m.entry? fd ≠ some (.file path position flags)) :
    FillsGapOnly m fd m where
  stdout := rfl
  stderr := rfl
  others _ _ := rfl
  files _ _ := rfl
  gap runs path position flags entry := by
    rcases still with stall | other
    · simp [runs] at stall
    · exact absurd entry (other path position flags)
  unchanged_iff := by
    constructor
    · intro _
      rcases still with stall | other
      · exact .inl stall
      · exact .inr fun path position flags entry => absurd entry (other path position flags)
    · intro _
      exact ⟨fun _ => rfl, fun _ => rfl⟩

/-- Writing nothing to a file moves the descriptor to where the write starts and fills the gap
before it. -/
theorem fillsGapOnly_gapFilled (runs : m.stalled = false)
    (entry : m.entry? fd = some (.file path position flags))
    (file : m.tree.get? path = some (.file old mode)) :
    FillsGapOnly m fd (m.gapFilled fd path position flags old mode) where
  stdout := rfl
  stderr := rfl
  others _ different := entry?_gapFilled_of_ne entry different
  files q other := by
    have different : path ≠ q := by
      rintro rfl
      exact other position flags entry
    rw [contents?_gapFilled, if_neg different]
  gap _ path' position' flags' entry' := by
    obtain ⟨rfl, rfl, rfl⟩ := same_file entry entry'
    refine ⟨entry?_gapFilled entry, old, old.splice (m.writeStart path position flags) [], ?_, ?_,
      old.bytes_splice_nil _⟩
    · simp [Tree.contents?, file]
    · rw [contents?_gapFilled, if_pos rfl]
  unchanged_iff := gapFilled_unchanged_iff runs entry file

/-- So a write that took nothing can do no more than fill that gap. -/
theorem fillsGapOnly_perform (m : Machine) (fd : Fd) (data : Bytes)
    (nothing : (m.perform (.write fd data)).1 = (0 : Int)) :
    FillsGapOnly m fd (m.perform (.write fd data)).2 := by
  rw [perform_write] at nothing ⊢
  let counted := m.counted (.write fd data)
  have filled : FillsGapOnly counted fd (counted.settle (counted.write fd data)).2 := by
    cases written : counted.write fd data with
    | error e =>
      rw [written] at nothing
      contradiction
    | ok answer =>
      obtain ⟨count, after⟩ := answer
      rw [written] at nothing
      obtain rfl : count = 0 := Int.ofNat_eq_zero.1 nothing
      rcases eq_or_gapFilled written with
        ⟨rfl, still⟩ | ⟨path, position, flags, old, mode, entry, file, runs, rfl⟩
      · exact fillsGapOnly_self still
      · exact fillsGapOnly_gapFilled runs entry file
  -- The count of the call is no part of what is said.
  exact ⟨filled.stdout, filled.stderr, filled.others, filled.files, filled.gap,
    filled.unchanged_iff⟩

/-- Where all bytes are reported as left, one write was made and took nothing. -/
theorem run_writeAll_of_all_left {σ : Type} {host : Host σ} {s : σ}
    (left : ((hosted.writeAll fd data).run host s).outcome =
      .returned (.error (.shortWrite data.length))) :
    (host.answer (.write fd data) s).1 = (0 : Int) ∧
      ((hosted.writeAll fd data).run host s).state = (host.answer (.write fd data) s).2 := by
  by_cases offered : data = []
  · subst offered
    rw [Facade.run_writeAll_nil] at left
    simp at left
  rcases answer : host.answer (.write fd data) s with ⟨n, next⟩
  rcases Int.lt_trichotomy n 0 with negative | rfl | taken
  · simp [Facade.run_writeAll_failed offered answer negative] at left
  · exact ⟨rfl, by rw [Facade.run_writeAll_stalled offered answer]⟩
  · -- Something was taken, so what is left is less than all.
    rw [Facade.run_writeAll_more offered answer taken] at left
    obtain ⟨result, houtcome, delivery⟩ :=
      Facade.exists_delivery host fd (data.drop n.toNat) next
    obtain rfl : result = .error (.shortWrite data.length) :=
      Outcome.returned.inj (houtcome.symm.trans left)
    have short := (delivery.short rfl).2.1
    have some? := List.length_pos_iff.2 offered
    rw [List.length_drop] at short
    omega

/-- **What a write that takes nothing changes**: no stream, no other descriptor and no other file,
but the file that it is to may grow by zeros, and its position may move. The same holds of writing
all bytes where none of them was taken. -/
theorem nothing_taken (m : Machine) (fd : Fd) (data : Bytes) :
    ((m.perform (.write fd data)).1 = (0 : Int) →
      FillsGapOnly m fd (m.perform (.write fd data)).2) ∧
    (((hosted.writeAll fd data).run host m).outcome =
        .returned (.error (.shortWrite data.length)) →
      FillsGapOnly m fd ((hosted.writeAll fd data).run host m).state) := by
  constructor
  · exact fillsGapOnly_perform m fd data
  · intro left
    obtain ⟨nothing, state⟩ := run_writeAll_of_all_left left
    rw [state]
    exact fillsGapOnly_perform m fd data nothing

/-- Under a cap of no bytes a write past the end lets a file grow. -/
theorem nothing_taken_past_end :
    let m := { initial with writeCap := some 0 }.after
      [.call (.openFile ⟨Utf8.encode "/f"⟩ (OpenFlags.readWrite ||| OpenFlags.create) 0o644),
        .call (.lseek ⟨3⟩ 2 Whence.start.code)]
    let after := (m.perform (.write ⟨3⟩ [120])).2
    (m.perform (.write ⟨3⟩ [120])).1 = (0 : Int) ∧ FillsGapOnly m ⟨3⟩ after ∧
      (m.tree.contents? "/f").map Contents.bytes = some [] ∧
      (after.tree.contents? "/f").map Contents.bytes = some [0, 0] := by
  intro m after
  have nothing : (m.perform (.write ⟨3⟩ [120])).1 = (0 : Int) := by decide
  exact ⟨nothing, (nothing_taken m ⟨3⟩ [120]).1 nothing, by decide, by decide⟩

end Hostcall.Machine
