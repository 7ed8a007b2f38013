import Hostcall.Proofs.Checked.WordsSuffice
import Hostcall.Proofs.Machine.DescriptorTable

/-!
# Seeking

A seek adds its offset to where it counts from and moves the position of its descriptor there, if
that is a position. `SeeksFrom` says where it counts from, and `lseek_of_seeksFrom` all that a seek
does on a descriptor of a file. The sum is one of integers; in the words that a computer adds it is
the same, since turns never lead past the largest position (`lseek_exact`).
-/

namespace Hostcall.Machine

variable {m : Machine} {fd : Fd} {path : String} {position base : Nat} {flags : OpenFlags}
  {offset whence : Int} {request : Request}

/-- Where a seek counts from, by its code: the start, the position, or the end of the file, which is
the start again where the file is gone. -/
inductive SeeksFrom (m : Machine) (path : String) (position : Nat) : Int → Nat → Prop where
  | start : SeeksFrom m path position 0 0
  | current : SeeksFrom m path position 1 position
  | finish {data : Contents} (file : m.tree.contents? path = some data) :
      SeeksFrom m path position 2 data.size
  | gone (gone : m.tree.contents? path = none) : SeeksFrom m path position 2 0

/-- A seek has moved one descriptor to a target, and nothing else has changed but the count of
calls. -/
structure Sought (m : Machine) (fd : Fd) (path : String) (target : Nat) (flags : OpenFlags)
    (request : Request) (after : Machine) : Prop where
  entry : after.entry? fd = some (.file path target flags)
  others : ∀ other, other ≠ fd → after.entry? other = m.entry? other
  rest : after = { m.counted request with files := after.files }

/-- What a seek counts from, by its `whence`. -/
theorem SeeksFrom.seekBase? (h : m.SeeksFrom path position whence base) :
    m.seekBase? path position whence = some base := by
  cases h with
  | start => rfl
  | current => rfl
  | finish file =>
    show some (m.tree.endOf path) = _
    rw [Tree.endOf, file]
    rfl
  | gone gone =>
    show some (m.tree.endOf path) = _
    rw [Tree.endOf, gone]
    rfl

/-- There are three values of `whence`. -/
theorem seekBase?_eq_none_iff :
    m.seekBase? path position whence = none ↔ whence ≠ 0 ∧ whence ≠ 1 ∧ whence ≠ 2 := by
  unfold Machine.seekBase? Whence.ofCode?
  split
  · simp_all
  · split
    · simp_all
    · split <;> simp_all

theorem perform_lseek (m : Machine) (fd : Fd) (offset whence : Int) :
    m.perform (.lseek fd offset whence) =
      match (m.counted (.lseek fd offset whence)).lseek fd offset whence with
      | .ok answer => answer
      | .error e => ((-1 : Int), (m.counted (.lseek fd offset whence)).failed e) := by
  show (m.counted (.lseek fd offset whence)).respond (.lseek fd offset whence) = _
  rw [respond]
  cases (m.counted (.lseek fd offset whence)).lseek fd offset whence <;> rfl

theorem failsFor_lseek_iff (m : Machine) (fd : Fd) (offset whence : Int) (e : SysError) :
    m.FailsFor (.lseek fd offset whence) e ↔
      (m.counted (.lseek fd offset whence)).lseek fd offset whence = .error e := by
  apply failsFor_iff
  · intro f refused
    rw [FailsFor, perform_lseek, refused]
    exact ⟨show (-1 : Int) < 0 by decide, rfl⟩
  · intro answer sought
    obtain ⟨_, _, _, _, -, -, -, least, -, -⟩ := eq_of_lseek sought
    rw [perform_lseek, sought]
    exact Int.not_lt.2 least

/-- A seek that fails changes the register and has been counted. -/
theorem perform_lseek_of_fails (fails : (m.perform (.lseek fd offset whence)).1 < 0) :
    ∃ e, (m.perform (.lseek fd offset whence)).2 =
      (m.counted (.lseek fd offset whence)).failed e := by
  rw [perform_lseek] at fails ⊢
  cases sought : (m.counted (.lseek fd offset whence)).lseek fd offset whence with
  | ok answer =>
    obtain ⟨_, _, _, _, -, -, -, least, -, -⟩ := eq_of_lseek sought
    rw [sought] at fails
    exact absurd fails (Int.not_lt.2 least)
  | error e => exact ⟨e, rfl⟩

section

variable (entry : m.entry? fd = some (.file path position flags))
include entry

/-- From a known base, a seek fails above the largest position and below zero, and goes to the sum
otherwise. -/
theorem lseek_of_seeksFrom (origin : m.SeeksFrom path position whence base) (offset : Int)
    (request : Request) :
    (m.counted request).lseek fd offset whence =
      if maxPosition < base + offset then .error .valueOverflow
      else if base + offset < 0 then .error .invalidArgument
      else
        .ok (base + offset, (m.counted request).movedTo fd path (base + offset).toNat flags) := by
  rw [lseek_eq (m := m.counted request) entry,
    show seekBase? (m.counted request) path position whence = some base from origin.seekBase?]

/-- A seek to a position gives the position and moves the descriptor there. -/
theorem perform_lseek_of_seeksFrom (origin : m.SeeksFrom path position whence base)
    (offset : Int) (least : 0 ≤ base + offset) (most : base + offset ≤ maxPosition) :
    m.perform (.lseek fd offset whence) =
      (base + offset,
        (m.counted (.lseek fd offset whence)).movedTo fd path (base + offset).toNat flags) := by
  rw [perform_lseek, lseek_of_seeksFrom entry origin, if_neg (Int.not_lt.2 most),
    if_neg (Int.not_lt.2 least)]

/-- So it has these two failures. -/
theorem failsFor_lseek_of_seeksFrom (origin : m.SeeksFrom path position whence base)
    (e : SysError) :
    m.FailsFor (.lseek fd offset whence) e ↔
      maxPosition < base + offset ∧ e = .valueOverflow ∨
        base + offset < 0 ∧ e = .invalidArgument := by
  have positive : 0 ≤ maxPosition := by decide
  rw [failsFor_lseek_iff, lseek_of_seeksFrom entry origin]
  by_cases high : maxPosition < base + offset
  · simp only [if_pos high, Except.error.injEq]
    constructor
    · rintro rfl
      exact .inl ⟨high, rfl⟩
    · rintro (⟨-, rfl⟩ | ⟨low, -⟩)
      · rfl
      · omega
  · by_cases low : base + offset < 0
    · simp [high, low, eq_comm]
    · simp [high, low]

/-- Any other `whence` is invalid. -/
theorem failsFor_lseek_of_unknown (unknown : whence ≠ 0 ∧ whence ≠ 1 ∧ whence ≠ 2)
    (offset : Int) : m.FailsFor (.lseek fd offset whence) .invalidArgument := by
  have sought := lseek_eq (m := m.counted (.lseek fd offset whence)) entry offset whence
  rw [show seekBase? (m.counted _) path position whence = none from
    seekBase?_eq_none_iff.2 unknown] at sought
  exact (failsFor_lseek_iff m fd offset whence _).2 sought

theorem sought_movedTo (target : Nat) (request : Request) :
    m.Sought fd path target flags request ((m.counted request).movedTo fd path target flags) where
  entry := entry?_movedTo (m := m.counted request) entry path target flags
  others _ different := entry?_movedTo_of_ne (m := m.counted request) entry different
  rest := rfl

end

/-- A stream has no position. -/
theorem failsFor_lseek_of_stream {file : OpenFile} (entry : m.entry? fd = some file)
    (stream : file = .stdin ∨ file = .stdout ∨ file = .stderr) (offset whence : Int) :
    m.FailsFor (.lseek fd offset whence) .illegalSeek := by
  rw [failsFor_lseek_iff, lseek,
    show entry? (m.counted (.lseek fd offset whence)) fd = some file from entry]
  rcases stream with rfl | rfl | rfl <;> rfl

/-- **Seeking is exact.** After any turns of a machine from a setup a seek on a file gives where it
counts from plus its offset, if that is a position, and then it has moved its descriptor there and
changed nothing else. It fails for an invalid argument if the sum is negative or the code unknown,
for an overflow if the sum is past the last position, and for the descriptor if that is a stream or
not open; then no position has changed. In words the sum is the same: no position is past the last
one, so nothing wraps. -/
theorem lseek_exact {steps : List SetupStep} {warnings : List LogEntry}
    (built : build steps = .ok (m, warnings)) (turns : List Turn) (fd : Fd)
    (offset whence : Int) :
    let s := m.after turns
    let answer := s.perform (.lseek fd offset whence)
    (∀ path position flags, s.entry? fd = some (.file path position flags) →
      (∀ base, s.SeeksFrom path position whence base →
        (0 ≤ base + offset → base + offset ≤ maxPosition →
          answer.1 = base + offset ∧
          s.Sought fd path (base + offset).toNat flags (.lseek fd offset whence) answer.2 ∧
          (answer.2.perform (.lseek fd 0 1)).1 = base + offset) ∧
        (s.FailsFor (.lseek fd offset whence) .invalidArgument ↔ base + offset < 0) ∧
        (s.FailsFor (.lseek fd offset whence) .valueOverflow ↔ maxPosition < base + offset)) ∧
      (whence ≠ 0 ∧ whence ≠ 1 ∧ whence ≠ 2 →
        s.FailsFor (.lseek fd offset whence) .invalidArgument)) ∧
    (∀ file, s.entry? fd = some file → file = .stdin ∨ file = .stdout ∨ file = .stderr →
      s.FailsFor (.lseek fd offset whence) .illegalSeek) ∧
    (s.entry? fd = none → s.FailsFor (.lseek fd offset whence) .badDescriptor) ∧
    (answer.1 < 0 → ∃ e, answer.2 = (s.counted (.lseek fd offset whence)).failed e) ∧
    ((∀ path c, m.tree.contents? path = some c → c.size < Checked.signedCount) →
      -Checked.signedCount ≤ offset → offset < Checked.signedCount →
      (∀ path position flags, s.entry? fd = some (.file path position flags) →
        (position : Int) ≤ maxPosition) ∧
      Checked.lseek s fd offset whence = Checked.permitted (s.lseek fd offset whence)) := by
  intro s answer
  refine ⟨?_, ?_, ?_, perform_lseek_of_fails, ?_⟩
  · intro path position flags entry
    refine ⟨fun base origin => ⟨?_, ?_, ?_⟩, fun unknown =>
      failsFor_lseek_of_unknown entry unknown offset⟩
    · intro least most
      have performed := perform_lseek_of_seeksFrom entry origin offset least most
      have sought := sought_movedTo entry (base + offset).toNat (.lseek fd offset whence)
      have start : ((base + offset).toNat : Int) + 0 = base + offset := by omega
      -- Seeking by nothing tells where the first seek went.
      have again := perform_lseek_of_seeksFrom sought.entry .current 0 (by rwa [start])
        (by rwa [start])
      simp only [answer, performed]
      refine ⟨trivial, sought, ?_⟩
      rw [again]
      exact start
    · rw [failsFor_lseek_of_seeksFrom entry origin]
      simp
    · rw [failsFor_lseek_of_seeksFrom entry origin]
      simp
  · intro file entry stream
    exact failsFor_lseek_of_stream entry stream offset whence
  · intro absent
    exact failsFor_of_absent absent rfl
  · intro seeded low _
    have least : Tree.maxFileSize ≤ Checked.signedCount - 1 := by decide
    have most : ((Checked.signedCount - 1 : Nat) : Int) ≤ maxPosition := by decide
    -- The bounds of a new machine hold after any turns, and within them no sum leaves the words.
    have within : s.Within (Checked.signedCount - 1) :=
      (within_of_build built fun path c file => Nat.le_sub_one_of_lt (seeded path c file)).after
        least most turns
    exact ⟨within.position fd, Checked.lseek_eq within (by decide) low fd whence⟩

/-- From the last position one step back is a position and one step on is none; so is what is before
the start, counted from the end; and the lowest offset does not wrap. -/
theorem lseek_exact_at_last_position :
    let s := Checked.small.after [.call (.openFile ⟨Utf8.encode "/f"⟩ OpenFlags.readWrite 0),
      .call (.lseek ⟨3⟩ maxPosition 0)]
    s.entry? ⟨3⟩ = some (.file "/f" (Checked.signedCount - 1) OpenFlags.readWrite) ∧
      (s.perform (.lseek ⟨3⟩ (-1) 1)).1 = maxPosition - 1 ∧
      s.FailsFor (.lseek ⟨3⟩ 1 1) .valueOverflow ∧
      s.FailsFor (.lseek ⟨3⟩ (-4) 2) .invalidArgument ∧
      s.FailsFor (.lseek ⟨1⟩ 0 7) .illegalSeek ∧
      Checked.lseek s ⟨3⟩ (-Checked.signedCount) 1 =
        Checked.permitted (s.lseek ⟨3⟩ (-Checked.signedCount) 1) := by
  intro s
  have entry : s.entry? ⟨3⟩ = some (.file "/f" (Checked.signedCount - 1) OpenFlags.readWrite) := by
    decide
  have file : s.tree.contents? "/f" = some (.ofBytes [1, 2, 3]) := by decide
  have exact := lseek_exact Checked.build_small [.call (.openFile ⟨Utf8.encode "/f"⟩
    OpenFlags.readWrite 0), .call (.lseek ⟨3⟩ maxPosition 0)]
  have back := (((exact ⟨3⟩ (-1) 1).1 _ _ _ entry).1 _ .current).1 (by decide) (by decide)
  have on := ((exact ⟨3⟩ 1 1).1 _ _ _ entry).1 _ .current
  have before := ((exact ⟨3⟩ (-4) 2).1 _ _ _ entry).1 _ (.finish file)
  have words := (exact ⟨3⟩ (-Checked.signedCount) 1).2.2.2.2 (fun path c held => by
    rw [Checked.contents_small held]
    decide) (by decide) (by decide)
  refine ⟨entry, back.1, on.2.2.2 (by decide), before.2.1.2 (by decide), ?_, words.2⟩
  exact (exact ⟨1⟩ 0 7).2.1 .stdout (by decide) (.inr (.inl rfl))

end Hostcall.Machine
