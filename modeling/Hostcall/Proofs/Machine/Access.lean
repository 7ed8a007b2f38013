import Hostcall.Proofs.Facade.WriteAll
import Hostcall.Proofs.Machine.Pieces
import Hostcall.Proofs.Machine.Turns

/-!
# Which descriptors can be written and read

What a descriptor stands for decides whether it can be written and whether it can be read. A read
fails for a bad descriptor if and only if it cannot be read. A write fails for it if and only if the
descriptor cannot be written, whatever the cap, with one exception: where writes stall, a file that
is open for reading only takes nothing and does not fail (`refused_iff`). Writing all bytes reports
what the first write meets.
-/

namespace Hostcall

namespace SysError

/-- The register tells the errors apart. -/
theorem code_injective {e f : SysError} (same : e.code = f.code) : e = f := by
  have := congrArg ofCode? same
  rw [ofCode?_code, ofCode?_code] at this
  exact Option.some.inj this

end SysError

namespace OpenFile

/-- Whether bytes can be written to it. -/
def isWritable : OpenFile → Bool
  | .stdin => false
  | .stdout => true
  | .stderr => true
  | .file _ _ flags => flags.writes

/-- Whether bytes can be read from it. -/
def isReadable : OpenFile → Bool
  | .stdin => true
  | .stdout => false
  | .stderr => false
  | .file _ _ flags => flags.reads

/-- Whether it is a file that cannot be written. -/
def isReadOnly : OpenFile → Bool
  | .file _ _ flags => !flags.writes
  | _ => false

end OpenFile

namespace Machine

open Facade (hosted run_writeAll_failed run_writeAll_stalled run_writeAll_more run_writeAll_nil)

variable {m after : Machine} {fd : Fd} {data : Bytes} {count : Nat}

/-- Whether a descriptor is open on something that can be written. -/
def isWritable (m : Machine) (fd : Fd) : Bool := (m.entry? fd).any OpenFile.isWritable

/-- Whether a descriptor is open on something that can be read. -/
def isReadable (m : Machine) (fd : Fd) : Bool := (m.entry? fd).any OpenFile.isReadable

/-- Whether writes stall and a descriptor is open on a file for reading only. -/
def stallsReadOnly (m : Machine) (fd : Fd) : Bool :=
  m.stalled && (m.entry? fd).any OpenFile.isReadOnly

/-- A call fails, and the register holds the number of a reason after it. -/
def FailsFor (m : Machine) (request : Request) (e : SysError) : Prop :=
  request.Fails (m.perform request).1 ∧ (m.perform request).2.errno = e.code

/-- A call fails for the reason that it came to, and for no other. -/
theorem failsFor_iff {request : Request} {β : Type} {x : Except SysError β}
    (refused : ∀ e, x = .error e → m.FailsFor request e)
    (done : ∀ b, x = .ok b → ¬ request.Fails (m.perform request).1) (e : SysError) :
    m.FailsFor request e ↔ x = .error e := by
  constructor
  · rintro ⟨fails, same⟩
    cases hx : x with
    | error f => rw [SysError.code_injective ((refused f hx).2.symm.trans same)]
    | ok b => exact absurd fails (done b hx)
  · exact refused e

theorem failsFor_write_iff (m : Machine) (fd : Fd) (data : Bytes) (e : SysError) :
    m.FailsFor (.write fd data) e ↔
      (m.counted (.write fd data)).write fd data = .error e := by
  apply failsFor_iff
  · intro f refused
    rw [FailsFor, perform_write, refused]
    exact ⟨show (-1 : Int) < 0 by decide, rfl⟩
  · intro answer written
    rw [perform_write, written]
    exact Int.not_lt.2 (Int.natCast_nonneg answer.1)

theorem failsFor_read_iff (m : Machine) (fd : Fd) (buffer : Bytes) (e : SysError) :
    m.FailsFor (.read fd buffer) e ↔
      (m.counted (.read fd buffer)).read fd buffer.length = .error e := by
  have answered : m.perform (.read fd buffer) =
      (m.counted (.read fd buffer)).respond (.read fd buffer) := rfl
  apply failsFor_iff
  · intro f refused
    rw [FailsFor, answered, respond, refused]
    exact ⟨show (-1 : Int) < 0 by decide, rfl⟩
  · intro answer read
    rw [answered, respond, read]
    exact Int.not_lt.2 (Int.natCast_nonneg answer.1.length)

/-- The tree knows of no descriptors, so it never answers `EBADF`. -/
theorem writeAt_ne_badDescriptor (t : Tree) (path : String) (position : Nat) (data : Bytes) :
    t.writeAt path position data ≠ .error .badDescriptor := by
  rcases t.writeAt_cases path position data with
    ⟨-, refused⟩ | ⟨old, mode, -, ⟨-, refused⟩ | ⟨-, written⟩⟩
  · simp [refused]
  · simp [refused]
  · simp [written]

/-- Delivering fails for a bad descriptor where what it stands for cannot be written. -/
theorem deliver_eq_badDescriptor_iff (m : Machine) (fd : Fd) (chunk : Bytes) (file : OpenFile) :
    m.deliver fd chunk file = .error .badDescriptor ↔ file.isWritable = false := by
  cases file with
  | stdin => simp [deliver, OpenFile.isWritable]
  | stdout => simp [deliver, OpenFile.isWritable]
  | stderr => simp [deliver, OpenFile.isWritable]
  | file path position flags =>
    rw [deliver_file]
    cases writes : flags.writes with
    | false => simp [OpenFile.isWritable, writes]
    | true =>
      have := writeAt_ne_badDescriptor m.tree path (m.writeStart path position flags) chunk
      rw [if_pos rfl]
      cases written : m.tree.writeAt path (m.writeStart path position flags) chunk with
      | error e => simpa [OpenFile.isWritable, writes, bind, Except.bind, written] using this
      | ok tree => simp [OpenFile.isWritable, writes, bind, Except.bind, pure, Except.pure]

/-- A write is `EBADF` exactly for a number that is not open for writing, unless the host stalls
before it looks at the flags of a file. -/
theorem write_eq_badDescriptor_iff (m : Machine) (fd : Fd) (data : Bytes) :
    m.write fd data = .error .badDescriptor ↔
      m.isWritable fd = false ∧ m.stallsReadOnly fd = false := by
  unfold isWritable stallsReadOnly
  rcases m.entry?_cases fd with refuses | ⟨file, entry, output⟩
  · rw [write_eq_error refuses]
    rcases refuses with entry | entry <;> simp [entry, OpenFile.isWritable, OpenFile.isReadOnly]
  · rw [write_eq entry output, entry]
    cases stall : m.stalled with
    | false => simp [deliver_eq_badDescriptor_iff]
    | true =>
      cases file with
      | stdin => contradiction
      | stdout => simp [OpenFile.isWritable]
      | stderr => simp [OpenFile.isWritable]
      | file path position flags => simp [OpenFile.isWritable, OpenFile.isReadOnly]

/-- A read is `EBADF` exactly for a number that is not open for reading. -/
theorem read_eq_badDescriptor_iff (m : Machine) (fd : Fd) (count : Nat) :
    m.read fd count = .error .badDescriptor ↔ m.isReadable fd = false := by
  unfold read isReadable
  cases m.entry? fd with
  | none => simp
  | some file =>
    cases file with
    | stdin => simp [OpenFile.isReadable]
    | stdout => simp [OpenFile.isReadable]
    | stderr => simp [OpenFile.isReadable]
    | file path position flags => cases flags.reads <;> simp [OpenFile.isReadable, *]

theorem failsFor_write_badDescriptor_iff (m : Machine) (fd : Fd) (data : Bytes) :
    m.FailsFor (.write fd data) .badDescriptor ↔
      m.isWritable fd = false ∧ m.stallsReadOnly fd = false := by
  rw [failsFor_write_iff]
  exact write_eq_badDescriptor_iff (m.counted (.write fd data)) fd data

theorem failsFor_read_badDescriptor_iff (m : Machine) (fd : Fd) (buffer : Bytes) :
    m.FailsFor (.read fd buffer) .badDescriptor ↔ m.isReadable fd = false := by
  rw [failsFor_read_iff]
  exact read_eq_badDescriptor_iff (m.counted (.read fd buffer)) fd buffer.length

/-- A write that stalls on a file that is open for reading only takes nothing. -/
theorem perform_write_of_stallsReadOnly (masked : m.stallsReadOnly fd = true) (data : Bytes) :
    m.perform (.write fd data) = ((0 : Int), m.counted (.write fd data)) := by
  obtain ⟨stall, readOnly⟩ := Bool.and_eq_true_iff.1 masked
  obtain ⟨file, entry, readOnly⟩ := (Option.any_eq_true _ _).1 readOnly
  have output : file ≠ .stdin := by
    rintro rfl
    contradiction
  have written : (m.counted (.write fd data)).write fd data = .ok (0, m.counted (.write fd data)) := by
    rw [write_eq (m := m.counted (.write fd data)) entry output, counted_stalled, if_pos stall]
  rw [perform_write, written]
  rfl

/-- The number of an entry that is open for writing is writable. -/
theorem isWritable_of_entry {file : OpenFile} (entry : m.entry? fd = some file)
    (writes : file.isWritable = true) : m.isWritable fd = true := by
  rw [isWritable, entry]
  exact writes

/-- A descriptor that took some bytes can still be written. -/
theorem Wrote.isWritable (wrote : Wrote m fd data count after) (taken : 0 < count) :
    after.isWritable fd = true := by
  cases wrote with
  | stalled => contradiction
  | stdout entry => exact isWritable_of_entry (show _ = some OpenFile.stdout from entry) rfl
  | stderr entry => exact isWritable_of_entry (show _ = some OpenFile.stderr from entry) rfl
  | @file path position flags tree entry runs writes written =>
    have moved := entry?_movedTo (m := { m with tree }) entry path
      (m.writeStart path position flags + (m.capped data).length) flags
    exact isWritable_of_entry moved writes

/-- A descriptor that took a byte is still open for writing after it. -/
theorem isWritable_of_taken {next : Machine} {n : Int}
    (answer : m.perform (.write fd data) = (n, next)) (taken : 0 < n) :
    next.isWritable fd = true := by
  obtain ⟨count, rfl, wrote⟩ := exists_wrote_of_taken answer taken
  exact wrote.isWritable (Int.natCast_pos.1 taken)

/-- A first write that fails is what `write_all` returns. -/
theorem run_writeAll_of_failsFor (offered : data ≠ []) {e : SysError}
    (fails : m.FailsFor (.write fd data) e) :
    ((hosted.writeAll fd data).run host m).outcome = .returned (.error (.host ⟨e.code⟩)) := by
  rcases answer : m.perform (.write fd data) with ⟨n, next⟩
  obtain ⟨negative, register⟩ := fails
  rw [answer] at negative register
  rw [run_writeAll_failed offered answer negative, ← register]
  rfl

/-- Writing all bytes reports a bad descriptor if and only if there is something to write and the
first write fails for it. -/
theorem run_writeAll_badDescriptor_iff (m : Machine) (fd : Fd) (data : Bytes) :
    ((hosted.writeAll fd data).run host m).outcome =
        .returned (.error (.host ⟨SysError.badDescriptor.code⟩)) ↔
      data ≠ [] ∧ m.FailsFor (.write fd data) .badDescriptor := by
  constructor
  · induction h : data.length using Nat.strongRecOn generalizing data m with
    | ind length ih =>
      intro reported
      by_cases offered : data = []
      · rw [offered, run_writeAll_nil] at reported
        simp at reported
      refine ⟨offered, ?_⟩
      rcases answer : m.perform (.write fd data) with ⟨n, next⟩
      rcases Int.lt_trichotomy n 0 with negative | rfl | taken
      · rw [run_writeAll_failed offered answer negative] at reported
        have register : (host.answer .errno next).1 = SysError.badDescriptor.code := by
          simpa using reported
        rw [FailsFor, answer]
        exact ⟨negative, register⟩
      · rw [run_writeAll_stalled offered answer] at reported
        simp at reported
      · -- What took some bytes can be written, so no later write fails for a bad descriptor.
        rw [run_writeAll_more offered answer taken] at reported
        have less : (data.drop n.toNat).length < length := by
          have := List.length_pos_iff.2 offered
          rw [List.length_drop]
          omega
        have fails := (ih _ less next _ rfl reported).2
        rw [failsFor_write_badDescriptor_iff, isWritable_of_taken answer taken] at fails
        exact absurd fails.1 (by decide)
  · rintro ⟨offered, fails⟩
    exact run_writeAll_of_failsFor offered fails

/-- **Which calls fail for a bad descriptor**: a read through one that cannot be read, and a write
through one that cannot be written, unless writes stall and it is open on a file for reading only.
Then the write takes nothing and does not fail. Writing all of some bytes fails as a write does, and
falls short by all of them where the write stalls. -/
theorem refused_iff (m : Machine) (fd : Fd) :
    (∀ data, m.FailsFor (.write fd data) .badDescriptor ↔
      m.isWritable fd = false ∧ m.stallsReadOnly fd = false) ∧
    (∀ buffer, m.FailsFor (.read fd buffer) .badDescriptor ↔ m.isReadable fd = false) ∧
    (∀ data, ((hosted.writeAll fd data).run host m).outcome =
        .returned (.error (.host ⟨SysError.badDescriptor.code⟩)) ↔
      data ≠ [] ∧ m.isWritable fd = false ∧ m.stallsReadOnly fd = false) ∧
    (m.stallsReadOnly fd = true → ∀ data,
      m.perform (.write fd data) = ((0 : Int), m.counted (.write fd data)) ∧
      (data ≠ [] → ((hosted.writeAll fd data).run host m).outcome =
        .returned (.error (.shortWrite data.length)))) := by
  refine ⟨m.failsFor_write_badDescriptor_iff fd, m.failsFor_read_badDescriptor_iff fd, ?_, ?_⟩
  · intro data
    rw [run_writeAll_badDescriptor_iff, failsFor_write_badDescriptor_iff]
  · intro masked data
    have answer := perform_write_of_stallsReadOnly masked data
    refine ⟨answer, ?_⟩
    intro offered
    rw [run_writeAll_stalled offered answer]

/-- Where writes stall, a descriptor that cannot be written takes a write without failing. -/
theorem stalled_reader_takes_write :
    let m := { initial with stalled := true }.after
      [.call (.openFile ⟨Utf8.encode "/f"⟩ (OpenFlags.readOnly ||| OpenFlags.create) 0o644)]
    m.isWritable ⟨3⟩ = false ∧ ¬ m.FailsFor (.write ⟨3⟩ [120]) .badDescriptor ∧
      ((hosted.writeAll ⟨3⟩ [120]).run host m).outcome = .returned (.error (.shortWrite 1)) := by
  intro m
  have answer : m.perform (.write ⟨3⟩ [120]) = ((0 : Int), m.counted (.write ⟨3⟩ [120])) :=
    perform_write_of_stallsReadOnly (by decide) [120]
  refine ⟨by decide, ?_, ?_⟩
  · rintro ⟨negative, -⟩
    rw [answer] at negative
    contradiction
  · rw [run_writeAll_stalled (by decide) answer]
    rfl

end Machine

end Hostcall
