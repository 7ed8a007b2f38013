import Hostcall.Proofs.Facade.InOrder
import Hostcall.Proofs.Facade.Session
import Hostcall.Proofs.Facade.WriteAll
import Hostcall.Proofs.Machine.WriteCap

/-!
# Programs that cannot see the cap on writes

Where a machine without a cap makes one write for `writeAll`, the machine with a cap makes several,
and ends in the same state (`run_writeAll_recapped`). A program is `CapBlind` if this is all that
the cap changes about it; that carries over from the parts of a program to the program
(`CapBlind.bind`), and it holds of all operations but those that may write a part
(`CapBlind.perform`) and of formatted output. A file that would grow too large is the exception,
because under a cap the first pieces still go in.
-/

namespace Hostcall

/-- Whether a call that was made is a write. -/
def Event.isWrite : Event → Bool
  | .asked request _ => request.isWrite
  | _ => false

/-- What happened, leaving out the writes. -/
def withoutWrites (events : List Event) : List Event := events.filter fun event => !event.isWrite

@[simp] theorem withoutWrites_append (events later : List Event) :
    withoutWrites (events ++ later) = withoutWrites events ++ withoutWrites later :=
  List.filter_append ..

/-- No write failed for a file that would have grown too large. A facade looks at the register right
after a call that failed. -/
def Roomy (events : List Event) : Prop :=
  ∀ before fd data n code later, n < 0 →
    events = before ++ [.asked (.write fd data) n, .asked .errno code] ++ later →
    code ≠ SysError.fileTooLarge.code

/-- Enough room for all events is enough for the first and for the rest. -/
theorem Roomy.of_append {events later : List Event} (h : Roomy (events ++ later)) :
    Roomy events ∧ Roomy later := by
  constructor
  · intro before fd data n code rest negative hevents
    apply h before fd data n code (rest ++ later) negative
    rw [hevents, List.append_assoc]
  · intro before fd data n code rest negative hlater
    apply h (events ++ before) fd data n code rest negative
    simp [hlater]

/-- Whether an operation may write a part of what it is given and leave it at that. -/
def Operation.writesPart : Operation → Bool
  | .write .. => true
  | .writeText .. => true
  | _ => false

open Facade (hosted run_writeAll_nil run_writeAll_failed run_writeAll_stalled run_writeAll_more)
open Machine (host)

/-- Two runs on machines that differ in the cap: all is the same but the writes and their count. -/
structure SameButWrites {α : Type} (cap : Nat) (free capped : Run Machine α) : Prop where
  outcome : capped.outcome = free.outcome
  events : withoutWrites capped.events = withoutWrites free.events
  uncapped : free.state.writeCap = none
  state : capped.state = free.state.recapped (some cap) capped.state.calls.write

/-- A program that cannot tell whether writes are capped. -/
def CapBlind {α : Type} (cap : Nat) (p : Program α) : Prop :=
  ∀ (m : Machine) (writes : Nat), m.writeCap = none → Roomy (p.run host m).events →
    SameButWrites cap (p.run host m) (p.run host (m.recapped (some cap) writes))

namespace Machine

variable {m after : Machine} {fd : Fd} {data : Bytes} {cap count : Nat}

/-- Under a cap, the writes that follow each other end where the single write without a cap ends. -/
theorem run_writeAll_recapped (positive : 0 < cap) (free : m.writeCap = none)
    (runs : m.stalled = false) (offered : data ≠ [])
    (written : m.write fd data = .ok (count, after)) (writes : Nat) :
    ∃ events more, (hosted.writeAll fd data).run host (m.recapped (some cap) writes) =
        ⟨events, .returned (.ok ()), after.recapped (some cap) more⟩ ∧
      withoutWrites events = [] := by
  -- By induction on what is left to write. The free write is cut where the cap cuts, and each of
  -- its parts is a round under the cap.
  induction h : data.length using Nat.strongRecOn generalizing data m count writes with
  | ind length ih =>
    let chunk := data.take cap
    let rest := data.drop cap
    have split : chunk ++ rest = data := List.take_append_drop cap data
    have left : data.drop chunk.length = rest := by
      calc data.drop chunk.length = (chunk ++ rest).drop chunk.length := by rw [split]
        _ = rest := List.drop_left
    have taken : 0 < chunk.length := by
      have := List.length_pos_iff.2 offered
      rw [List.length_take]
      omega
    have answer {between : Machine} (first : m.write fd chunk = .ok (chunk.length, between)) :
        host.answer (.write fd data) (m.recapped (some cap) writes) =
          ((chunk.length : Int), between.recapped (some cap) (writes + 1)) := by
      have hanswer : host.answer (.write fd data) (m.recapped (some cap) writes) =
        recap (some cap) (writes + 1) (m.settle (m.write fd chunk)) :=
        perform_write_recapped free (some cap) writes fd data
      rw [hanswer, first]
      rfl
    by_cases done : rest = []
    · have whole : chunk = data := by
        rw [done, List.append_nil] at split
        exact split
      have first : m.write fd chunk = .ok (chunk.length, after) := by
        rw [whole, written, write_count free runs written]
      refine ⟨[.asked (.write fd data) (chunk.length : Int)], writes + 1, ?_, rfl⟩
      rw [run_writeAll_more offered (answer first) (by omega), Int.toNat_natCast, left, done,
        run_writeAll_nil]
      rfl
    · rw [← split] at written
      obtain ⟨-, between, hfree, hruns, first, second⟩ := write_append free runs written
      have hrest : rest.length < length := by
        have := congrArg List.length split
        rw [List.length_append] at this
        omega
      obtain ⟨events, more, hrun, hevents⟩ :=
        ih rest.length hrest hfree hruns done second (writes + 1) rfl
      refine ⟨.asked (.write fd data) (chunk.length : Int) :: events, more, ?_, ?_⟩
      · rw [run_writeAll_more offered (answer first) (by omega), Int.toNat_natCast, left, hrun]
        rfl
      · exact hevents

/-- The machine without a cap on writes. -/
def uncapped (m : Machine) : Machine := { m with writeCap := none }

/-- What a machine without a cap writes at once is written under a cap as well. -/
theorem exists_run_writeAll (runs : m.stalled = false) (flows : m.writeCap ≠ some 0)
    (offered : data ≠ []) (written : m.uncapped.write fd data = .ok (count, after)) :
    ∃ events more, (hosted.writeAll fd data).run host m =
      ⟨events, .returned (.ok ()), after.recapped m.writeCap more⟩ := by
  cases capped : m.writeCap with
  | some cap =>
    have positive : 0 < cap := Nat.pos_of_ne_zero fun zero => flows (zero ▸ capped)
    have same : m = m.uncapped.recapped (some cap) m.calls.write := capped ▸ rfl
    obtain ⟨events, more, ran, -⟩ :=
      run_writeAll_recapped (m := m.uncapped) positive rfl runs offered written m.calls.write
    exact ⟨events, more, same ▸ ran⟩
  | none =>
    have same : m.uncapped = m := by rw [uncapped, ← capped]
    rw [same] at written
    obtain rfl := write_count capped runs written
    have once : host.answer (.write fd data) m =
        ((data.length : Int), after.recapped none (m.calls.write + 1)) := by
      have h := perform_write_recapped capped none m.calls.write fd data
      rw [recapped_self capped, capped_of_free capped, written] at h
      exact h
    have taken : 0 < (data.length : Int) := Int.natCast_pos.2 (List.length_pos_iff.2 offered)
    have ran := Facade.run_writeAll_more offered once taken
    rw [Int.toNat_natCast, List.drop_length, Facade.run_writeAll_nil] at ran
    exact ⟨_, m.calls.write + 1, ran⟩

end Machine

namespace CapBlind

variable {α β : Type} {cap : Nat} {p : Program α} {f : α → Program β}

protected theorem pure (a : α) : CapBlind cap (pure a) :=
  fun _ _ free _ => ⟨rfl, rfl, free, rfl⟩

protected theorem log (level : Level) (message : String) :
    CapBlind cap (Program.log level message) :=
  fun _ _ free _ => ⟨rfl, rfl, free, rfl⟩

theorem crash (cause : Crash) : CapBlind cap (.crash cause : Program α) :=
  fun _ _ free _ => ⟨rfl, rfl, free, rfl⟩

/-- A call that is no write cannot tell the caps apart. -/
theorem call {request : Request} (other : request.isWrite = false) :
    CapBlind cap (Program.call request) := by
  intro m writes free room
  have same : host.answer request (m.recapped (some cap) writes) =
      Machine.recap (some cap) writes (m.perform request) :=
    Machine.perform_recapped m (some cap) writes other
  rw [Program.run_call, Program.run_call, same]
  exact ⟨rfl, rfl, Machine.writeCap_perform free other, rfl⟩

theorem stop (reason : Stop) : CapBlind cap (.stop reason : Program α) := by
  intro m writes free room
  cases reason <;> exact ⟨rfl, rfl, free, rfl⟩

/-- Two programs that cannot tell the caps apart cannot do so together. -/
protected theorem bind (hp : CapBlind cap p) (hf : ∀ a, CapBlind cap (f a)) :
    CapBlind cap (p >>= f) := by
  intro m writes free room
  simp only [Program.run_bind] at room ⊢
  have first (roomy : Roomy (p.run host m).events) := hp m writes free roomy
  cases houtcome : (p.run host m).outcome with
  | returned a =>
    simp only [Run.followedBy, houtcome, Run.after] at room ⊢
    obtain ⟨room, later⟩ := room.of_append
    have same := first room
    have next := hf a (p.run host m).state
      (p.run host (m.recapped (some cap) writes)).state.calls.write same.uncapped later
    rw [same.outcome, houtcome]
    dsimp only
    rw [same.state]
    refine ⟨next.outcome, ?_, next.uncapped, next.state⟩
    simp only [withoutWrites_append]
    rw [same.events, next.events]
  | stopped reason =>
    simp only [Run.followedBy, houtcome] at room ⊢
    have same := first room
    rw [same.outcome, houtcome]
    exact ⟨rfl, same.events, same.uncapped, same.state⟩
  | crashed cause =>
    simp only [Run.followedBy, houtcome] at room ⊢
    have same := first room
    rw [same.outcome, houtcome]
    exact ⟨rfl, same.events, same.uncapped, same.state⟩

/-- Writing all bytes goes on until all are taken, so the cap only decides in how many writes. -/
theorem writeAll (positive : 0 < cap) (fd : Fd) (data : Bytes) :
    CapBlind cap (hosted.writeAll fd data) := by
  intro m writes free room
  by_cases offered : data = []
  · subst offered
    simp only [run_writeAll_nil]
    exact ⟨rfl, rfl, free, rfl⟩
  have once : host.answer (.write fd data) m =
      Machine.recap none (m.calls.write + 1) (m.settle (m.write fd data)) := by
    have h := Machine.perform_write_recapped free none m.calls.write fd data
    rw [Machine.recapped_self free, Machine.capped_of_free free] at h
    exact h
  have first : host.answer (.write fd data) (m.recapped (some cap) writes) =
      Machine.recap (some cap) (writes + 1) (m.settle (m.write fd (data.take cap))) :=
    Machine.perform_write_recapped free (some cap) writes fd data
  cases written : m.write fd data with
  | error e =>
    rw [written] at once
    have negative : (-1 : Int) < 0 := by decide
    have alone := run_writeAll_failed offered once negative
    rw [alone] at room ⊢
    -- A file that would be too long is the one failure that depends on how much is written.
    have small : e ≠ .fileTooLarge := by
      rintro rfl
      exact room [] fd data (-1) _ _ negative rfl rfl
    rw [Machine.write_error free written small] at first
    rw [run_writeAll_failed offered first negative]
    exact ⟨rfl, rfl, rfl, rfl⟩
  | ok answer =>
    obtain ⟨count, after⟩ := answer
    cases stall : m.stalled with
    | true =>
      rw [Machine.write_of_stalled stall written] at once first
      rw [run_writeAll_stalled offered once, run_writeAll_stalled offered first]
      exact ⟨rfl, rfl, rfl, rfl⟩
    | false =>
      obtain rfl := Machine.write_count free stall written
      have taken : 0 < (data.length : Int) := by
        have := List.length_pos_iff.2 offered
        omega
      have all : host.answer (.write fd data) m =
          ((data.length : Int), after.recapped none (m.calls.write + 1)) := by
        rw [once, written]
        rfl
      obtain ⟨events, more, hrun, hevents⟩ :=
        Machine.run_writeAll_recapped positive free stall offered written writes
      rw [hrun, run_writeAll_more offered all taken, Int.toNat_natCast, List.drop_length,
        run_writeAll_nil]
      exact ⟨rfl, hevents, rfl, rfl⟩

theorem checked (operation : String) (n : Int) : CapBlind cap (Facade.checked operation n) := by
  unfold Facade.checked Facade.lastError
  split
  · refine .bind ?_ fun e => .pure _
    refine .bind (.call rfl) fun code => ?_
    exact .bind (.log _ _) fun _ => .pure _
  · exact .pure _

theorem status (operation : String) (n : Int) : CapBlind cap (Facade.status operation n) :=
  .bind (checked operation n) fun _ => .pure _

theorem getcwd (buffer : Bytes) : CapBlind cap (hosted.getcwd buffer) := by
  unfold hosted
  dsimp only
  split
  · exact .pure _
  · refine .bind (.call rfl) ?_
    rintro ⟨path, filled⟩
    cases path with
    | some path => exact .pure _
    | none =>
      refine .bind ?_ fun e => .pure _
      refine .bind (.call rfl) fun code => ?_
      exact .bind (.log _ _) fun _ => .pure _

theorem usleep (micros : Nat) : CapBlind cap (hosted.usleep micros) :=
  .bind (.call rfl) fun _ => status _ _

/-- Neither does a sleep tell them apart. -/
theorem sleepMicros (d : Duration) : CapBlind cap (hosted.sleepMicros d) := by
  unfold Facade.sleepMicros
  split
  · exact usleep _
  · exact .pure _

/-- Of the operations, only a single write shows the cap. -/
theorem perform (positive : 0 < cap) (op : Operation) (whole : op.writesPart = false) :
    CapBlind cap (hosted.perform op) := by
  cases op with
  | write => contradiction
  | writeText => contradiction
  | writeAll fd data => exact writeAll positive fd data
  | openFile path flags mode =>
    refine .bind (.call rfl) fun n => ?_
    exact .bind (checked _ n) fun _ => .pure _
  | read fd buffer =>
    simp only [Facade.perform, hosted]
    split
    · exact .pure _
    · refine .bind (.call rfl) ?_
      rintro ⟨n, filled⟩
      exact .bind (checked _ n) fun _ => .pure _
  | close fd => exact .bind (.call rfl) fun n => status _ n
  | unlink path => exact .bind (.call rfl) fun n => status _ n
  | mkdir path mode => exact .bind (.call rfl) fun n => status _ n
  | chdir path => exact .bind (.call rfl) fun n => status _ n
  | getcwd buffer => exact getcwd buffer
  | currentDir => exact .bind (getcwd _) fun _ => .pure _
  | seek fd offset whence =>
    refine .bind (.call rfl) fun n => ?_
    exact .bind (checked _ n) fun _ => .pure _
  | sleep seconds => exact .bind (.call rfl) fun _ => .pure _
  | usleep micros => exact usleep micros
  | sleepFor d =>
    simp only [Facade.perform, Facade.sleepFor]
    split
    · refine .bind (.bind (.call rfl) fun _ => .pure _) fun result => ?_
      cases result with
      | error e => exact .pure _
      | ok left =>
        dsimp only
        split
        · exact .pure _
        · exact sleepMicros d
    · exact sleepMicros d
  | exit status => exact .bind (.log _ _) fun _ => .stop _
  | abort => exact .bind (.log _ _) fun _ => .stop _
  | describe e =>
    cases e with
    | host e =>
      show CapBlind cap e.describe
      unfold Errno.describe
      split
      · exact .pure _
      · refine .bind (.call rfl) fun raw => ?_
        cases raw <;> exact .pure _
    | shortWrite left => exact .pure _
    | emptyBuffer => exact .pure _
    | unsupported => exact .pure _

theorem writePiece (positive : 0 < cap) (w : Writer) (piece : String) :
    CapBlind cap (w.write hosted piece) := by
  refine .bind (writeAll positive _ _) fun result => ?_
  cases result <;> exact .pure _

/-- Steps that are blind one by one are blind in order. -/
theorem inOrder {steps : List (Program (Except Error Unit))}
    (h : ∀ step ∈ steps, CapBlind cap step) : CapBlind cap (Program.inOrder steps) := by
  induction steps with
  | nil => exact .pure _
  | cons step steps ih =>
    refine .bind (h step List.mem_cons_self) fun result => ?_
    cases result with
    | error e => exact .pure _
    | ok =>
      apply ih
      intro other hother
      exact h other (List.mem_cons_of_mem _ hother)

/-- Each piece of a formatted text is written whole. -/
theorem writeFormatted (positive : 0 < cap) (fd : Fd) (v : Formatted) :
    CapBlind cap (hosted.writeFormatted fd v) := by
  rw [Facade.writeFormatted_eq]
  apply inOrder
  intro step h
  obtain ⟨data, -, rfl⟩ := List.mem_map.1 h
  exact writeAll positive fd data

theorem print (positive : 0 < cap) (fd : Fd) (v : Formatted) : CapBlind cap (hosted.print fd v) :=
  .bind (writeFormatted positive fd v) fun _ => .pure _

end CapBlind

end Hostcall
