import Mathlib.Data.List.Infix
import Hostcall.Applet.ArgvDump
import Hostcall.Proofs.Applet.Custody

/-!
# Exit codes on any host

Nothing that a host answers keeps an applet from coming to its end. The one that shows its arguments
returns 0 or 1. The one that writes a file and reads it back does so as well, unless a read is
answered with more than it had room for, and then it crashes; it returns 1 exactly where it has
begun a report on the standard error (`applets_come_to_verdict`). A report begins with a label that
no part of the file begins with, so neither of the two is taken for the other even where the host
opens the file under the number of the standard error.
-/

namespace Hostcall.Applet

open Facade (hosted)
open Program (Returns)

namespace RoundTrip

variable {texts : Fd → String → Prop} {reads : Nat → Int → Prop} {held after : Option Fd}
  {events : List Event} {outcome : Outcome Int}

/-- Bytes are offered to the standard error that begin as a report does. -/
def Reports (events : List Event) : Prop :=
  ∃ data n, .asked (.write .stderr data) n ∈ events ∧ Utf8.encode "roundtrip: " <+: data

/-- Every event of a course is a step of it. -/
theorem Course.exists_step {event : Event} (h : Course texts reads held events after)
    (happens : event ∈ events) : ∃ held next, Step texts reads held event next := by
  obtain ⟨before, later, here⟩ := List.append_of_mem happens
  obtain ⟨held, next, -, step, -⟩ := h.split here
  exact ⟨held, next, step⟩

/-- The payload is no report, and neither is any rest of it. -/
theorem not_label_of_suffix {data : Bytes} (part : data <:+ payload) :
    ¬ Utf8.encode "roundtrip: " <+: data := by
  have tails : ∀ data ∈ payload.tails, ¬ Utf8.encode "roundtrip: " <+: data := by decide
  exact tails data ((List.mem_tails _ _).2 part)

/-- Texts for the standard output and parts of the file are no report. -/
theorem Course.not_reports {told : List Event} (h : Course (Shown told) reads held events after) :
    ¬ Reports events := by
  rintro ⟨data, n, offered, label⟩
  obtain ⟨held, next, step⟩ := h.exists_step offered
  cases step with
  | offered part => exact not_label_of_suffix part label
  | said own => exact absurd own.1 (by decide)

/-- No event of a course with reads that fit is an excess. -/
theorem Course.not_overread (h : Course texts Fits held events after) : ¬ Overread events := by
  rintro ⟨fd, buffer, n, filled, answered, excess⟩
  obtain ⟨held, next, step⟩ := h.exists_step answered
  cases step with
  | readBack count => exact Int.not_lt.2 count excess

/-- The verdict is 1 if and only if a report was begun. -/
theorem Concluded.returned_one_iff (h : Concluded events outcome) :
    outcome = .returned 1 ↔ Reports events := by
  cases h with
  | good course => simp [course.not_reports]
  | reported course report =>
    obtain ⟨n, report⟩ := report
    exact iff_of_true rfl ⟨_, n, report, List.prefix_rfl⟩
  | overrun course excess => simp [course.not_reports]

/-- A crash means a host that claims more than the buffer holds, and such a host means a crash. -/
theorem Concluded.crashed_iff (h : Concluded events outcome) :
    outcome = .crashed .overrun ↔ Overread events := by
  cases h with
  | good course => simp [course.not_overread]
  | reported course report => simp [course.not_overread]
  | overrun course excess => exact iff_of_true rfl excess

/-- There are three outcomes and no others. -/
theorem Concluded.outcomes (h : Concluded events outcome) :
    outcome = .returned 0 ∨ outcome = .returned 1 ∨ outcome = .crashed .overrun := by
  cases h with
  | good => exact .inl rfl
  | reported => exact .inr (.inl rfl)
  | overrun => exact .inr (.inr rfl)

end RoundTrip

open RoundTrip (Overread Reports concluded_roundTrip)

theorem returns_dumpLine (item : Bytes × Nat) :
    ∀ step ∈ dumpLine hosted item, step.Returns fun _ _ => True := by
  simp only [dumpLine, List.forall_mem_cons]
  refine ⟨?_, ?_, ?_, by simp⟩
  · exact (Facade.returns_writeFormatted .stdout _).mono fun _ _ _ => trivial
  · exact (Facade.returns_writeAll .stdout _).mono fun _ _ _ => trivial
  · exact (Facade.returns_writeAll .stdout _).mono fun _ _ _ => trivial

/-- The listing comes back with 0 or 1 on any host. -/
theorem returns_argvDump (args : Args) :
    (argvDump hosted args).Returns fun _ code => code = 0 ∨ code = 1 := by
  have steps : ∀ step ∈ hosted.writeAll .stdout (Utf8.encode "argv_dump: argv\n") ::
      args.items.zipIdx.flatMap (dumpLine hosted), step.Returns fun _ _ => True := by
    refine List.forall_mem_cons.2 ⟨?_, ?_⟩
    · exact (Facade.returns_writeAll .stdout _).mono fun _ _ _ => trivial
    · intro step hstep
      obtain ⟨item, -, hstep⟩ := List.mem_flatMap.1 hstep
      exact returns_dumpLine item step hstep
  refine (Program.returns_inOrder steps).bind fun _ result _ => ?_
  cases result with
  | ok => exact .pure (.inl rfl)
  | error e => exact .pure (.inr rfl)

/-- **Both applets come to a verdict on every host**, with one exception. A read that is answered
with more than it had room for makes the second one crash, and nothing else does. Otherwise the exit
code is 0 or 1, and it is 1 exactly where a report was begun on the standard error. -/
theorem applets_come_to_verdict {σ : Type} (host : Host σ) (args : Args) (s : σ) :
    (∃ code, ((argvDump hosted args).run host s).outcome = .returned code ∧
      (code = 0 ∨ code = 1)) ∧
    let r := (roundTrip hosted args).run host s
    (r.outcome = .returned 0 ∨ r.outcome = .returned 1 ∨ r.outcome = .crashed .overrun) ∧
      (r.outcome = .returned 1 ↔ Reports r.events) ∧
      (r.outcome = .crashed .overrun ↔ Overread r.events) := by
  have concluded := concluded_roundTrip args σ host s
  exact ⟨returns_argvDump args σ host s, concluded.outcomes, concluded.returned_one_iff,
    concluded.crashed_iff⟩

/-- A host that takes all bytes, opens everything and reads more than there is room for. -/
def boastful : Host Unit where
  answer
    | .write _ data, s => ((data.length : Int), s)
    | .read _ buffer, s => ((((buffer.length + 1 : Nat) : Int), buffer), s)
    | .openFile .., s => ((3 : Int), s)
    | .close _, s => ((0 : Int), s)
    | .unlink _, s => ((0 : Int), s)
    | .mkdir .., s => ((0 : Int), s)
    | .chdir _, s => ((0 : Int), s)
    | .getcwd buffer, s => ((none, buffer), s)
    | .lseek .., s => ((0 : Int), s)
    | .errno, s => ((0 : Int), s)
    | .strerror _, s => (none, s)
    | .sleep _, s => ((0 : Nat), s)
    | .usleep _, s => ((0 : Int), s)
  stop _ s := s

set_option maxRecDepth 10000 in
example : ((roundTrip hosted ⟨[[]]⟩).run boastful ()).outcome = .crashed .overrun := by
  cbv

end Hostcall.Applet
