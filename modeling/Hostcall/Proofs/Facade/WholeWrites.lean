import Hostcall.Applet.Registry
import Hostcall.Machine.Run
import Hostcall.Machine.Setup
import Hostcall.Proofs.Facade.CapBlind

/-!
# Programs that write whole

A program writes whole if all its writing goes through `writeAll`, be it by way of formatted output
or of an applet (`WritesWhole`). Such a program comes to the same end in the same state whether or
not a machine caps its writes (`whole_writes_hide_cap`). The cap shows in the number of writes alone
(`length_writes_run_writeAll`).
-/

namespace Hostcall

open Facade (hosted run_writeAll_nil run_writeAll_failed run_writeAll_stalled run_writeAll_more)
open Machine (host)

namespace CapBlind

variable {cap : Nat}

/-- The listing shows no cap. -/
theorem argvDump (positive : 0 < cap) (args : Args) :
    CapBlind cap (Applet.argvDump hosted args) := by
  have steps : ∀ step ∈ hosted.writeAll .stdout (Utf8.encode "argv_dump: argv\n") ::
      args.items.zipIdx.flatMap (Applet.dumpLine hosted), CapBlind cap step := by
    intro step h
    rcases List.mem_cons.1 h with rfl | h
    · exact writeAll positive _ _
    · obtain ⟨item, -, h⟩ := List.mem_flatMap.1 h
      simp only [Applet.dumpLine, List.mem_cons, List.not_mem_nil, or_false] at h
      rcases h with rfl | rfl | rfl
      · exact writeFormatted positive _ _
      · exact writeAll positive _ _
      · exact writeAll positive _ _
  refine .bind (inOrder steps) fun result => ?_
  cases result <;> exact .pure _

theorem writeOut (positive : 0 < cap) (fd : Fd) :
    CapBlind cap (Applet.RoundTrip.writeOut hosted fd) := by
  have close : CapBlind cap (hosted.close fd) := perform positive (.close fd) rfl
  refine .bind (writeAll positive _ _) fun result => ?_
  cases result with
  | error e => exact .bind close fun _ => .pure _
  | ok =>
    refine .bind close fun result => ?_
    cases result <;> exact .pure _

theorem readBack (positive : 0 < cap) (fd : Fd) :
    CapBlind cap (Applet.RoundTrip.readBack hosted fd) := by
  refine .bind (perform positive (.read fd _) rfl) ?_
  rintro ⟨count, buffer⟩
  refine .bind (perform positive (.close fd) rfl) fun _ => ?_
  cases count with
  | error e => exact .pure _
  | ok n =>
    dsimp only
    split
    · exact .crash _
    · split <;> exact .pure _

theorem showDir (positive : 0 < cap) : CapBlind cap (Applet.RoundTrip.showDir hosted) := by
  refine .bind (perform positive .currentDir rfl) fun result => ?_
  cases result with
  | error e => exact .pure _
  | ok path => exact print positive _ _

theorem exercise (positive : 0 < cap) (path : String) :
    CapBlind cap (Applet.RoundTrip.exercise hosted path) := by
  refine .bind (perform positive (.unlink path) rfl) fun _ => ?_
  refine .bind (perform positive (.openFile path _ _) rfl) fun result => ?_
  cases result with
  | error e => exact .pure _
  | ok fd =>
    refine .bind (writeOut positive fd) fun result => ?_
    cases result with
    | error trouble => exact .pure _
    | ok =>
      refine .bind (perform positive (.openFile path _ _) rfl) fun result => ?_
      cases result with
      | error e => exact .pure _
      | ok fd => exact readBack positive fd

theorem attempt (positive : 0 < cap) (args : Args) :
    CapBlind cap (Applet.RoundTrip.attempt hosted args) := by
  unfold Applet.RoundTrip.attempt
  split
  · exact .pure _
  · exact .bind (showDir positive) fun _ => exercise positive _

theorem describeTrouble (positive : 0 < cap) (trouble : Applet.RoundTrip.Trouble) :
    CapBlind cap (Applet.RoundTrip.describe hosted trouble) := by
  cases trouble with
  | step name e => exact .bind (perform positive (.describe e) rfl) fun _ => .pure _
  | check what => exact .pure _

/-- Neither does the file that is written and read back. -/
theorem roundTrip (positive : 0 < cap) (args : Args) :
    CapBlind cap (Applet.roundTrip hosted args) := by
  refine .bind (writeAll positive _ _) fun _ => ?_
  refine .bind (attempt positive args) fun result => ?_
  cases result with
  | ok => exact .bind (writeAll positive _ _) fun _ => .pure _
  | error trouble =>
    refine .bind (describeTrouble positive trouble) fun message => ?_
    exact .bind (print positive _ _) fun _ => .pure _

/-- None of the known applets tells caps apart. -/
theorem applet (positive : 0 < cap) {a : Applet} (known : a ∈ Applet.all) (args : Args) :
    CapBlind cap (a.body hosted args) := by
  simp only [Applet.all, List.mem_cons, List.not_mem_nil, or_false] at known
  rcases known with rfl | rfl
  · exact argvDump positive args
  · exact roundTrip positive args

end CapBlind

namespace Machine

variable {fd : Fd} {data : Bytes} {cap : Nat}

/-- A write that takes something under a cap takes the first bytes. -/
theorem reply_of_perform_write {s next : Machine} {n : Int} (hcap : s.writeCap = some cap)
    (answer : s.perform (.write fd data) = (n, next)) (taken : 0 < n) :
    n.toNat = min cap data.length ∧ next.writeCap = some cap := by
  let counted := s.counted (.write fd data)
  have hcounted : (counted.capped data).length = min cap data.length := by
    simp [capped, counted, Machine.counted, hcap]
  obtain ⟨count, rfl, wrote⟩ := exists_wrote_of_taken answer taken
  rw [← hcounted]
  cases wrote with
  | stalled => contradiction
  | stdout => exact ⟨rfl, hcap⟩
  | stderr => exact ⟨rfl, hcap⟩
  | file => exact ⟨rfl, hcap⟩

/-- One piece taken off leaves one piece fewer. -/
theorem div_pieces {length : Nat} (positive : 0 < cap) (offered : 0 < length) :
    (length - min cap length + cap - 1) / cap + 1 = (length + cap - 1) / cap := by
  rw [← Nat.add_div_right _ positive]
  rcases Nat.le_total length cap with one | more
  · rw [Nat.min_eq_right one]
    have left : (length - length + cap - 1 + cap) / cap = 1 :=
      Nat.div_eq_of_lt_le (by omega) (by omega)
    have right : (length + cap - 1) / cap = 1 := Nat.div_eq_of_lt_le (by omega) (by omega)
    rw [left, right]
  · rw [Nat.min_eq_left more]
    congr 1
    omega

/-- Under a cap, writing all bytes takes one write for each full piece and one for what is left. -/
theorem length_writes_run_writeAll (positive : 0 < cap) {s : Machine} (hcap : s.writeCap = some cap)
    (ok : ((hosted.writeAll fd data).run host s).outcome = .returned (.ok ())) :
    (Facade.writes ((hosted.writeAll fd data).run host s).events).length =
      (data.length + cap - 1) / cap := by
  induction h : data.length using Nat.strongRecOn generalizing data s with
  | ind length ih =>
    by_cases offered : data = []
    · subst offered
      subst h
      rw [run_writeAll_nil]
      exact (Nat.div_eq_of_lt (by simp only [List.length_nil]; omega)).symm
    rcases answer : host.answer (.write fd data) s with ⟨n, next⟩
    rcases Int.lt_trichotomy n 0 with negative | rfl | taken
    · simp [run_writeAll_failed offered answer negative] at ok
    · simp [run_writeAll_stalled offered answer] at ok
    · have hlength : 0 < length := h ▸ List.length_pos_iff.2 offered
      obtain ⟨hn, hnext⟩ := reply_of_perform_write hcap answer taken
      rw [h] at hn
      rw [run_writeAll_more offered answer taken] at ok ⊢
      have rest : (data.drop n.toNat).length = length - min cap length := by
        rw [List.length_drop, h, hn]
      have less : length - min cap length < length := by omega
      rw [← div_pieces positive hlength, ← ih _ less hnext ok rest]
      rfl

end Machine

/-- The programs whose writing goes through `writeAll`: operations other than those that may write a
part, formatted output, pieces of it and the known applets, one after the other, each chosen by the
answers of those before it. -/
inductive WritesWhole : {α : Type} → Program α → Prop where
  | done {α : Type} (a : α) : WritesWhole (pure a : Program α)
  | operation {op : Operation} (whole : op.writesPart = false) : WritesWhole (hosted.perform op)
  | formatted (fd : Fd) (v : Formatted) : WritesWhole (hosted.writeFormatted fd v)
  | piece (w : Writer) (piece : String) : WritesWhole (w.write hosted piece)
  | applet {a : Applet} (known : a ∈ Applet.all) (args : Args) : WritesWhole (a.body hosted args)
  | andThen {α β : Type} {p : Program α} {f : α → Program β} (first : WritesWhole p)
      (next : ∀ a, WritesWhole (f a)) : WritesWhole (p >>= f)

/-- A program that writes in whole tells no caps apart. -/
theorem WritesWhole.capBlind {α : Type} {cap : Nat} (positive : 0 < cap) {p : Program α}
    (h : WritesWhole p) : CapBlind cap p := by
  induction h with
  | done a => exact .pure a
  | operation whole => exact .perform positive _ whole
  | formatted fd v => exact .writeFormatted positive fd v
  | piece w piece => exact .writePiece positive w piece
  | applet known args => exact .applet positive known args
  | andThen first next ihp ihf => exact .bind ihp ihf

/-- The log leaves out the writes anyway. -/
theorem Run.log_withoutWrites {σ α : Type} (r : Run σ α) :
    (Run.mk (withoutWrites r.events) r.outcome r.state).log = r.log := by
  unfold Run.log withoutWrites
  rw [List.filterMap_filter]
  congr 1
  funext event
  cases event with
  | noted entry => rfl
  | asked => simp
  | stopped => simp

namespace Machine

variable {α : Type} {cap : Nat}

/-- **A cap on writes is out of sight** of a program that writes whole. A machine with a cap gives
the same answers to all calls that do not write, and the program comes to the same end in the same
state, as on the machine without one, unless a file would grow too large there. What differs is the
number of writes, which is the number of full pieces, and one more for what is left. -/
theorem whole_writes_hide_cap (m : Machine) (positive : 0 < cap) {p : Program α}
    (whole : WritesWhole p) (room : Roomy (p.run host { m with writeCap := none }).events) :
    let free := p.run host { m with writeCap := none }
    let capped := p.run host { m with writeCap := some cap }
    capped.outcome = free.outcome ∧
      withoutWrites capped.events = withoutWrites free.events ∧
      capped.state = { free.state with
        writeCap := some cap
        calls := { free.state.calls with write := capped.state.calls.write } } ∧
      ∀ (s : Machine) (fd : Fd) (data : Bytes), s.writeCap = some cap →
        ((hosted.writeAll fd data).run host s).outcome = .returned (.ok ()) →
        (Facade.writes ((hosted.writeAll fd data).run host s).events).length =
          (data.length + cap - 1) / cap := by
  have same := whole.capBlind positive { m with writeCap := none } m.calls.write rfl room
  refine ⟨same.outcome, same.events, same.state, ?_⟩
  intro s fd data hcap ok
  exact length_writes_run_writeAll positive hcap ok

/-- Three bytes go to the output in one write, or in two under a cap of two bytes. -/
theorem whole_writes_hide_cap_on_output :
    let p := hosted.perform (.writeAll .stdout [104, 105, 33])
    let free := p.run host { initial with writeCap := none }
    let capped := p.run host { initial with writeCap := some 2 }
    (0 < 2 ∧ WritesWhole p ∧ Roomy free.events) ∧
      capped.outcome = free.outcome ∧
      withoutWrites capped.events = withoutWrites free.events ∧
      capped.state = { free.state with
        writeCap := some 2
        calls := { free.state.calls with write := capped.state.calls.write } } ∧
      ∀ (s : Machine) (fd : Fd) (data : Bytes), s.writeCap = some 2 →
        ((hosted.writeAll fd data).run host s).outcome = .returned (.ok ()) →
        (Facade.writes ((hosted.writeAll fd data).run host s).events).length =
          (data.length + 2 - 1) / 2 := by
  intro p free capped
  have positive : 0 < 2 := by decide
  have whole : WritesWhole p := .operation rfl
  have answer : host.answer (.write .stdout [104, 105, 33]) initial =
      ((3 : Int), (initial.perform (.write .stdout [104, 105, 33])).2) := rfl
  have events : free.events = [.asked (.write .stdout [104, 105, 33]) (3 : Int)] := by
    have run := run_writeAll_more (List.cons_ne_nil _ _) answer (by decide)
    have left : List.drop (Int.toNat 3) [104, 105, 33] = ([] : Bytes) := rfl
    rw [left, run_writeAll_nil] at run
    exact congrArg Run.events run
  have room : Roomy free.events := by
    intro before fd data n code later negative hevents
    have := congrArg List.length (events.symm.trans hevents)
    simp at this
    omega
  exact ⟨⟨positive, whole, room⟩, whole_writes_hide_cap initial positive whole room⟩

end Machine

/-- Setups that differ in the cap start machines that differ in the cap. -/
theorem Setup.start_writeCap (s : Setup) (cap : Option Nat) :
    { s with writeCap := cap }.start = ({ s.start.1 with writeCap := cap }, s.start.2) := by
  unfold Setup.start
  dsimp only
  split <;> rfl

end Hostcall
