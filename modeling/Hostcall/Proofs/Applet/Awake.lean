import Hostcall.Proofs.Applet.Custody
import Hostcall.Proofs.Applet.Listing
import Hostcall.Proofs.Facade.WholeWrites
import Hostcall.Proofs.Machine.Run

/-!
# Applets that do not sleep

A machine breaks a call off only where its clock would have to go past the end. A program that does
not sleep is never broken off, so its run is the one in which all calls are answered
(`runUpTo_of_awake`). The known applets are such programs (`awake_of_known`), and with that what was
said of their programs holds of their runs, as that a cap on writes is out of sight
(`run_hides_cap`).
-/

namespace Hostcall

open Facade (hosted Delivery Written Sending)
open Applet.RoundTrip (Course)
open Program (Ends)

/-- Whether an event is a sleep. -/
def Event.sleeps : Event → Bool
  | .asked (.sleep _) _ => true
  | .asked (.usleep _) _ => true
  | _ => false

/-- Events of which none is a sleep. -/
def Awake (events : List Event) : Prop := ∀ event ∈ events, event.sleeps = false

section

variable {σ : Type} {host : Host σ} {fd : Fd} {data : Bytes} {datas : List Bytes} {s after : σ}
  {before later events : List Event} {result : Except Error Unit}

theorem Awake.append (first : Awake before) (rest : Awake later) : Awake (before ++ later) :=
  List.forall_mem_append.2 ⟨first, rest⟩

/-- A program that does not sleep is not broken off. -/
theorem Machine.runUpTo_of_awake {α : Type} {p : Program α} {m : Machine}
    (awake : Awake (p.run Machine.host m).events) :
    p.runUpTo breaks Machine.host m = p.run Machine.host m := by
  induction p generalizing m with
  | done a => rfl
  | ask request next ih =>
    let reply := (Machine.host.answer request m).1
    let between := (Machine.host.answer request m).2
    have awake : Awake (.asked request reply :: ((next reply).run Machine.host between).events) :=
      awake
    obtain ⟨here, later⟩ := List.forall_mem_cons.1 awake
    have answered : breaks request m = false := by
      cases request with
      | sleep => contradiction
      | usleep => contradiction
      | _ => rfl
    rw [Program.runUpTo_ask_of_answered _ _ answered, ih reply later]
    rfl
  | note entry next ih =>
    obtain ⟨-, later⟩ := List.forall_mem_cons.1 awake
    simp only [Program.runUpTo, ih later]
    rfl
  | stop reason => rfl
  | crash cause => rfl

/-- Writing all bytes asks for writes and for the register, and for no sleep. -/
theorem Facade.Delivery.awake (h : Delivery fd data events result) : Awake events := by
  induction h with
  | last ending => cases ending <;> simp [Awake, Event.sleeps]
  | more offered taken rest ih => exact List.forall_mem_cons.2 ⟨rfl, ih⟩

theorem Facade.Written.awake (h : Written host fd datas s events after) : Awake events := by
  induction h with
  | nil => exact List.forall_mem_nil _
  | cons ran rest ih => exact (Facade.delivery_of_run ran).awake.append ih

theorem Facade.Sending.awake (h : Sending host fd datas s events result after) : Awake events := by
  cases h with
  | all written => exact written.awake
  | stopped split written failed =>
    exact written.awake.append (Facade.delivery_of_run failed).awake

/-- The listing is written and nothing else is done. -/
theorem Applet.awake_argvDump (args : Args) :
    (Applet.argvDump hosted args).Ends fun events _ => Awake events := by
  intro σ host s
  obtain ⟨events, result, after, sending⟩ :=
    Facade.exists_sending host .stdout (Applet.listingData args) s
  rw [Applet.argvDump_eq, Program.run_bind, sending.run_eq]
  exact sending.awake.append (List.forall_mem_nil _)

theorem Applet.RoundTrip.Course.awake {texts : Fd → String → Prop} {reads : Nat → Int → Prop}
    {held last : Option Fd} (h : Course texts reads held events last) : Awake events := by
  induction h with
  | done => exact List.forall_mem_nil _
  | step first rest ih => exact List.forall_mem_cons.2 ⟨by cases first <;> rfl, ih⟩

/-- None of the known applets sleeps, on whatever host. -/
theorem Applet.awake_of_known {a : Applet} (known : a ∈ Applet.all) (args : Args) :
    (a.body hosted args).Ends fun events _ => Awake events := by
  simp only [Applet.all, List.mem_cons, List.not_mem_nil, or_false] at known
  rcases known with rfl | rfl
  · exact awake_argvDump args
  · exact (RoundTrip.concluded_roundTrip args).mono fun _ _ concluded => concluded.course.awake

end

namespace Machine

variable {cap : Nat}

/-- The run of a known applet is that of its program. -/
theorem runUpTo_known {a : Applet} (known : a ∈ Applet.all) (args : Args) (m : Machine) :
    (a.body hosted args).runUpTo breaks Machine.host m = (a.body hosted args).run Machine.host m :=
  runUpTo_of_awake (Applet.awake_of_known known args Machine Machine.host m)

/-- The result of a known applet does not depend on the cap, and neither does its log. -/
theorem run_hides_cap (m : Machine) (positive : 0 < cap) {a : Applet} (known : a ∈ Applet.all)
    (argv : List String)
    (room : Roomy ((a.body hosted (argsOf argv)).run host { m with writeCap := none }).events) :
    let free := { m with writeCap := none }.run argv a.body
    let capped := { m with writeCap := some cap }.run argv a.body
    capped.verdict = free.verdict ∧ capped.log = free.log ∧
      capped.machine = free.machine.recapped (some cap) capped.machine.calls.write := by
  have same : SameButWrites cap
      ((a.body hosted (argsOf argv)).run host { m with writeCap := none })
      ((a.body hosted (argsOf argv)).run host { m with writeCap := some cap }) :=
    CapBlind.applet positive known (argsOf argv) { m with writeCap := none } m.calls.write rfl room
  simp only [Machine.run, runUpTo_known known]
  generalize (a.body hosted (argsOf argv)).run host { m with writeCap := none } = free at same
  generalize (a.body hosted (argsOf argv)).run host { m with writeCap := some cap } = capped at same
  have log : capped.log = free.log := by
    rw [← capped.log_withoutWrites, ← free.log_withoutWrites, Run.log, Run.log, same.events]
  rw [same.outcome, log]
  cases free.outcome with
  | returned exitCode =>
    dsimp only
    rw [same.state]
    exact ⟨rfl, rfl, rfl⟩
  | stopped reason =>
    dsimp only
    rw [same.state]
    exact ⟨rfl, rfl, rfl⟩
  | crashed cause => exact ⟨rfl, rfl, same.state⟩

end Machine

end Hostcall
