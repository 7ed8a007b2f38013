import Hostcall.Proofs.Facade.Sleeping
import Hostcall.Proofs.Machine.Output
import Hostcall.Proofs.Machine.Removed
import Hostcall.Proofs.Machine.View

/-!
# The clock

A machine does not wait: its clock counts the time that it was asked to sleep. Only two calls move
it, each by the time that passes in it (`Event.micros`), so the clock after any history shows the
time that passed in that history (`clock_acts`). A call that would move it past its end breaks off,
and the clock stays. So a program runs to its own end if the clock has room for all the sleeps in it
(`runUpTo_of_room`), and it crashes if it has not (`crashed_of_past`). Main statement:
`durations_split`.
-/

namespace Hostcall

open Facade (hosted SecondsSlept RestSlept Slept)

/-- The microseconds that pass in an event: those of the seconds that were slept, and those of a
shorter sleep that was accepted. -/
def Event.micros : Event → Nat
  | asked (.sleep seconds) left => (seconds - left) * 1000000
  | asked (.usleep micros) n => if n < 0 then 0 else micros
  | _ => 0

/-- The microseconds that pass in some events. -/
def elapsed : List Event → Nat
  | [] => 0
  | event :: events => event.micros + elapsed events

/-- Times add up. -/
theorem elapsed_append (events later : List Event) :
    elapsed (events ++ later) = elapsed events + elapsed later := by
  induction events with
  | nil => exact (Nat.zero_add _).symm
  | cons event events ih => rw [List.cons_append, elapsed, ih, elapsed, Nat.add_assoc]

namespace Machine

variable {m after : Machine} {request : Request} {argv : List String} {body : Applet.Body}
  {d : Duration} {events : List Event} {result : Except Error Unit}

/-- A sleep that was refused took no time. -/
theorem micros_of_fails {reply : request.Reply} (fails : request.Fails reply) :
    (Event.asked request reply).micros = 0 := by
  cases request with
  | usleep micros => exact if_pos fails
  | sleep => contradiction
  | _ => rfl

/-- Short of its end, the clock moves on by what was asked for. -/
theorem slept_later {micros : Nat} (room : m.slept + micros < clockEnd) :
    (m.later micros).slept = m.slept + micros :=
  if_pos room

/-- What the clock cannot show leaves it where it is. -/
theorem slept_later_of_past {micros : Nat} (past : clockEnd ≤ m.slept + micros) :
    (m.later micros).slept = m.slept :=
  if_neg (Nat.not_lt.2 past)

/-- Sleeping in seconds breaks the run exactly when it reaches the end of the clock. -/
theorem breaks_sleep_iff (m : Machine) (seconds : Nat) :
    breaks (.sleep seconds) m = true ↔ clockEnd ≤ m.slept + seconds * 1000000 :=
  decide_eq_true_iff

/-- Sleeping in microseconds is refused from a whole second on, so it can break only below one. -/
theorem breaks_usleep_iff (m : Machine) (micros : Nat) :
    breaks (.usleep micros) m = true ↔ micros < 1000000 ∧ clockEnd ≤ m.slept + micros := by
  simp only [breaks, Bool.and_eq_true, decide_eq_true_eq]

/-- What takes effect and is answered moves the clock by the time that passes in it. -/
theorem Succeeded.slept {reply : request.Reply} (h : Succeeded m request reply after)
    (answered : breaks request m = false) :
    after.slept = m.slept + (Event.asked request reply).micros := by
  cases h with
  | write wrote => cases wrote <;> rfl
  | read read => cases read <;> rfl
  | sleep seconds =>
    refine slept_later (Nat.not_le.1 fun past => ?_)
    rw [(breaks_sleep_iff m seconds).2 past] at answered
    contradiction
  | @usleep micros short =>
    refine slept_later (Nat.not_le.1 fun past => ?_)
    rw [(breaks_usleep_iff m micros).2 ⟨short, past⟩] at answered
    contradiction
  | _ => rfl

/-- A call that is answered moves the clock by the time that passes in it. -/
theorem clock_perform (answered : breaks request m = false) :
    (m.perform request).2.slept =
      m.slept + (Event.asked request (m.perform request).1).micros := by
  rcases m.takesEffect_cases request with ⟨-, fails, -, e, failed⟩ | ⟨-, succeeded⟩
  · rw [micros_of_fails fails, failed]
    rfl
  · exact succeeded.slept (m := m.counted request) answered

/-- Less than a second is slept and answered with `0`. -/
theorem answer_usleep (m : Machine) {micros : Nat} (short : micros < 1000000) :
    m.perform (.usleep micros) = ((0 : Int), (m.counted (.usleep micros)).later micros) := by
  show settle _ (usleep _ micros) = _
  rw [usleep, if_neg (Nat.not_le.2 short)]
  rfl

/-- A call that breaks off leaves the clock, which has no room for the time of the call. -/
theorem clock_of_breaks (broken : breaks request m = true) :
    (m.perform request).2.slept = m.slept ∧
      clockEnd ≤ m.slept + (Event.asked request (m.perform request).1).micros := by
  cases request with
  | sleep seconds =>
    have past := (breaks_sleep_iff m seconds).1 broken
    exact ⟨slept_later_of_past (m := m.counted (.sleep seconds)) past, past⟩
  | usleep micros =>
    obtain ⟨short, past⟩ := (breaks_usleep_iff m micros).1 broken
    rw [answer_usleep m short]
    exact ⟨slept_later_of_past (m := m.counted (.usleep micros)) past, past⟩
  | _ => contradiction

/-- The clock never shows more than it can. -/
theorem later_lt_clockEnd (shown : m.slept < clockEnd) (micros : Nat) :
    (m.later micros).slept < clockEnd := by
  by_cases room : m.slept + micros < clockEnd
  · rw [slept_later room]
    exact room
  · rw [slept_later_of_past (Nat.not_lt.1 room)]
    exact shown

/-- A call leaves the clock short of its end. -/
theorem Succeeded.slept_lt_clockEnd {reply : request.Reply} (h : Succeeded m request reply after)
    (shown : m.slept < clockEnd) : after.slept < clockEnd := by
  cases h with
  | write wrote => cases wrote <;> exact shown
  | read read => cases read <;> exact shown
  | sleep seconds => exact later_lt_clockEnd shown _
  | usleep => exact later_lt_clockEnd shown _
  | _ => exact shown

/-- So does a turn. -/
theorem slept_lt_clockEnd_turn (m : Machine) (turn : Turn) (shown : m.slept < clockEnd) :
    (m.turn turn).slept < clockEnd := by
  cases turn with
  | call request =>
    rcases m.perform_cases request with ⟨e, failed⟩ | succeeded
    · rw [show m.turn (.call request) = _ from failed]
      exact shown
    · exact succeeded.slept_lt_clockEnd (m := m.counted request) shown
  | _ => exact shown

/-- The clock after a run shows what it did before, and the time that passed in the run. -/
theorem clock_runUpTo {α : Type} (p : Program α) (m : Machine) :
    (p.runUpTo breaks host m).state.slept =
      m.slept + elapsed (p.runUpTo breaks host m).events := by
  induction p generalizing m with
  | done a => rfl
  | ask request next ih =>
    cases broken : breaks request m with
    | true =>
      rw [Program.runUpTo_ask_of_breaks _ _ broken]
      exact (clock_of_breaks broken).1
    | false =>
      have later := ih (m.perform request).1 (m.perform request).2
      rw [clock_perform broken, Nat.add_assoc] at later
      rw [Program.runUpTo_ask_of_answered _ _ broken]
      exact later
  | note entry next ih =>
    refine (ih m).trans (congrArg (m.slept + ·) ?_)
    exact (Nat.zero_add _).symm
  | stop reason => rfl
  | crash cause => rfl

/-- Where the clock has room for all the sleeps of a program, none of its calls breaks off. -/
theorem runUpTo_of_room {α : Type} {p : Program α} {m : Machine}
    (room : m.slept + elapsed (p.run host m).events < clockEnd) :
    p.runUpTo breaks host m = p.run host m := by
  induction p generalizing m with
  | done a => rfl
  | ask request next ih =>
    let reply := (m.perform request).1
    let between := (m.perform request).2
    have room : m.slept + ((Event.asked request reply).micros +
        elapsed ((next reply).run host between).events) < clockEnd := room
    have answered : breaks request m = false := by
      rw [← Bool.not_eq_true]
      intro broken
      have past : clockEnd ≤ m.slept + (Event.asked request reply).micros :=
        (clock_of_breaks broken).2
      omega
    have clock : between.slept = m.slept + (Event.asked request reply).micros :=
      clock_perform answered
    have rest := ih reply (m := between) (by omega)
    rw [Program.runUpTo_ask_of_answered _ _ answered]
    exact congrArg (Run.after · [.asked request reply]) rest
  | note entry next ih =>
    have room : m.slept + (0 + elapsed (next.run host m).events) < clockEnd := room
    simp only [Program.runUpTo, Program.run, ih (m := m) (by omega)]
  | stop reason => rfl
  | crash cause => rfl

/-- Where the clock has no room for all the sleeps of a program, one of its calls breaks off. -/
theorem crashed_of_past {α : Type} {p : Program α} {m : Machine} (shown : m.slept < clockEnd)
    (past : clockEnd ≤ m.slept + elapsed (p.run host m).events) :
    (p.runUpTo breaks host m).outcome = .crashed .overrun := by
  induction p generalizing m with
  | done a => exact absurd past (Nat.not_le.2 shown)
  | ask request next ih =>
    cases broken : breaks request m with
    | true => rw [Program.runUpTo_ask_of_breaks _ _ broken]
    | false =>
      let reply := (m.perform request).1
      let between := (m.perform request).2
      have past : clockEnd ≤ m.slept + ((Event.asked request reply).micros +
        elapsed ((next reply).run host between).events) := past
      have clock : between.slept = m.slept + (Event.asked request reply).micros :=
        clock_perform broken
      have shown : between.slept < clockEnd := slept_lt_clockEnd_turn m (.call request) shown
      have later : clockEnd ≤ between.slept + elapsed ((next reply).run host between).events := by
        omega
      rw [Program.runUpTo_ask_of_answered _ _ broken]
      exact ih reply shown later
  | note entry next ih =>
    have past : clockEnd ≤ m.slept + (0 + elapsed (next.run host m).events) := past
    exact ih shown (by omega)
  | stop reason => exact absurd past (Nat.not_le.2 shown)
  | crash cause => exact absurd past (Nat.not_le.2 shown)

/-- What happens in an act: the events of a run, or a call between two runs that is answered. -/
def happenedIn (m : Machine) : Act → List Event
  | .run argv body => (m.play argv body).events
  | .between (.call request) =>
    if breaks request m then [] else [.asked request (m.perform request).1]
  | .between _ => []

/-- What happens in some acts, one after the other. -/
def happened (m : Machine) : List Act → List Event
  | [] => []
  | act :: history => m.happenedIn act ++ (m.act act).happened history

/-- The end of a run leaves the clock alone. -/
theorem slept_run (m : Machine) (argv : List String) (body : Applet.Body) :
    (m.run argv body).machine.slept = (m.play argv body).state.slept := by
  rcases status_or_crash (m.play argv body).outcome with ⟨status, ended⟩ | ⟨cause, crash⟩
  · rw [(run_of_status ended).2]
    rfl
  · rw [(run_of_crash crash).2]

/-- What one act adds to the clock is what it was seen to sleep. -/
theorem clock_act (m : Machine) (act : Act) :
    (m.act act).slept = m.slept + elapsed (m.happenedIn act) := by
  cases act with
  | run argv body => exact (m.slept_run argv body).trans (clock_runUpTo _ m)
  | between turn =>
    cases turn with
    | call request =>
      rw [happenedIn]
      split
      · rename_i broken
        exact (clock_of_breaks broken).1
      · rename_i answered
        exact clock_perform (Bool.eq_false_iff.2 answered)
    | _ => rfl

/-- No history brings the clock to its end. -/
theorem slept_lt_clockEnd_acts (shown : m.slept < clockEnd) (history : List Act) :
    (m.acts history).slept < clockEnd := by
  induction history generalizing m with
  | nil => exact shown
  | cons act history ih =>
    obtain ⟨turns, reached⟩ := m.exists_after_act act
    have next : (m.act act).slept < clockEnd :=
      reached ▸ after_of_turn slept_lt_clockEnd_turn shown turns
    exact ih next

/-- The clock after some acts shows what it did before, and the time that passed in them. -/
theorem clock_acts (m : Machine) (history : List Act) :
    (m.acts history).slept = m.slept + elapsed (m.happened history) := by
  induction history generalizing m with
  | nil => rfl
  | cons act history ih =>
    have later := ih (m.act act)
    rw [clock_act, Nat.add_assoc, ← elapsed_append] at later
    exact later

/-- A machine that was just built has slept no time. -/
theorem slept_of_build {steps : List SetupStep} {warnings : List LogEntry}
    (built : build steps = .ok (m, warnings)) : m.slept = 0 := by
  obtain ⟨s, -, start⟩ := exists_follow_of_build built
  have unmoved : s.start.1.slept = 0 := by
    unfold Setup.start
    dsimp only
    split <;> rfl
  rwa [start] at unmoved

theorem elapsed_sleep (seconds : Nat) :
    elapsed [.asked (.sleep seconds) (0 : Nat)] = seconds * 1000000 :=
  Nat.add_zero _

/-- Nobody wakes a machine, so nothing is left of the seconds. -/
theorem elapsed_of_secondsSlept {seconds left : Nat} {first second : List Event}
    (slept : SecondsSlept seconds first left) (replay : Replay host m (first ++ second) after) :
    left = 0 ∧ elapsed first = min seconds (UInt32.size - 1) * 1000000 ∧
      ∃ between, Replay host between second after := by
  cases slept with
  | nothing brief =>
    rw [brief, Nat.zero_min, Nat.zero_mul]
    exact ⟨rfl, rfl, m, replay⟩
  | asked long =>
    cases replay with
    | asked rest => exact ⟨rfl, elapsed_sleep _, _, rest⟩

/-- The rest of a duration, which is below a second, is slept whole. -/
theorem elapsed_of_restSlept {micros : Nat} (short : micros < 1000000)
    (slept : RestSlept micros 0 events result) (replay : Replay host m events after) :
    result = .ok () ∧ elapsed events = micros := by
  cases slept with
  | nothing moot =>
    obtain rfl : micros = 0 := moot.resolve_right (Nat.lt_irrefl 0)
    exact ⟨rfl, rfl⟩
  | asked due spent fine =>
    exact ⟨rfl, (Nat.add_zero _).trans (if_neg (Int.not_lt.2 fine))⟩
  | failed due spent negative =>
    -- The answer of a machine is known, and it is no failure.
    cases replay with
    | asked rest =>
      have fine : (host.answer (.usleep micros) m).1 = (0 : Int) :=
        congrArg Prod.fst (answer_usleep m short)
      exact absurd (fine ▸ negative) (Int.lt_irrefl 0)

/-- On a machine a duration is slept to its last whole microsecond. -/
theorem elapsed_of_slept (proper : d.nanos < 1000000000) (slept : Slept d events result)
    (replay : Replay host m events after) :
    result = .ok () ∧ elapsed events = d.due := by
  cases slept with
  | parts seconds rest =>
    obtain ⟨rfl, whole, between, replay⟩ := elapsed_of_secondsSlept seconds replay
    obtain ⟨rfl, part⟩ := elapsed_of_restSlept (Duration.micros_lt proper) rest replay
    exact ⟨rfl, by rw [elapsed_append, whole, part, Duration.due]⟩

/-- With all its calls answered, a duration is slept to its last whole microsecond. -/
theorem run_sleepFor (proper : d.nanos < 1000000000) (m : Machine) :
    ∃ events after, (hosted.sleepFor d).run host m = ⟨events, .returned (.ok ()), after⟩ ∧
      elapsed events = d.due := by
  obtain ⟨events, result, after, ran, slept⟩ := Facade.exists_slept host d m
  have replay := (hosted.sleepFor d).replay host m
  rw [ran] at replay
  obtain ⟨rfl, total⟩ := elapsed_of_slept proper slept replay
  exact ⟨events, after, ran, total⟩

/-- Where the clock has room for it, sleeping for a duration succeeds and moves the clock by the
whole microseconds of the duration. -/
theorem runUpTo_sleepFor (proper : d.nanos < 1000000000) (room : m.slept + d.due < clockEnd) :
    ∃ events after,
      (hosted.sleepFor d).runUpTo breaks host m = ⟨events, .returned (.ok ()), after⟩ ∧
      after.slept = m.slept + d.due := by
  obtain ⟨events, after, ran, total⟩ := run_sleepFor proper m
  have unbroken : (hosted.sleepFor d).runUpTo breaks host m = (hosted.sleepFor d).run host m := by
    apply runUpTo_of_room
    rw [ran, total]
    exact room
  have clock := clock_runUpTo (hosted.sleepFor d) m
  rw [unbroken, ran, total] at clock
  exact ⟨events, after, unbroken.trans ran, clock⟩

/-- Sleeping past the end of the clock crashes the program. -/
theorem crashed_sleepFor (proper : d.nanos < 1000000000) (shown : m.slept < clockEnd)
    (past : clockEnd ≤ m.slept + d.due) :
    ((hosted.sleepFor d).runUpTo breaks host m).outcome = .crashed .overrun := by
  obtain ⟨events, after, ran, total⟩ := run_sleepFor proper m
  apply crashed_of_past shown
  rw [ran, total]
  exact past

/-- **Durations are split into the calls that sleep them.** On every host there is at most one sleep,
for the seconds, and after it at most one for the microseconds, of which there are fewer than a
million; sleeping fails only where the second of them does. The clock of a machine that was built
shows the time that passed in its history. There sleeping for a duration succeeds if the clock has
room for it, and crashes if it has not. It never takes longer than the duration, and where the
seconds can be asked for, it falls short of the duration by less than a microsecond. -/
theorem durations_split (proper : d.nanos < 1000000000) :
    d.micros < 1000000 ∧
    (∀ {σ : Type} (s : σ) (host : Host σ), ∃ events result after,
      (hosted.sleepFor d).run host s = ⟨events, .returned result, after⟩ ∧ Slept d events result) ∧
    (∀ {steps : List SetupStep} {warnings : List LogEntry} {m : Machine} (history : List Act),
      build steps = .ok (m, warnings) →
      (m.acts history).slept = elapsed (m.happened history) ∧
        (m.acts history).slept < clockEnd) ∧
    ∀ m : Machine, m.slept < clockEnd →
      (m.slept + d.due < clockEnd → ∃ events after,
        (hosted.sleepFor d).runUpTo breaks host m = ⟨events, .returned (.ok ()), after⟩ ∧
        after.slept * 1000 ≤ m.slept * 1000 + d.inNanos ∧
        (d.seconds < UInt32.size → m.slept * 1000 + d.inNanos < after.slept * 1000 + 1000)) ∧
      (clockEnd ≤ m.slept + d.due →
        ((hosted.sleepFor d).runUpTo breaks host m).outcome = .crashed .overrun) := by
  refine ⟨Duration.micros_lt proper, fun s host => Facade.exists_slept host d s,
    fun history built => ?_, fun m shown => ⟨fun room => ?_, crashed_sleepFor proper shown⟩⟩
  · have start := slept_of_build built
    refine ⟨?_, slept_lt_clockEnd_acts (start ▸ by decide) history⟩
    rw [clock_acts, start, Nat.zero_add]
  · obtain ⟨events, after, ran, clock⟩ := runUpTo_sleepFor proper room
    refine ⟨events, after, ran, ?_⟩
    rw [clock, Nat.add_mul, Nat.add_assoc]
    exact ⟨Nat.add_le_add_left d.due_le _,
      fun askable => Nat.add_lt_add_left (Duration.lt_due askable) _⟩

/-- Of six seconds less a nanosecond, all but the last microsecond is slept. A call for a million
microseconds is refused and leaves the clock where the call for five seconds left it. -/
theorem durations_split_below_six_seconds :
    let d : Duration := ⟨5, 999999999⟩
    let calls : List Act := [.between (.call (.sleep 5)), .between (.call (.usleep 1000000))]
    d.nanos < 1000000000 ∧ initial.slept + d.due < clockEnd ∧
    (∃ events after,
      (hosted.sleepFor d).runUpTo breaks host initial = ⟨events, .returned (.ok ()), after⟩ ∧
      after.slept = 5999999) ∧
    build [] = .ok (initial, []) ∧ (initial.acts calls).slept = 5000000 := by
  intro d calls
  have proper : d.nanos < 1000000000 := by decide
  have start : initial.slept = 0 := rfl
  have length : d.inNanos = 5999999999 := by decide
  have room : initial.slept + d.due < clockEnd := by decide
  obtain ⟨-, -, clock, machines⟩ := durations_split proper
  obtain ⟨events, after, ran, most, least⟩ := (machines initial (by decide)).1 room
  have least := least (by decide)
  rw [start, length] at most least
  exact ⟨proper, room, ⟨events, after, ran, by omega⟩, build_nil,
    (clock calls build_nil).1.trans (by decide)⟩

/-- Sleeps of one length move the clock by that length each, as far as it goes. -/
theorem slept_acts_sleeps {seconds micros : Nat} (length : seconds * 1000000 = micros) (n : Nat)
    (room : m.slept + n * micros < clockEnd) :
    (m.acts (List.replicate n (.between (.call (.sleep seconds))))).slept =
      m.slept + n * micros := by
  induction n generalizing m with
  | zero => rw [Nat.zero_mul]; rfl
  | succ n ih =>
    rw [Nat.succ_mul] at room ⊢
    have first : (m.act (.between (.call (.sleep seconds)))).slept = m.slept + micros := by
      have here : m.slept + seconds * 1000000 < clockEnd := by omega
      rw [← length]
      exact slept_later (m := m.counted (.sleep seconds)) here
    have rest := ih (m := m.act (.between (.call (.sleep seconds)))) (by omega)
    rw [first] at rest
    rw [List.replicate_succ]
    exact rest.trans (by omega)

/-- After the longest sleeps that can be asked for, as many as there are seconds in one of them and
two more, the clock is at its last second, and sleeping for one more crashes. -/
theorem sleepFor_crashes_at_clockEnd :
    let sleeps : List Act := List.replicate 4294967297 (.between (.call (.sleep 4294967295)))
    build [] = .ok (initial, []) ∧
      (initial.acts sleeps).slept = 18446744073709551615000000 ∧
      ((hosted.sleepFor ⟨1, 0⟩).runUpTo breaks host (initial.acts sleeps)).outcome =
        .crashed .overrun := by
  intro sleeps
  have start : initial.slept = 0 := rfl
  have clock : (initial.acts sleeps).slept = 18446744073709551615000000 :=
    (slept_acts_sleeps (m := initial) (by decide : 4294967295 * 1000000 = 4294967295000000)
      4294967297 (by rw [start]; decide)).trans (by rw [start])
  refine ⟨build_nil, clock, crashed_sleepFor (by decide) ?_ ?_⟩
  · rw [clock]
    decide
  · rw [clock]
    decide

end Machine

end Hostcall
