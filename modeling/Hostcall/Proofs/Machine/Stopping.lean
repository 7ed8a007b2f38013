import Hostcall.Proofs.Facade.Session
import Hostcall.Proofs.Machine.Run

/-!
# Applets that ask to be stopped

Exit and abort come back from no host, so what stands behind them in an applet is never performed
(`performed_stop_last`). To the machine and to the caller of a run such an applet is one that returns
the status at that point: the result is the same, and so is the machine, but for the one call that
was counted (`stop_ends_run`). Where the applet does not get there, the call makes no difference at
all.
-/

namespace Hostcall

/-- The message that goes before a stop. -/
def Stop.entry : Stop → LogEntry
  | .exit status => ⟨.trace, "exit(" ++ toString status ++ ")"⟩
  | .abort => ⟨.trace, "abort"⟩

/-- Asks to be stopped. -/
def Facade.stopFor (f : Facade) : Stop → Program Error
  | .exit status => f.exit status
  | .abort => f.abort

/-- Whether an operation asks to be stopped. -/
def Operation.isStop : Operation → Bool
  | .exit _ => true
  | .abort => true
  | _ => false

namespace Applet.Body

variable {α : Type}

/-- An applet that asks to be stopped after a first part, with what it would go on to do. -/
def stoppingAfter (first : Facade → Args → Program α) (reason : Stop)
    (rest : Facade → Args → α → Error → Program Int) : Body := fun f args => do
  let a ← first f args
  let e ← f.stopFor reason
  rest f args a e

/-- An applet that returns a status after a first part. -/
def returningAfter (first : Facade → Args → Program α) (status : Int) : Body := fun f args => do
  let _ ← first f args
  return status

end Applet.Body

open Facade (hosted)

variable {α β σ : Type}

/-- To stop is to log the entry of the reason and not come back. -/
theorem Facade.runUpTo_stopFor (breaks : Request → σ → Bool) (host : Host σ) (reason : Stop)
    (s : σ) :
    (hosted.stopFor reason).runUpTo breaks host s =
      ⟨[.noted reason.entry, .stopped reason], .stopped reason, host.stop reason s⟩ := by
  cases reason <;> rfl

/-- What stands behind a stop is not run. -/
theorem Facade.runUpTo_stopFor_bind (breaks : Request → σ → Bool) (host : Host σ) (reason : Stop)
    (rest : Error → Program β) (s : σ) :
    (hosted.stopFor reason >>= rest).runUpTo breaks host s =
      ⟨[.noted reason.entry, .stopped reason], .stopped reason, host.stop reason s⟩ := by
  rw [Program.runUpTo_bind, runUpTo_stopFor]
  rfl

/-- A stop is the last operation that a session performs. -/
theorem Session.performed_stop_last (host : Host σ) (session : Session α) (s : σ)
    {before later : List Performed} {p : Performed} (stops : p.operation.isStop = true)
    (performed : session.performed hosted host s = before ++ p :: later) : later = [] := by
  induction session generalizing s before with
  | done a => simp [Session.performed] at performed
  | perform op next ih =>
    rw [Session.performed] at performed
    cases before with
    | nil =>
      obtain ⟨rfl, rest⟩ := List.cons.inj performed
      cases op with
      | exit status => exact rest.symm
      | abort => exact rest.symm
      | _ => contradiction
    | cons other before =>
      obtain ⟨-, rest⟩ := List.cons.inj performed
      cases outcome : ((hosted.perform op).run host s).outcome with
      | returned result =>
        rw [outcome] at rest
        exact ih result _ rest
      | stopped reason => simp [outcome] at rest
      | crashed cause => simp [outcome] at rest

namespace Machine

/-- The first part of an applet, with the machine answering its calls. -/
def opening (m : Machine) (argv : List String) (first : Facade → Args → Program α) :
    Run Machine α :=
  (first hosted (argsOf argv)).runUpTo breaks host m

/-- A run that is stopped after an opening is like one that returns the status there. -/
structure StopsLikeReturn (opening : Run Machine α) (reason : Stop) (stopped returned : MachineRun)
    (events : List Event) : Prop where
  verdict : stopped.verdict = returned.verdict
  /-- The stop is reached: all output is kept and the status passed on, one call is counted, and
  nothing happens after it. -/
  reached : ∀ a, opening.outcome = .returned a →
    stopped.verdict = .finished
      ⟨stopStatus reason, opening.state.stdout.bytes, opening.state.stderr.bytes⟩ ∧
    stopped.machine =
      { returned.machine with calls := returned.machine.calls.addStop reason } ∧
    events = opening.events ++ [.noted reason.entry, .stopped reason]
  /-- The opening crashes, or it asks to be stopped itself. -/
  unreached : (∀ a, opening.outcome ≠ .returned a) →
    stopped = returned ∧ events = opening.events

/-- A program that never gets to its stop never gets to the return in its place. -/
theorem StopsLikeReturn.of_unreached {opening : Run Machine α} {reason : Stop}
    {stopped returned : MachineRun} {events : List Event}
    (never : ∀ a, opening.outcome ≠ .returned a) (same : stopped = returned)
    (all : events = opening.events) :
    StopsLikeReturn opening reason stopped returned events where
  verdict := congrArg MachineRun.verdict same
  reached a reached := absurd reached (never a)
  unreached _ := ⟨same, all⟩

variable (m : Machine) (argv : List String) (first : Facade → Args → Program α)

/-- Stopping after a first part runs that part and stops. -/
theorem play_stoppingAfter (reason : Stop) (rest : Facade → Args → α → Error → Program Int) :
    m.play argv (.stoppingAfter first reason rest) =
      (m.opening argv first).followedBy fun _ s =>
        ⟨[.noted reason.entry, .stopped reason], .stopped reason, host.stop reason s⟩ := by
  unfold play Applet.Body.stoppingAfter
  rw [Program.runUpTo_bind]
  simp only [Facade.runUpTo_stopFor_bind]
  rfl

/-- Returning after a first part runs that part and returns. -/
theorem play_returningAfter (status : Int) :
    m.play argv (.returningAfter first status) =
      (m.opening argv first).followedBy fun _ s => ⟨[], .returned status, s⟩ := by
  unfold play Applet.Body.returningAfter
  rw [Program.runUpTo_bind]
  rfl

/-- **A stop ends a run exactly there**, whatever the applet would go on to do. -/
theorem stop_ends_run (reason : Stop) (rest : Facade → Args → α → Error → Program Int) :
    StopsLikeReturn (m.opening argv first) reason
      (m.run argv (.stoppingAfter first reason rest))
      (m.run argv (.returningAfter first (stopStatus reason)))
      (m.play argv (.stoppingAfter first reason rest)).events := by
  have stopping := m.play_stoppingAfter argv first reason rest
  have returning := m.play_returningAfter argv first (stopStatus reason)
  generalize m.opening argv first = opening at stopping returning ⊢
  obtain ⟨events, outcome, after⟩ := opening
  cases outcome with
  | returned a =>
    have stopped : (m.play argv (.stoppingAfter first reason rest)).outcome.status? =
        some (stopStatus reason) := by
      rw [stopping]
      rfl
    have returned : (m.play argv (.returningAfter first (stopStatus reason))).outcome.status? =
        some (stopStatus reason) := by
      rw [returning]
      rfl
    obtain ⟨verdict, machine⟩ := run_of_status stopped
    obtain ⟨verdict', machine'⟩ := run_of_status returned
    rw [stopping] at verdict machine
    rw [returning] at verdict' machine'
    refine ⟨verdict.trans verdict'.symm, ?_, ?_⟩
    · intro _ _
      rw [verdict, machine, machine', stopping]
      exact ⟨rfl, rfl, rfl⟩
    · intro crashes
      exact absurd rfl (crashes a)
  | stopped other =>
    refine .of_unreached (by simp) (run_congr (stopping.trans returning.symm)) ?_
    rw [stopping]
    rfl
  | crashed cause =>
    refine .of_unreached (by simp) (run_congr (stopping.trans returning.symm)) ?_
    rw [stopping]
    rfl

end Machine

end Hostcall
