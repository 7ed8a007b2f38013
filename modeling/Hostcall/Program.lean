import Hostcall.Host
import Hostcall.Log

/-!
# Programs over a host

A program asks a host, writes log messages and comes to an end in one of three ways: it returns, it
is stopped by the host on its own wish, or it crashes. `Program.run` lets a host answer and keeps
everything that happened, in order, so that a statement about the calls that a program makes is one
about a list. A host that cannot answer a call breaks off in it and crashes the program with it
(`Program.runUpTo`). Main statement: running one program after another appends what happened
(`run_bind`, `runUpTo_bind`).
-/

namespace Hostcall

/-- A crash, with its message if it was asked for. Going past the end of something has none, be it
the end of a buffer or that of a clock. -/
inductive Crash where
  | overrun
  | message (text : String)
deriving DecidableEq, Repr

/-- A computation that calls a host. -/
inductive Program (α : Type) : Type where
  | done (a : α)
  | ask (request : Request) (next : request.Reply → Program α)
  | note (entry : LogEntry) (next : Program α)
  | stop (reason : Stop)
  | crash (cause : Crash)

/-- One thing that happened in a run. -/
inductive Event where
  | asked (request : Request) (reply : request.Reply)
  | noted (entry : LogEntry)
  | stopped (reason : Stop)

/-- How a run ended. -/
inductive Outcome (α : Type) where
  | returned (a : α)
  | stopped (reason : Stop)
  | crashed (cause : Crash)

/-- A run: what happened, how it ended, and the state in which the host is left. -/
structure Run (σ α : Type) where
  events : List Event
  outcome : Outcome α
  state : σ

namespace Program

variable {α β σ : Type}

/-- Goes on with `f` where `p` returns. -/
def bind (p : Program α) (f : α → Program β) : Program β :=
  match p with
  | done a => f a
  | ask request next => .ask request fun reply => (next reply).bind f
  | note entry next => .note entry (next.bind f)
  | stop reason => .stop reason
  | crash cause => .crash cause

instance : Monad Program where
  pure := done
  bind := bind

/-- Makes one call and returns the answer. -/
def call (request : Request) : Program request.Reply := ask request done

/-- Writes one log message. -/
def log (level : Level) (message : String) : Program Unit := note ⟨level, message⟩ (done ())

/-- Runs steps one after the other until one of them fails. -/
def inOrder {ε : Type} : List (Program (Except ε Unit)) → Program (Except ε Unit)
  | [] => return .ok ()
  | step :: steps => do
    match ← step with
    | .ok () => inOrder steps
    | .error e => return .error e

/-- Lets a host answer all calls of a program. -/
def run (host : Host σ) : Program α → σ → Run σ α
  | done a, s => ⟨[], .returned a, s⟩
  | ask request next, s =>
    let (reply, s) := host.answer request s
    let later := run host (next reply) s
    { later with events := .asked request reply :: later.events }
  | note entry next, s =>
    let later := run host next s
    { later with events := .noted entry :: later.events }
  | stop reason, s => ⟨[.stopped reason], .stopped reason, host.stop reason s⟩
  | crash cause, s => ⟨[], .crashed cause, s⟩

/-- Lets a host answer the calls of a program up to the first one in which it breaks off. There the
program crashes: the call has left the host in the state after it, and nobody has seen an answer. -/
def runUpTo (breaks : Request → σ → Bool) (host : Host σ) : Program α → σ → Run σ α
  | done a, s => ⟨[], .returned a, s⟩
  | ask request next, s =>
    if breaks request s then ⟨[], .crashed .overrun, (host.answer request s).2⟩
    else
      let (reply, s) := host.answer request s
      let later := runUpTo breaks host (next reply) s
      { later with events := .asked request reply :: later.events }
  | note entry next, s =>
    let later := runUpTo breaks host next s
    { later with events := .noted entry :: later.events }
  | stop reason, s => ⟨[.stopped reason], .stopped reason, host.stop reason s⟩
  | crash cause, s => ⟨[], .crashed cause, s⟩

@[simp] theorem run_done (host : Host σ) (a : α) (s : σ) :
    run host (done a) s = ⟨[], .returned a, s⟩ := rfl

@[simp] theorem run_pure (host : Host σ) (a : α) (s : σ) :
    run host (pure a) s = ⟨[], .returned a, s⟩ := rfl

theorem bind_done (p : Program α) : p.bind done = p := by
  induction p with
  | done => rfl
  | ask request next ih => simp only [bind]; exact congrArg _ (funext ih)
  | note entry next ih => simp only [bind, ih]
  | stop => rfl
  | crash => rfl

/-- How steps are grouped makes no difference. -/
theorem bind_assoc {γ : Type} (p : Program α) (f : α → Program β) (g : β → Program γ) :
    (p.bind f).bind g = p.bind fun a => (f a).bind g := by
  induction p with
  | done => rfl
  | ask request next ih => simp only [bind]; exact congrArg _ (funext ih)
  | note entry next ih => simp only [bind, ih]
  | stop => rfl
  | crash => rfl

instance : LawfulMonad Program :=
  LawfulMonad.mk' Program bind_done (fun _ _ => rfl) bind_assoc

end Program

namespace Run

variable {α β σ : Type}

/-- Puts earlier events before those of a run. -/
def after (r : Run σ α) (earlier : List Event) : Run σ α :=
  { r with events := earlier ++ r.events }

/-- Goes on where a run returned; a run that was stopped or crashed has nothing after it. -/
def followedBy (r : Run σ α) (next : α → σ → Run σ β) : Run σ β :=
  match r.outcome with
  | .returned a => (next a r.state).after r.events
  | .stopped reason => ⟨r.events, .stopped reason, r.state⟩
  | .crashed cause => ⟨r.events, .crashed cause, r.state⟩

/-- The log messages of a run, in order. -/
def log (r : Run σ α) : List LogEntry :=
  r.events.filterMap fun
    | .noted entry => some entry
    | _ => none

end Run

/-- Running a sequence is running its parts, the second from where the first returned. -/
theorem Program.run_bind {α β σ : Type} (host : Host σ) (p : Program α) (f : α → Program β)
    (s : σ) :
    (p >>= f).run host s = (p.run host s).followedBy fun a s => (f a).run host s := by
  show (p.bind f).run host s = _
  induction p generalizing s with
  | done a => simp [bind, run, Run.followedBy, Run.after]
  | ask request next ih =>
    simp only [bind, run, ih]
    simp only [Run.followedBy, Run.after]
    split <;> simp_all
  | note entry next ih =>
    simp only [bind, run, ih]
    simp only [Run.followedBy, Run.after]
    split <;> simp_all
  | stop reason => rfl
  | crash cause => rfl

/-- Breaking off in the first part leaves nothing of the second. -/
theorem Program.runUpTo_bind {α β σ : Type} (breaks : Request → σ → Bool) (host : Host σ)
    (p : Program α) (f : α → Program β) (s : σ) :
    (p >>= f).runUpTo breaks host s =
      (p.runUpTo breaks host s).followedBy fun a s => (f a).runUpTo breaks host s := by
  show (p.bind f).runUpTo breaks host s = _
  induction p generalizing s with
  | done a => simp [bind, runUpTo, Run.followedBy, Run.after]
  | ask request next ih =>
    simp only [bind, runUpTo]
    split
    · rfl
    · simp only [ih, Run.followedBy, Run.after]
      split <;> simp_all
  | note entry next ih =>
    simp only [bind, runUpTo, ih]
    simp only [Run.followedBy, Run.after]
    split <;> simp_all
  | stop reason => rfl
  | crash cause => rfl

/-- A call that does not break off is an event like any other. -/
theorem Program.runUpTo_ask_of_answered {α σ : Type} {breaks : Request → σ → Bool} (host : Host σ)
    {request : Request} (next : request.Reply → Program α) {s : σ}
    (answered : breaks request s = false) :
    (ask request next).runUpTo breaks host s =
      ((next (host.answer request s).1).runUpTo breaks host (host.answer request s).2).after
        [.asked request (host.answer request s).1] := by
  rw [runUpTo, answered]
  rfl

/-- A call that breaks off is the end of a run, and no event of it. -/
theorem Program.runUpTo_ask_of_breaks {α σ : Type} {breaks : Request → σ → Bool} (host : Host σ)
    {request : Request} (next : request.Reply → Program α) {s : σ}
    (broken : breaks request s = true) :
    (ask request next).runUpTo breaks host s =
      ⟨[], .crashed .overrun, (host.answer request s).2⟩ := by
  rw [runUpTo, broken]
  rfl

/-- A host that never breaks off answers all calls. -/
theorem Program.runUpTo_never {α σ : Type} (host : Host σ) (p : Program α) (s : σ) :
    p.runUpTo (fun _ _ => false) host s = p.run host s := by
  induction p generalizing s with
  | done a => rfl
  | ask request next ih => simp [runUpTo, run, ih]
  | note entry next ih => simp only [runUpTo, run, ih]
  | stop reason => rfl
  | crash cause => rfl

/-- One call is one event. -/
theorem Program.run_call {σ : Type} (host : Host σ) (request : Request) (s : σ) :
    (call request).run host s =
      ⟨[.asked request (host.answer request s).1], .returned (host.answer request s).1,
        (host.answer request s).2⟩ := rfl

/-- Asking comes first in a run, and the answer decides what follows. -/
theorem Program.run_call_bind {α σ : Type} (host : Host σ) (request : Request)
    (next : request.Reply → Program α) (s : σ) :
    (call request >>= next).run host s =
      ((next (host.answer request s).1).run host (host.answer request s).2).after
        [.asked request (host.answer request s).1] := rfl

end Hostcall
