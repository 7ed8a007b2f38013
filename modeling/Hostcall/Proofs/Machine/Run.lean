import Hostcall.Machine.Run

/-!
# What a run of an applet comes to

A run lets the machine answer the program of the applet, which returns, is stopped or crashes. With
an exit status, returned or passed to a stop, the run is finished: the output is moved into the
result (`run_of_status`). A crash leaves the machine as it is (`run_of_crash`).
-/

namespace Hostcall

/-- The exit status with which a program ended. -/
def Outcome.status? : Outcome Int → Option Int
  | .returned status => some status
  | .stopped reason => some (Machine.stopStatus reason)
  | .crashed _ => none

namespace Machine

variable {m : Machine} {argv : List String} {body : Applet.Body}

/-- The program of an applet, with the machine answering its calls. -/
def play (m : Machine) (argv : List String) (body : Applet.Body) : Run Machine Int :=
  (body .hosted (argsOf argv)).runUpTo breaks host m

/-- The machine whose output was taken. -/
def emptied (m : Machine) : Machine := { m with stdout := .empty, stderr := .empty }

/-- A run that ends with a status reports it, with the output taken. -/
theorem run_of_status {status : Int} (ended : (m.play argv body).outcome.status? = some status) :
    (m.run argv body).verdict = .finished
      ⟨status, (m.play argv body).state.stdout.bytes, (m.play argv body).state.stderr.bytes⟩ ∧
    (m.run argv body).machine = (m.play argv body).state.emptied := by
  unfold play at ended ⊢
  unfold run
  dsimp only
  cases outcome : ((body .hosted (argsOf argv)).runUpTo breaks host m).outcome with
  | returned code =>
    rw [outcome] at ended
    obtain rfl := Option.some.inj ended
    exact ⟨rfl, rfl⟩
  | stopped reason =>
    rw [outcome] at ended
    obtain rfl := Option.some.inj ended
    exact ⟨rfl, rfl⟩
  | crashed cause =>
    rw [outcome] at ended
    contradiction

/-- A run that crashes reports no output and leaves it where it is. -/
theorem run_of_crash {cause : Crash} (crash : (m.play argv body).outcome = .crashed cause) :
    (m.run argv body).verdict = .crashed cause ∧
      (m.run argv body).machine = (m.play argv body).state := by
  unfold play at crash ⊢
  unfold run
  dsimp only
  rw [crash]
  exact ⟨rfl, rfl⟩

/-- A run is finished or it crashed. -/
theorem status_or_crash (outcome : Outcome Int) :
    (∃ status, outcome.status? = some status) ∨ ∃ cause, outcome = .crashed cause := by
  cases outcome with
  | returned code => exact .inl ⟨code, rfl⟩
  | stopped reason => exact .inl ⟨stopStatus reason, rfl⟩
  | crashed cause => exact .inr ⟨cause, rfl⟩

/-- Applets whose programs do the same run alike. -/
theorem run_congr {other : Applet.Body} (same : m.play argv body = m.play argv other) :
    m.run argv body = m.run argv other := by
  unfold play at same
  unfold run
  dsimp only
  rw [same]

end Machine

end Hostcall
