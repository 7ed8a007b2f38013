/-!
# Computations with errors

A computation that goes on from step to step comes to a result only if each of its steps did.
-/

namespace Hostcall

/-- A sequence that succeeds has succeeded in its first part. -/
theorem ok_of_bind {ε α β : Type} {x : Except ε α} {f : α → Except ε β} {b : β}
    (h : x >>= f = .ok b) : ∃ a, x = .ok a ∧ f a = .ok b := by
  cases x with
  | error e => cases h
  | ok a => exact ⟨a, rfl, h⟩

end Hostcall
