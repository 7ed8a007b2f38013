import Hostcall.Proofs.Facade.Discipline
import Hostcall.Proofs.Facade.InOrder
import Hostcall.Text.Utf8.Lemmas

/-!
# Where there is no host

Without a host an operation reports that it is unsupported, whatever it is given, and no call is
made. An operation that is built from others reports what these do, so it succeeds where it comes to
its end before the first of them: there is no byte to write, no microsecond to sleep, or no text
that a format hands out. There are no other exceptions (`unsupported_iff_asks`), and a session
without a host is a sequence of such operations (`performed_absent`).
-/

namespace Hostcall

/-- Whether an operation asks a host for anything. Writing all of no bytes and sleeping for less
than a microsecond do not; an error is put in words without a host. -/
def Operation.asks : Operation → Bool
  | .writeAll _ data => !data.isEmpty
  | .sleepFor d => decide (0 < d.seconds) || decide (0 < d.micros)
  | .describe _ => false
  | _ => true

/-- Whether formatting a value hands out a text that is not empty. -/
def Formatted.asks (v : Formatted) : Bool := v.pieces.any (· != "")

namespace Facade

variable {fd : Fd} {data : Bytes}

/-- To write nothing, no host is asked. -/
theorem absent_writeAll_nil (fd : Fd) : absent.writeAll fd [] = pure (.ok ()) := by
  rw [writeAll]
  rfl

/-- The first write of something is one too many. -/
theorem absent_writeAll (fd : Fd) (offered : data ≠ []) :
    absent.writeAll fd data = pure (.error .unsupported) := by
  rw [writeAll, dif_neg offered]
  rfl

theorem absent_sleepMicros (d : Duration) :
    absent.sleepMicros d = pure (if 0 < d.micros then .error .unsupported else .ok ()) := by
  unfold sleepMicros
  split <;> rfl

/-- A duration below a microsecond is slept without a host. -/
theorem absent_sleepFor (d : Duration) :
    absent.sleepFor d =
      pure (if 0 < d.seconds ∨ 0 < d.micros then .error .unsupported else .ok ()) := by
  unfold sleepFor
  by_cases long : 0 < d.seconds
  · rw [if_pos long, if_pos (.inl long)]
    rfl
  · rw [if_neg long, absent_sleepMicros]
    simp only [long, false_or]

/-- An operation without a host makes no call, and it reports that it is unsupported if and only if
it asks for anything. -/
theorem absent_perform (op : Operation) :
    ∃ result, absent.perform op = pure result ∧
      op.error? result = if op.asks then some .unsupported else none := by
  cases op with
  | writeAll fd data =>
    by_cases empty : data = []
    · subst empty
      exact ⟨.ok (), absent_writeAll_nil fd, rfl⟩
    · refine ⟨.error .unsupported, absent_writeAll fd empty, ?_⟩
      simp [Operation.asks, Operation.error?, Operation.errorOf, empty]
  | sleepFor d =>
    refine ⟨_, absent_sleepFor d, ?_⟩
    simp only [Operation.asks, Bool.or_eq_true, decide_eq_true_eq]
    split <;> rfl
  | describe e => cases e <;> exact ⟨_, rfl, rfl⟩
  | _ => exact ⟨_, rfl, rfl⟩

/-- Pieces are written up to the first that is not empty. -/
theorem absent_writeInOrder (fd : Fd) (pieces : List String) :
    absent.writeInOrder fd (pieces.map Utf8.encode) =
      pure (if pieces.any (· != "") then .error .unsupported else .ok ()) := by
  induction pieces with
  | nil => rfl
  | cons piece pieces ih =>
    rw [writeInOrder, List.map_cons, List.map_cons, Program.inOrder]
    by_cases empty : piece = ""
    · subst empty
      rw [Utf8.encode_empty, absent_writeAll_nil, pure_bind]
      simpa [writeInOrder] using ih
    · rw [absent_writeAll fd (mt (Utf8.encode_eq_nil_iff piece).1 empty), pure_bind]
      simp [empty]

/-- Formatting fails at the first piece that is not empty, and not at all without one. -/
theorem absent_writeFormatted (fd : Fd) (v : Formatted) :
    absent.writeFormatted fd v = pure (if v.asks then .error .unsupported else .ok ()) :=
  (writeFormatted_eq absent fd v).trans (absent_writeInOrder fd v.pieces)

variable {α σ : Type}

/-- A session without a host makes no call. -/
theorem program_absent (session : Session α) : ∃ a, session.program absent = pure a := by
  induction session with
  | done a => exact ⟨a, rfl⟩
  | perform op next ih =>
    obtain ⟨result, hresult, -⟩ := absent_perform op
    obtain ⟨a, ha⟩ := ih result
    exact ⟨a, by rw [Session.program, hresult, pure_bind, ha]⟩

/-- Every operation of a session without a host reports that it is unsupported if and only if it
asks for anything. -/
theorem performed_absent (host : Host σ) (session : Session α) (s : σ) :
    ∀ p ∈ session.performed absent host s, p.events = [] ∧
      ∃ result, p.outcome = .returned result ∧
        p.operation.error? result = if p.operation.asks then some .unsupported else none := by
  induction session generalizing s with
  | done a => simp [Session.performed]
  | perform op next ih =>
    obtain ⟨result, hresult, herror⟩ := absent_perform op
    intro p hp
    rw [Session.performed, hresult, Program.run_pure] at hp
    rcases List.mem_cons.1 hp with rfl | later
    · exact ⟨rfl, result, rfl, herror⟩
    · exact ih result s p later

/-- **Without a host everything that is asked for is unsupported**, as an operation and as formatted
output, and nothing else is. -/
theorem unsupported_iff_asks (op : Operation) (fd : Fd) (v : Formatted) :
    (∃ result, absent.perform op = pure result ∧
      op.error? result = if op.asks then some .unsupported else none) ∧
    absent.writeFormatted fd v = pure (if v.asks then .error .unsupported else .ok ()) := by
  constructor
  · exact absent_perform op
  · exact absent_writeFormatted fd v

end Facade

end Hostcall
