import Hostcall.Proofs.Facade.Discipline
import Hostcall.Proofs.Facade.InOrder

/-!
# Programs on any host

What a program does on any host whatsoever is said of the events of its runs and of how they end
(`Program.Ends`). Most programs only ever return (`Program.Returns`), and then what can be said of a
sequence follows from what can be said of its parts (`Returns.bind`). The operations that make one
call return, and so do writing all bytes, describing an error and formatted output, each with the
events that its own account allows.
-/

namespace Hostcall

namespace Program

variable {α β : Type} {p : Program α} {f : α → Program β}

/-- On every host, what happens in a run and how it ends are as said. -/
def Ends (p : Program α) (post : List Event → Outcome α → Prop) : Prop :=
  ∀ (σ : Type) (host : Host σ) (s : σ), post (p.run host s).events (p.run host s).outcome

/-- On every host a run returns, and what happens in it and what it returns are as said. -/
def Returns (p : Program α) (post : List Event → α → Prop) : Prop :=
  p.Ends fun events outcome => ∃ a, outcome = .returned a ∧ post events a

protected theorem Returns.pure {post : List Event → α → Prop} {a : α} (h : post [] a) :
    (pure a : Program α).Returns post :=
  fun _ _ _ => ⟨a, rfl, h⟩

/-- What is said of all ends can be said less of. -/
theorem Ends.mono {post weaker : List Event → Outcome α → Prop} (h : p.Ends post)
    (weaken : ∀ events outcome, post events outcome → weaker events outcome) : p.Ends weaker :=
  fun σ host s => weaken _ _ (h σ host s)

theorem Returns.mono {post weaker : List Event → α → Prop} (h : p.Returns post)
    (weaken : ∀ events a, post events a → weaker events a) : p.Returns weaker := by
  intro σ host s
  obtain ⟨a, returned, holds⟩ := h σ host s
  exact ⟨a, returned, weaken _ a holds⟩

/-- What follows a program that returns decides how the sequence ends. -/
theorem Returns.ends_bind {post : List Event → α → Prop} {whole : List Event → Outcome β → Prop}
    (first : p.Returns post)
    (next : ∀ before a, post before a →
      (f a).Ends fun events outcome => whole (before ++ events) outcome) :
    (p >>= f).Ends whole := by
  intro σ host s
  obtain ⟨a, returned, holds⟩ := first σ host s
  rw [run_bind, Run.followedBy, returned]
  exact next _ a holds σ host _

/-- Programs that return go on one after the other, with their events joined. -/
protected theorem Returns.bind {post : List Event → α → Prop} {whole : List Event → β → Prop}
    (first : p.Returns post)
    (next : ∀ before a, post before a →
      (f a).Returns fun events b => whole (before ++ events) b) :
    (p >>= f).Returns whole :=
  first.ends_bind next

/-- What is made of a result without a call adds no events. -/
theorem Returns.ends_map {post : List Event → α → Prop} {whole : List Event → Outcome β → Prop}
    {g : α → β} (first : p.Returns post)
    (made : ∀ events a, post events a → whole events (.returned (g a))) :
    (p >>= fun a => pure (g a)).Ends whole := by
  refine first.ends_bind fun before a holds σ host s => ?_
  show whole (before ++ []) (.returned (g a))
  rw [List.append_nil]
  exact made before a holds

protected theorem Returns.map {post : List Event → α → Prop} {whole : List Event → β → Prop}
    {g : α → β} (first : p.Returns post) (made : ∀ events a, post events a → whole events (g a)) :
    (p >>= fun a => pure (g a)).Returns whole :=
  first.ends_map fun events a holds => ⟨g a, rfl, made events a holds⟩

/-- A program that crashes has nothing after it. -/
theorem Ends.bind {post : List Event → Outcome α → Prop} {whole : List Event → Outcome β → Prop}
    (first : p.Ends post) (unstopped : ∀ events reason, ¬ post events (.stopped reason))
    (crash : ∀ events cause, post events (.crashed cause) → whole events (.crashed cause))
    (next : ∀ before a, post before (.returned a) →
      (f a).Ends fun events outcome => whole (before ++ events) outcome) :
    (p >>= f).Ends whole := by
  intro σ host s
  have holds := first σ host s
  rw [run_bind, Run.followedBy]
  cases outcome : (p.run host s).outcome with
  | returned a =>
    rw [outcome] at holds
    exact next _ a holds σ host _
  | stopped reason =>
    rw [outcome] at holds
    exact absurd holds (unstopped _ reason)
  | crashed cause =>
    rw [outcome] at holds
    exact crash _ cause holds

/-- Steps that return one after the other return together. -/
theorem returns_inOrder {ε : Type} {steps : List (Program (Except ε Unit))}
    (each : ∀ step ∈ steps, step.Returns fun _ _ => True) :
    (inOrder steps).Returns fun _ _ => True := by
  induction steps with
  | nil => exact .pure trivial
  | cons step steps ih =>
    refine (each step List.mem_cons_self).bind fun _ result _ => ?_
    cases result with
    | error e => exact .pure trivial
    | ok =>
      apply ih
      intro other hother
      exact each other (List.mem_cons_of_mem _ hother)

end Program

namespace Facade

open Program (Returns)

/-- An operation that makes one call returns. -/
theorem returns_perform (op : Operation) {call : HostCall op.Result} (asks : op.call? = some call) :
    (hosted.perform op).Returns fun events result => OneCall call events (.returned result) := by
  intro σ host s
  have one := oneCall_of_call? host s op asks
  generalize ((hosted.perform op).run host s).events = events at one ⊢
  generalize ((hosted.perform op).run host s).outcome = outcome at one ⊢
  cases one with
  | passed fine => exact ⟨_, rfl, .passed fine⟩
  | failed fails => exact ⟨_, rfl, .failed fails⟩

/-- Writing all bytes comes back, with an account of how it went. -/
theorem returns_writeAll (fd : Fd) (data : Bytes) :
    (hosted.writeAll fd data).Returns (Delivery fd data) := by
  intro σ host s
  exact exists_delivery host fd data s

/-- Describing an error asks the host for a text at most. -/
theorem returns_describe (e : Error) :
    (hosted.describe e).Returns fun events _ =>
      ∀ event ∈ events, ∃ code reply, event = .asked (.strerror code) reply := by
  intro σ host s
  have disciplined := disciplined_describe host s e
  generalize ((hosted.describe e).run host s).events = events at disciplined ⊢
  generalize ((hosted.describe e).run host s).outcome = outcome at disciplined ⊢
  cases disciplined with
  | idle empty => contradiction
  | call asks => contradiction
  | known => exact ⟨_, rfl, by simp⟩
  | described => exact ⟨_, rfl, by simp⟩

/-- What happens while pieces of text are written: each is delivered until one fails. -/
inductive Printed (fd : Fd) : List String → List Event → Prop where
  | done : Printed fd [] []
  | failed {piece : String} {pieces : List String} {events : List Event} {e : Error}
      (delivery : Delivery fd (Utf8.encode piece) events (.error e)) :
      Printed fd (piece :: pieces) events
  | next {piece : String} {pieces : List String} {before later : List Event}
      (delivery : Delivery fd (Utf8.encode piece) before (.ok ()))
      (rest : Printed fd pieces later) : Printed fd (piece :: pieces) (before ++ later)

/-- Bytes that are to be written are offered whole at first. -/
theorem Delivery.first {fd : Fd} {data : Bytes} {events : List Event} {result : Except Error Unit}
    (h : Delivery fd data events result) (offered : data ≠ []) :
    ∃ n later, events = .asked (.write fd data) n :: later := by
  cases h with
  | last ending =>
    cases ending with
    | done => contradiction
    | failed => exact ⟨_, _, rfl⟩
    | stalled => exact ⟨_, _, rfl⟩
  | more => exact ⟨_, _, rfl⟩

theorem Printed.first {fd : Fd} {piece : String} {pieces : List String} {events : List Event}
    (h : Printed fd (piece :: pieces) events) (offered : Utf8.encode piece ≠ []) :
    ∃ n later, events = .asked (.write fd (Utf8.encode piece)) n :: later := by
  cases h with
  | failed delivery => exact delivery.first offered
  | next delivery rest =>
    obtain ⟨n, later, rfl⟩ := delivery.first offered
    exact ⟨n, _, rfl⟩

/-- Pieces in order come back, with what was printed of them. -/
theorem returns_writeInOrder (fd : Fd) (pieces : List String) :
    (hosted.writeInOrder fd (pieces.map Utf8.encode)).Returns fun events _ =>
      Printed fd pieces events := by
  induction pieces with
  | nil => exact .pure .done
  | cons piece pieces ih =>
    refine (returns_writeAll fd (Utf8.encode piece)).bind fun before written delivery => ?_
    cases written with
    | ok => exact ih.mono fun later _ rest => .next delivery rest
    | error e => exact .pure (by simpa using .failed delivery)

theorem returns_writeFormatted (fd : Fd) (v : Formatted) :
    (hosted.writeFormatted fd v).Returns fun events _ => Printed fd v.pieces events :=
  writeFormatted_eq hosted fd v ▸ returns_writeInOrder fd v.pieces

/-- Printing comes back whatever was printed, since its result is thrown away. -/
theorem returns_print (fd : Fd) (v : Formatted) :
    (hosted.print fd v).Returns fun events _ => Printed fd v.pieces events :=
  (returns_writeFormatted fd v).map fun _ _ printed => printed

end Facade

end Hostcall
