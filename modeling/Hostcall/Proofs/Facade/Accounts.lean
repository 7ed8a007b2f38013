import Hostcall.Proofs.Facade.Discipline

/-!
# Accounts of failures

An operation that keeps the discipline looks at the register as often as it reports a failure, and
as often as it comes out with a host error; `Accounts` says so of a list of events, and accounts of
parts add up (`Accounts.append`). Over a whole session there are therefore as many looks at the
register as failure messages and as host errors, and each error carries what its own look found
(`session_samples_each_failure`).
-/

namespace Hostcall

namespace Event

/-- What a look at the error register found. -/
def sample? : Event → Option Int
  | asked .errno code => some code
  | _ => none

/-- Whether a message says that an operation failed. -/
def isFailureMessage : Event → Bool
  | noted entry => entry.level == .trace &&
      Facade.failureNames.any fun name =>
        (name ++ " failed: ").toList.isPrefixOf entry.message.toList
  | _ => false

end Event

/-- The host error that an operation came out with. -/
def Operation.hostError? (op : Operation) : Outcome op.Result → Option Errno
  | .returned result => (op.error? result).bind Error.errno?
  | .stopped _ => none
  | .crashed _ => none

/-- The register was looked at once for each of some errors, in this order, and each is the subject
of one failure message. -/
structure Accounts (events : List Event) (errors : List Errno) : Prop where
  samples : events.filterMap Event.sample? = errors.map Errno.code
  messages : events.countP Event.isFailureMessage = errors.length

/-- Nothing happened and nothing failed. -/
theorem accounts_nil : Accounts [] [] := ⟨rfl, rfl⟩

/-- Accounts of two stretches are one of both. -/
theorem Accounts.append {events later : List Event} {errors more : List Errno}
    (h : Accounts events errors) (rest : Accounts later more) :
    Accounts (events ++ later) (errors ++ more) where
  samples := by rw [List.filterMap_append, h.samples, rest.samples, List.map_append]
  messages := by rw [List.countP_append, h.messages, rest.messages, List.length_append]

/-- An event that is neither a look at the register nor a failure message. -/
theorem Accounts.cons {event : Event} {events : List Event} {errors : List Errno}
    (look : event.sample? = none) (message : event.isFailureMessage = false)
    (h : Accounts events errors) : Accounts (event :: events) errors where
  samples := by rw [List.filterMap_cons_none look, h.samples]
  messages := by rw [List.countP_cons_of_neg (by simp [message]), h.messages]

/-- What the calls of the table have in common: none is a look at the register, and the result
carries the failure and nothing else. -/
structure HostCall.Plain {op : Operation} (call : HostCall op.Result) : Prop where
  request : ∀ reply, (Event.asked call.request reply).sample? = none
  value : ∀ reply, op.error? (call.value reply) = none
  failure : ∀ reply e, op.error? (call.failure reply e) = some e

open Facade (Delivery failureEntry failureNames)

theorem isFailureMessage_failureEntry {name : String} (known : name ∈ failureNames) (code : Int) :
    (Event.noted (failureEntry name code)).isFailureMessage = true := by
  simp only [Event.isFailureMessage, failureEntry, beq_self_eq_true, Bool.true_and,
    List.any_eq_true]
  refine ⟨name, known, ?_⟩
  simp

/-- A failed call is one look at the register and one failure message. -/
theorem accounts_failed {event : Event} (look : event.sample? = none)
    (message : event.isFailureMessage = false) {name : String} (known : name ∈ failureNames)
    (code : Int) :
    Accounts [event, .asked .errno code, .noted (failureEntry name code)] [⟨code⟩] :=
  .cons look message
    ⟨rfl, by simp [List.countP_cons, isFailureMessage_failureEntry known]; rfl⟩

/-- No operation makes its one call for the register, or for anything that never fails. -/
theorem Operation.plain_of_call? {op : Operation} {call : HostCall op.Result}
    (asks : op.call? = some call) : call.Plain := by
  cases op with
  | openFile path flags mode =>
    obtain rfl := Option.some.inj asks
    exact ⟨fun _ => rfl, fun _ => rfl, fun _ _ => rfl⟩
  | read fd buffer =>
    obtain ⟨-, rfl⟩ := Operation.unlessEmpty_eq_some.1 asks
    exact ⟨fun _ => rfl, fun _ => rfl, fun _ _ => rfl⟩
  | write fd data =>
    obtain ⟨-, rfl⟩ := Operation.unlessEmpty_eq_some.1 asks
    exact ⟨fun _ => rfl, fun _ => rfl, fun _ _ => rfl⟩
  | writeText fd text =>
    obtain ⟨-, rfl⟩ := Operation.unlessEmpty_eq_some.1 asks
    exact ⟨fun _ => rfl, fun _ => rfl, fun _ _ => rfl⟩
  | close fd =>
    obtain rfl := Option.some.inj asks
    exact ⟨fun _ => rfl, fun _ => rfl, fun _ _ => rfl⟩
  | unlink path =>
    obtain rfl := Option.some.inj asks
    exact ⟨fun _ => rfl, fun _ => rfl, fun _ _ => rfl⟩
  | mkdir path mode =>
    obtain rfl := Option.some.inj asks
    exact ⟨fun _ => rfl, fun _ => rfl, fun _ _ => rfl⟩
  | chdir path =>
    obtain rfl := Option.some.inj asks
    exact ⟨fun _ => rfl, fun _ => rfl, fun _ _ => rfl⟩
  | getcwd buffer =>
    obtain ⟨-, rfl⟩ := Operation.unlessEmpty_eq_some.1 asks
    exact ⟨fun _ => rfl, fun _ => rfl, fun _ _ => rfl⟩
  | currentDir =>
    obtain rfl := Option.some.inj asks
    exact ⟨fun _ => rfl, fun _ => rfl, fun _ _ => rfl⟩
  | seek fd offset whence =>
    obtain rfl := Option.some.inj asks
    exact ⟨fun _ => rfl, fun _ => rfl, fun _ _ => rfl⟩
  | usleep micros =>
    obtain rfl := Option.some.inj asks
    exact ⟨fun _ => rfl, fun _ => rfl, fun _ _ => rfl⟩
  | writeAll => contradiction
  | sleep => contradiction
  | sleepFor => contradiction
  | exit => contradiction
  | abort => contradiction
  | describe => contradiction

/-- Of one call there is one failure at most, with one sample of the register and one message. -/
theorem OneCall.accounts {op : Operation} {call : HostCall op.Result} {events : List Event}
    {outcome : Outcome op.Result} (one : OneCall call events outcome) (plain : call.Plain) :
    Accounts events (op.hostError? outcome).toList := by
  cases one with
  | passed fine =>
    simp only [Operation.hostError?, plain.value]
    exact .cons (plain.request _) rfl accounts_nil
  | failed fails =>
    simp only [Operation.hostError?, plain.failure]
    exact accounts_failed (plain.request _) rfl call.known _

/-- Running short is logged, but not as a failure of the host. -/
theorem stall_isFailureMessage (fd : Fd) (left : Nat) :
    (Event.noted ⟨.trace, "write_all: " ++ fd.text ++ " stalled with " ++ toString left ++
      " bytes left"⟩).isFailureMessage = false := by
  simp [Event.isFailureMessage, failureNames, List.isPrefixOf]

theorem abort_isFailureMessage : (Event.noted ⟨.trace, "abort"⟩).isFailureMessage = false := by
  decide

theorem exit_isFailureMessage (status : Int) :
    (Event.noted ⟨.trace, "exit(" ++ toString status ++ ")"⟩).isFailureMessage = false := by
  simp [Event.isFailureMessage, failureNames, List.isPrefixOf]

/-- However many writes it took, one failure at most is accounted for. -/
theorem Facade.Delivery.accounts {fd : Fd} {data : Bytes} {events : List Event}
    {result : Except Error Unit} (h : Delivery fd data events result) :
    Accounts events ((Operation.writeAll fd data).hostError? (.returned result)).toList := by
  induction h with
  | last ending =>
    cases ending with
    | done => exact accounts_nil
    | failed => exact accounts_failed rfl rfl (by decide : "write" ∈ failureNames) _
    | stalled => exact .cons rfl rfl (.cons rfl (stall_isFailureMessage _ _) accounts_nil)
  | more offered taken rest ih => exact .cons rfl rfl ih

/-- Of the two sleeps only the second can fail. -/
theorem MicrosSlept.accounts {d : Duration} {events : List Event}
    {outcome : Outcome (Except Error Unit)} (h : MicrosSlept d events outcome) :
    Accounts events ((Operation.sleepFor d).hostError? outcome).toList := by
  cases h with
  | elapsed => exact accounts_nil
  | usleep rest one =>
    have accounts : Accounts events ((Operation.usleep d.micros).hostError? outcome).toList :=
      one.accounts (Operation.plain_of_call? rfl)
    have same : (Operation.usleep d.micros).hostError? outcome =
        (Operation.sleepFor d).hostError? outcome := by
      cases outcome <;> rfl
    exact same ▸ accounts

/-- An operation that asks no host has no failure of one. -/
theorem Operation.hostError?_of_idle? {op : Operation} {result : op.Result}
    (empty : op.idle? = some result) : op.hostError? (.returned result) = none := by
  cases op with
  | read fd buffer =>
    obtain ⟨-, rfl⟩ := Operation.ifEmpty_eq_some.1 empty
    rfl
  | write fd data =>
    obtain ⟨-, rfl⟩ := Operation.ifEmpty_eq_some.1 empty
    rfl
  | writeText fd text =>
    obtain ⟨-, rfl⟩ := Operation.ifEmpty_eq_some.1 empty
    rfl
  | getcwd buffer =>
    obtain ⟨-, rfl⟩ := Operation.ifEmpty_eq_some.1 empty
    rfl
  | _ => contradiction

/-- What was looked up and reported in an operation is the host error that it came out with. -/
theorem Disciplined.accounts {op : Operation} {events : List Event} {outcome : Outcome op.Result}
    (h : Disciplined op events outcome) : Accounts events (op.hostError? outcome).toList := by
  cases h with
  | idle empty =>
    rw [Operation.hostError?_of_idle? empty]
    exact accounts_nil
  | call asks one => exact one.accounts (Operation.plain_of_call? asks)
  | writeAll delivery => exact delivery.accounts
  | sleep => exact .cons rfl rfl accounts_nil
  | noSeconds brief rest => exact rest.accounts
  | woken => exact .cons rfl rfl accounts_nil
  | slept long rest => exact .cons rfl rfl rest.accounts
  | exit => exact .cons rfl (exit_isFailureMessage _) (.cons rfl rfl accounts_nil)
  | abort => exact .cons rfl abort_isFailureMessage (.cons rfl rfl accounts_nil)
  | known => exact accounts_nil
  | described => exact .cons rfl rfl accounts_nil

namespace Performed

/-- Whether an operation kept the discipline. -/
def IsDisciplined (p : Performed) : Prop := Disciplined p.operation p.events p.outcome

/-- The host errors that some operations came out with. -/
def hostErrors (ps : List Performed) : List Errno :=
  ps.flatMap fun p => (p.operation.hostError? p.outcome).toList

/-- What a session performs is accounted for operation by operation. -/
theorem accounts_flatMap {ps : List Performed} (h : ∀ p ∈ ps, p.IsDisciplined) :
    Accounts (ps.flatMap events) (hostErrors ps) := by
  induction ps with
  | nil => exact accounts_nil
  | cons p ps ih =>
    rw [List.flatMap_cons, hostErrors, List.flatMap_cons]
    have first : p.IsDisciplined := h p List.mem_cons_self
    exact first.accounts.append (ih fun q hq => h q (List.mem_cons_of_mem _ hq))

end Performed

namespace Facade

variable {α σ : Type}

/-- All that a session performs on a host is disciplined. -/
theorem disciplined_of_mem_performed (host : Host σ) (session : Session α) {s : σ} {p : Performed}
    (hp : p ∈ session.performed hosted host s) : p.IsDisciplined := by
  induction session generalizing s with
  | done a => simp [Session.performed] at hp
  | perform op next ih =>
    rw [Session.performed] at hp
    rcases List.mem_cons.1 hp with rfl | hp
    · exact disciplined_perform host s op
    · split at hp
      · exact ih _ hp
      · contradiction
      · contradiction

/-- **Each failure is looked up once and at once.** On any host a session is its operations, each of
which keeps the discipline; what the register was found to hold, over the whole run and in order,
are the host errors that operations came out with, and there are as many failure messages. -/
theorem session_samples_each_failure (host : Host σ) (session : Session α) (s : σ) :
    ((session.program hosted).run host s).events =
        (session.performed hosted host s).flatMap Performed.events ∧
      (∀ p ∈ session.performed hosted host s, Disciplined p.operation p.events p.outcome) ∧
      ((session.program hosted).run host s).events.filterMap Event.sample? =
        (Performed.hostErrors (session.performed hosted host s)).map Errno.code ∧
      ((session.program hosted).run host s).events.countP Event.isFailureMessage =
        (Performed.hostErrors (session.performed hosted host s)).length := by
  have disciplined (p : Performed) (hp : p ∈ session.performed hosted host s) : p.IsDisciplined :=
    disciplined_of_mem_performed host session hp
  have accounts := Performed.accounts_flatMap disciplined
  have events := session.events_run hosted host s
  refine ⟨events, disciplined, ?_, ?_⟩
  · rw [events]
    exact accounts.samples
  · rw [events]
    exact accounts.messages

end Facade

end Hostcall
