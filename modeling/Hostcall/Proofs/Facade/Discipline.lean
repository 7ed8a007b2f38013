import Hostcall.Proofs.Facade.Session
import Hostcall.Proofs.Facade.WriteAll
import Hostcall.Proofs.Machine.Respond

/-!
# Call discipline

Most operations make one call of the host. `Operation.call?` is the table of these calls with their
arguments, and `OneCall` what then happens: a call that fails is followed at once by one look at the
register and one message, and a call that does not fail by nothing. `Disciplined` extends this to
all operations, and every operation keeps to it on every host (`disciplined_perform`).
-/

namespace Hostcall

namespace Facade

/-- The message that an operation failed. -/
def failureEntry (operation : String) (code : Int) : LogEntry :=
  ⟨.trace, operation ++ " failed: " ++ (Errno.mk code).text⟩

/-- The names by which failures are logged. -/
def failureNames : List String :=
  ["open", "read", "write", "close", "unlink", "mkdir", "chdir", "getcwd", "lseek", "usleep"]

end Facade

/-- The one call of an operation: what is asked, the name that a failure is logged by, and what the
operation makes of an answer that is a success and of one that is a failure. -/
structure HostCall (ρ : Type) where
  request : Request
  name : String
  value : request.Reply → ρ
  failure : request.Reply → Error → ρ
  known : name ∈ Facade.failureNames := by decide

/-- The call with a result made of its own. -/
def HostCall.map {ρ τ : Type} (f : ρ → τ) (call : HostCall ρ) : HostCall τ :=
  ⟨call.request, call.name, fun reply => f (call.value reply),
    fun reply e => f (call.failure reply e), call.known⟩

namespace Operation

open Facade (scratchLength)

variable {ρ : Type}

/-- The call that writes some bytes. -/
def writeCall (fd : Fd) (data : Bytes) : HostCall (Except Error Nat) where
  request := .write fd data
  name := "write"
  value n := .ok n.toNat
  failure _ e := .error e

/-- The call that fills a buffer with the current directory. -/
def getcwdCall (buffer : Bytes) : HostCall (Except Error String × Bytes) where
  request := .getcwd buffer
  name := "getcwd"
  value reply := (.ok (Utf8.decode (reply.1.getD [])), Bytes.overlay buffer reply.2)
  failure reply e := (.error e, Bytes.overlay buffer reply.2)

/-- The call that sleeps for microseconds. -/
def usleepCall (micros : Nat) : HostCall (Except Error Unit) where
  request := .usleep micros
  name := "usleep"
  value _ := .ok ()
  failure _ e := .error e

/-- A call that is not made on an empty buffer. -/
def unlessEmpty (buffer : Bytes) (call : HostCall ρ) : Option (HostCall ρ) :=
  if buffer = [] then none else some call

/-- A result on an empty buffer. -/
def ifEmpty (buffer : Bytes) (result : ρ) : Option ρ := if buffer = [] then some result else none

theorem unlessEmpty_eq_some {buffer : Bytes} {call made : HostCall ρ} :
    unlessEmpty buffer call = some made ↔ buffer ≠ [] ∧ call = made := by
  simp [unlessEmpty]

theorem unlessEmpty_eq_none {buffer : Bytes} {call : HostCall ρ} :
    unlessEmpty buffer call = none ↔ buffer = [] := by
  simp [unlessEmpty]

theorem ifEmpty_eq_some {buffer : Bytes} {result made : ρ} :
    ifEmpty buffer result = some made ↔ buffer = [] ∧ result = made := by
  simp [ifEmpty]

/-- The call of an operation that makes exactly one and may fail; an operation on an empty buffer
makes none. A path crosses as its bytes and one NUL. -/
def call? : (op : Operation) → Option (HostCall op.Result)
  | .openFile path flags mode => some <|
    .mk (.openFile ⟨Utf8.encode path⟩ flags mode) "open" (fun n => .ok ⟨n⟩) fun _ e => .error e
  | .read fd buffer => unlessEmpty buffer <|
    .mk (.read fd buffer) "read"
      (fun (n, filled) => (.ok n.toNat, Bytes.overlay buffer filled))
      fun (_, filled) e => (.error e, Bytes.overlay buffer filled)
  | .write fd data => unlessEmpty data (writeCall fd data)
  | .writeText fd text => unlessEmpty (Utf8.encode text) (writeCall fd (Utf8.encode text))
  | .close fd => some <| .mk (.close fd) "close" (fun _ => .ok ()) fun _ e => .error e
  | .unlink path => some <|
    .mk (.unlink ⟨Utf8.encode path⟩) "unlink" (fun _ => .ok ()) fun _ e => .error e
  | .mkdir path mode => some <|
    .mk (.mkdir ⟨Utf8.encode path⟩ mode) "mkdir" (fun _ => .ok ()) fun _ e => .error e
  | .chdir path => some <|
    .mk (.chdir ⟨Utf8.encode path⟩) "chdir" (fun _ => .ok ()) fun _ e => .error e
  | .getcwd buffer => unlessEmpty buffer (getcwdCall buffer)
  | .currentDir => some ((getcwdCall (List.replicate scratchLength 0)).map Prod.fst)
  | .seek fd offset whence => some <|
    .mk (.lseek fd offset whence.code) "lseek" (fun n => .ok n) fun _ e => .error e
  | .usleep micros => some (usleepCall micros)
  | .writeAll .. => none
  | .sleep _ => none
  | .sleepFor _ => none
  | .exit _ => none
  | .abort => none
  | .describe _ => none

/-- The result of an operation on an empty buffer. -/
def idle? : (op : Operation) → Option op.Result
  | .read _ buffer => ifEmpty buffer (.ok 0, [])
  | .write _ data => ifEmpty data (.ok 0)
  | .writeText _ text => ifEmpty (Utf8.encode text) (.ok 0)
  | .getcwd buffer => ifEmpty buffer (.error .emptyBuffer, [])
  | _ => none

/-- The error of a result. -/
def errorOf {β : Type} : Except Error β → Option Error
  | .ok _ => none
  | .error e => some e

/-- The error that an operation results in. -/
def error? : (op : Operation) → op.Result → Option Error
  | .openFile .., result => errorOf result
  | .read .., result => errorOf result.1
  | .write .., result => errorOf result
  | .writeText .., result => errorOf result
  | .writeAll .., result => errorOf result
  | .close .., result => errorOf result
  | .unlink .., result => errorOf result
  | .mkdir .., result => errorOf result
  | .chdir .., result => errorOf result
  | .getcwd .., result => errorOf result.1
  | .currentDir, result => errorOf result
  | .seek .., result => errorOf result
  | .sleep .., result => errorOf result
  | .usleep .., result => errorOf result
  | .sleepFor .., result => errorOf result
  | .exit .., e => some e
  | .abort, e => some e
  | .describe .., _ => none

end Operation

/-- What happens in an operation that makes one call: the call alone if it does not fail, else the
call, one look at the register and one message, and the result carries what the register held. -/
inductive OneCall {ρ : Type} (call : HostCall ρ) : List Event → Outcome ρ → Prop where
  | passed {reply : call.request.Reply} (fine : ¬ call.request.Fails reply) :
      OneCall call [.asked call.request reply] (.returned (call.value reply))
  | failed {reply : call.request.Reply} {code : Int} (fails : call.request.Fails reply) :
      OneCall call
        [.asked call.request reply, .asked .errno code,
          .noted (Facade.failureEntry call.name code)]
        (.returned (call.failure reply (.host ⟨code⟩)))

/-- What happens where a duration is slept and its seconds are over. -/
inductive MicrosSlept (d : Duration) : List Event → Outcome (Except Error Unit) → Prop where
  | elapsed (whole : d.micros = 0) : MicrosSlept d [] (.returned (.ok ()))
  | usleep {events : List Event} {outcome : Outcome (Except Error Unit)} (rest : 0 < d.micros)
      (one : OneCall (Operation.usleepCall d.micros) events outcome) : MicrosSlept d events outcome

/-- What happens in an operation and how it comes out. -/
inductive Disciplined : (op : Operation) → List Event → Outcome op.Result → Prop where
  | idle {op : Operation} {result : op.Result} (empty : op.idle? = some result) :
      Disciplined op [] (.returned result)
  | call {op : Operation} {call : HostCall op.Result} {events : List Event}
      {outcome : Outcome op.Result} (asks : op.call? = some call)
      (one : OneCall call events outcome) : Disciplined op events outcome
  | writeAll {fd : Fd} {data : Bytes} {events : List Event} {result : Except Error Unit}
      (delivery : Facade.Delivery fd data events result) :
      Disciplined (.writeAll fd data) events (.returned result)
  | sleep {seconds left : Nat} :
      Disciplined (.sleep seconds) [.asked (.sleep seconds) left] (.returned (.ok left))
  | noSeconds {d : Duration} {events : List Event} {outcome : Outcome (Except Error Unit)}
      (brief : d.seconds = 0) (rest : MicrosSlept d events outcome) :
      Disciplined (.sleepFor d) events outcome
  | woken {d : Duration} {left : Nat} (long : 0 < d.seconds) (early : 0 < left) :
      Disciplined (.sleepFor d) [.asked (.sleep (min d.seconds Facade.maxSleep)) left]
        (.returned (.ok ()))
  | slept {d : Duration} {events : List Event} {outcome : Outcome (Except Error Unit)}
      (long : 0 < d.seconds) (rest : MicrosSlept d events outcome) :
      Disciplined (.sleepFor d)
        (.asked (.sleep (min d.seconds Facade.maxSleep)) (0 : Nat) :: events) outcome
  | exit {status : Int} :
      Disciplined (.exit status)
        [.noted ⟨.trace, "exit(" ++ toString status ++ ")"⟩, .stopped (.exit status)]
        (.stopped (.exit status))
  | abort : Disciplined .abort [.noted ⟨.trace, "abort"⟩, .stopped .abort] (.stopped .abort)
  | known {e : Error} {text : String} : Disciplined (.describe e) [] (.returned text)
  | described {code : Int} {reply : Option Bytes} {text : String} :
      Disciplined (.describe (.host ⟨code⟩)) [.asked (.strerror code) reply] (.returned text)

namespace Facade

variable {α σ ρ : Type}

/-- The register is looked at exactly where a number says that the call failed. -/
theorem oneCall_checked {call : HostCall ρ} {name : String} (named : call.name = name)
    (host : Host σ) (s : σ) (reply : call.request.Reply) {n : Int}
    (fails : call.request.Fails reply ↔ n < 0) {f : Except Error Nat → ρ}
    (value : 0 ≤ n → f (.ok n.toNat) = call.value reply)
    (failure : ∀ e, f (.error e) = call.failure reply e) :
    OneCall call
      (((do return f (← checked name n)).run host s).after [.asked call.request reply]).events
      ((do return f (← checked name n)).run host s).outcome := by
  subst named
  rw [Program.run_bind, run_checked]
  by_cases negative : n < 0
  · simp only [if_pos negative, Run.followedBy, Run.after, Program.run_pure, List.append_nil,
      failure]
    exact .failed (fails.2 negative)
  · simp only [if_neg negative, Run.followedBy, Run.after, Program.run_pure, List.append_nil,
      value (Int.not_lt.1 negative)]
    exact .passed fun h => negative (fails.1 h)

/-- What is made of a result afterwards does not change the call. -/
theorem oneCall_map {call : HostCall ρ} {host : Host σ} {s : σ} {p : Program ρ} {τ : Type}
    (f : ρ → τ) (one : OneCall call (p.run host s).events (p.run host s).outcome) :
    OneCall (call.map f) ((do return f (← p)).run host s).events
      ((do return f (← p)).run host s).outcome := by
  rw [Program.run_bind]
  generalize p.run host s = r at one
  obtain ⟨events, outcome, after⟩ := r
  cases one with
  | passed fine => exact .passed fine
  | failed fails => exact .failed fails

/-- A write of something is one call. -/
theorem oneCall_write (host : Host σ) (s : σ) (fd : Fd) {data : Bytes} (offered : data ≠ []) :
    OneCall (Operation.writeCall fd data) ((hosted.write fd data).run host s).events
      ((hosted.write fd data).run host s).outcome := by
  rw [run_write host fd offered, ← bind_pure (checked _ _)]
  exact oneCall_checked rfl host _ _ Iff.rfl (fun _ => rfl) fun _ => rfl

/-- With room for the path, asking for it is one call. -/
theorem oneCall_getcwd (host : Host σ) (s : σ) {buffer : Bytes} (room : buffer ≠ []) :
    OneCall (Operation.getcwdCall buffer) ((hosted.getcwd buffer).run host s).events
      ((hosted.getcwd buffer).run host s).outcome := by
  simp only [hosted, if_neg room]
  rw [Program.run_call_bind]
  rcases hreply : (host.answer (.getcwd buffer) s).1 with ⟨path, filled⟩
  cases path with
  | none => exact @OneCall.failed _ (Operation.getcwdCall buffer) (none, filled) _ rfl
  | some path =>
    exact @OneCall.passed _ (Operation.getcwdCall buffer) (some path, filled)
      (Option.some_ne_none path)

theorem scratch_ne_nil : List.replicate scratchLength (0 : UInt8) ≠ [] :=
  List.ne_nil_of_length_pos (by rw [List.length_replicate]; decide)

theorem oneCall_usleep (host : Host σ) (s : σ) (micros : Nat) :
    OneCall (Operation.usleepCall micros) ((hosted.usleep micros).run host s).events
      ((hosted.usleep micros).run host s).outcome :=
  oneCall_checked rfl host _ _ Iff.rfl (fun _ => rfl) fun _ => rfl

/-- Each operation with a call of its own makes that one and no other. -/
theorem oneCall_of_call? (host : Host σ) (s : σ) (op : Operation) {call : HostCall op.Result}
    (asks : op.call? = some call) :
    OneCall call ((hosted.perform op).run host s).events
      ((hosted.perform op).run host s).outcome := by
  cases op with
  | openFile path flags mode =>
    obtain rfl := Option.some.inj asks
    apply oneCall_checked rfl host _ _ Iff.rfl
    · intro h
      simp [Functor.map, Except.map, Int.toNat_of_nonneg h]
    · intro e
      rfl
  | read fd buffer =>
    obtain ⟨room, rfl⟩ := Operation.unlessEmpty_eq_some.1 asks
    simp only [perform, hosted, if_neg room]
    exact oneCall_checked rfl host _ _ Iff.rfl (fun _ => rfl) fun _ => rfl
  | write fd data =>
    obtain ⟨offered, rfl⟩ := Operation.unlessEmpty_eq_some.1 asks
    exact oneCall_write host s fd offered
  | writeText fd text =>
    obtain ⟨offered, rfl⟩ := Operation.unlessEmpty_eq_some.1 asks
    exact oneCall_write host s fd offered
  | close fd =>
    obtain rfl := Option.some.inj asks
    exact oneCall_checked rfl host _ _ Iff.rfl (fun _ => rfl) fun _ => rfl
  | unlink path =>
    obtain rfl := Option.some.inj asks
    exact oneCall_checked rfl host _ _ Iff.rfl (fun _ => rfl) fun _ => rfl
  | mkdir path mode =>
    obtain rfl := Option.some.inj asks
    exact oneCall_checked rfl host _ _ Iff.rfl (fun _ => rfl) fun _ => rfl
  | chdir path =>
    obtain rfl := Option.some.inj asks
    exact oneCall_checked rfl host _ _ Iff.rfl (fun _ => rfl) fun _ => rfl
  | getcwd buffer =>
    obtain ⟨room, rfl⟩ := Operation.unlessEmpty_eq_some.1 asks
    exact oneCall_getcwd host s room
  | currentDir =>
    obtain rfl := Option.some.inj asks
    exact oneCall_map Prod.fst (oneCall_getcwd host s scratch_ne_nil)
  | seek fd offset whence =>
    obtain rfl := Option.some.inj asks
    apply oneCall_checked rfl host _ _ Iff.rfl
    · intro h
      simp [Except.map, Int.toNat_of_nonneg h]
    · intro e
      rfl
  | usleep micros =>
    obtain rfl := Option.some.inj asks
    exact oneCall_usleep host s micros
  | writeAll => contradiction
  | sleep => contradiction
  | sleepFor => contradiction
  | exit => contradiction
  | abort => contradiction
  | describe => contradiction

/-- The rest of a duration is slept in one call, or in none where there is no rest. -/
theorem microsSlept_sleepMicros (host : Host σ) (s : σ) (d : Duration) :
    MicrosSlept d ((hosted.sleepMicros d).run host s).events
      ((hosted.sleepMicros d).run host s).outcome := by
  unfold sleepMicros
  split
  · rename_i rest
    exact .usleep rest (oneCall_usleep host s d.micros)
  · rename_i whole
    exact .elapsed (Nat.eq_zero_of_not_pos whole)

theorem hosted_sleep (seconds : Nat) :
    hosted.sleep seconds = do return .ok (← Program.call (.sleep seconds)) := rfl

/-- A duration is slept by the discipline. -/
theorem disciplined_sleepFor (host : Host σ) (s : σ) (d : Duration) :
    Disciplined (.sleepFor d) ((hosted.sleepFor d).run host s).events
      ((hosted.sleepFor d).run host s).outcome := by
  unfold sleepFor
  split
  · rename_i long
    simp only [hosted_sleep, bind_assoc, pure_bind]
    rw [Program.run_call_bind]
    generalize host.answer (.sleep (min d.seconds maxSleep)) s = answer
    obtain ⟨left, after⟩ := answer
    by_cases early : 0 < left
    · simp only [if_pos early]
      exact .woken long early
    · simp only [if_neg early]
      obtain rfl := Nat.eq_zero_of_not_pos early
      exact .slept long (microsSlept_sleepMicros host after d)
  · rename_i brief
    exact .noSeconds (Nat.eq_zero_of_not_pos brief) (microsSlept_sleepMicros host s d)

/-- An error is described by the discipline: the host is asked for its own numbers only. -/
theorem disciplined_describe (host : Host σ) (s : σ) (e : Error) :
    Disciplined (.describe e) ((hosted.describe e).run host s).events
      ((hosted.describe e).run host s).outcome := by
  cases e with
  | shortWrite remaining => exact .known
  | emptyBuffer => exact .known
  | unsupported => exact .known
  | host e =>
    show Disciplined (.describe (.host e)) (e.describe.run host s).events
      (e.describe.run host s).outcome
    unfold Errno.describe
    split
    · exact .known
    · rw [Program.run_call_bind]
      generalize host.answer (.strerror e.code) s = answer
      obtain ⟨reply, after⟩ := answer
      cases reply <;> exact .described

/-- Every operation keeps the discipline, whatever the host answers. -/
theorem disciplined_perform (host : Host σ) (s : σ) (op : Operation) :
    Disciplined op ((hosted.perform op).run host s).events
      ((hosted.perform op).run host s).outcome := by
  cases hcall : op.call? with
  | some call => exact .call hcall (oneCall_of_call? host s op hcall)
  | none =>
    cases op with
    | read fd buffer =>
      obtain rfl := Operation.unlessEmpty_eq_none.1 hcall
      exact .idle rfl
    | write fd data =>
      obtain rfl := Operation.unlessEmpty_eq_none.1 hcall
      exact .idle rfl
    | writeText fd text =>
      have empty := Operation.unlessEmpty_eq_none.1 hcall
      simp only [perform, writeText, hosted, if_pos empty]
      exact .idle (if_pos empty)
    | getcwd buffer =>
      obtain rfl := Operation.unlessEmpty_eq_none.1 hcall
      exact .idle rfl
    | writeAll fd data =>
      obtain ⟨result, houtcome, hdelivery⟩ := exists_delivery host fd data s
      simp only [perform, houtcome]
      exact .writeAll hdelivery
    | sleep seconds => exact .sleep
    | sleepFor duration => exact disciplined_sleepFor host s duration
    | exit status => exact .exit
    | abort => exact .abort
    | describe e => exact disciplined_describe host s e
    | openFile => contradiction
    | close => contradiction
    | unlink => contradiction
    | mkdir => contradiction
    | chdir => contradiction
    | currentDir => contradiction
    | seek => contradiction
    | usleep => contradiction

end Facade

end Hostcall
