import Hostcall.Proofs.Machine.Entries
import Hostcall.Proofs.Machine.Run

/-!
# What the results of runs report

A machine holds what its two output streams accepted until somebody takes it. A run that is finished
takes it for its result, a run that crashed does not. So the result of a run reports what was
accepted in that run, behind whatever was left by the crashed runs since the last time the output
was taken (`results_report_output`), and nothing is left as long as no run crashes.
-/

namespace Hostcall

/-- One of the two streams whose output is kept. -/
inductive OutputStream where
  | stdout
  | stderr
deriving DecidableEq, Repr

namespace OutputStream

/-- The entry of a descriptor of the stream. -/
def file : OutputStream → OpenFile
  | .stdout => .stdout
  | .stderr => .stderr

/-- The number under which the stream is open from the start. -/
def fd : OutputStream → Fd
  | .stdout => .stdout
  | .stderr => .stderr

end OutputStream

/-- What a result reports of a stream. -/
def CommandResult.output (r : CommandResult) : OutputStream → Bytes
  | .stdout => r.stdout
  | .stderr => r.stderr

/-- Whether a turn takes the output of a stream. -/
def Turn.takes : Turn → OutputStream → Bool
  | .takeStdout, .stdout => true
  | .takeStderr, .stderr => true
  | _, _ => false

/-- Whether a turn is a write to the descriptor of a stream. -/
def Turn.writesTo (stream : OutputStream) : Turn → Prop
  | .call (.write fd _) => fd = stream.fd
  | _ => False

/-- What is done with a machine: an applet is run, or there is a turn between two runs. -/
inductive Act where
  | run (argv : List String) (body : Applet.Body)
  | between (turn : Turn)

/-- Whether an act is a write to the descriptor of a stream between two runs. -/
def Act.writesTo (stream : OutputStream) : Act → Prop
  | .run .. => False
  | .between turn => turn.writesTo stream

namespace Machine

variable {m after : Machine} {stream : OutputStream} {request : Request} {argv : List String}
  {body : Applet.Body}

/-- What was written to a stream and not taken yet. -/
def captured (m : Machine) : OutputStream → Bytes
  | .stdout => m.stdout.bytes
  | .stderr => m.stderr.bytes

/-- What a call passed to a stream, by its answer: the bytes taken by a write through a descriptor
of the stream. -/
def acceptedOn (m : Machine) (stream : OutputStream) : (request : Request) → request.Reply → Bytes
  | .write fd data, count =>
    if m.entry? fd = some stream.file then data.take count.toNat else []
  | _, _ => []

/-- What a stream accepted in the course of a run, one call after the other. -/
def accepted (stream : OutputStream) (m : Machine) : List Event → Bytes
  | [] => []
  | .asked request reply :: events =>
    m.acceptedOn stream request reply ++ (m.perform request).2.accepted stream events
  | .noted _ :: events => m.accepted stream events
  | .stopped reason :: events => (host.stop reason m).accepted stream events

/-- The machine after an act. -/
def act (m : Machine) : Act → Machine
  | .run argv body => (m.run argv body).machine
  | .between turn => m.turn turn

/-- The machine after some acts. -/
def acts (m : Machine) (history : List Act) : Machine := history.foldl act m

/-- Whether an act is a run that crashes. -/
def crashes (m : Machine) : Act → Prop
  | .run argv body => (m.play argv body).outcome.status? = none
  | .between _ => False

/-- Acts of which none is a run that crashes. -/
def NoneCrashes (m : Machine) : List Act → Prop
  | [] => True
  | act :: history => ¬ m.crashes act ∧ (m.act act).NoneCrashes history

/-- What is left of a stream after an act. -/
def leaves (m : Machine) (stream : OutputStream) (kept : Bytes) : Act → Bytes
  | .run argv body =>
    match (m.play argv body).outcome.status? with
    | some _ => []
    | none => kept ++ m.accepted stream (m.play argv body).events
  | .between turn => if turn.takes stream then [] else kept

/-- What is left of a stream after some acts: the output of the crashed runs since it was taken. -/
def leftBy (stream : OutputStream) (kept : Bytes) (m : Machine) : List Act → Bytes
  | [] => kept
  | act :: history => (m.act act).leftBy stream (m.leaves stream kept act) history

@[simp] theorem acceptedOn_counted (m : Machine) (counted : Request) (stream : OutputStream)
    (request : Request) (reply : request.Reply) :
    (m.counted counted).acceptedOn stream request reply = m.acceptedOn stream request reply := by
  cases request <;> rfl

/-- A call that fails has accepted nothing. -/
theorem acceptedOn_of_fails {reply : request.Reply} (fails : request.Fails reply) :
    m.acceptedOn stream request reply = [] := by
  cases request with
  | write fd data =>
    simp only [acceptedOn, take_of_negative data fails, ite_self]
  | _ => rfl

/-- A write adds to the stream it goes to what it took, and to the other nothing. -/
theorem Wrote.captured {fd : Fd} {data : Bytes} {count : Nat} (wrote : Wrote m fd data count after)
    (stream : OutputStream) :
    after.captured stream =
      m.captured stream ++ m.acceptedOn stream (.write fd data) (count : Int) := by
  cases wrote with
  | stalled entry input stall => simp [acceptedOn]
  | stdout entry runs =>
    cases stream <;>
      simp [Machine.captured, acceptedOn, entry, OutputStream.file, take_length_capped]
  | stderr entry runs =>
    cases stream <;>
      simp [Machine.captured, acceptedOn, entry, OutputStream.file, take_length_capped]
  | file entry runs writes written =>
    cases stream <;> simp [Machine.captured, acceptedOn, entry, OutputStream.file, movedTo]

/-- Time goes by without any output. -/
theorem captured_later (m : Machine) (micros : Nat) (stream : OutputStream) :
    (m.later micros).captured stream = m.captured stream := by
  cases stream <;> rfl

/-- So it is with every call that comes back. -/
theorem Succeeded.captured {reply : request.Reply} (h : Succeeded m request reply after)
    (stream : OutputStream) :
    after.captured stream = m.captured stream ++ m.acceptedOn stream request reply := by
  cases h with
  | write wrote => exact wrote.captured stream
  | read read => cases read <;> cases stream <;> exact (List.append_nil _).symm
  | sleep => exact (captured_later m _ stream).trans (List.append_nil _).symm
  | usleep => exact (captured_later m _ stream).trans (List.append_nil _).symm
  | _ => cases stream <;> exact (List.append_nil _).symm

/-- A call adds to a stream what the stream accepted, whatever else it does. -/
theorem captured_perform (m : Machine) (stream : OutputStream) (request : Request) :
    (m.perform request).2.captured stream =
      m.captured stream ++ m.acceptedOn stream request (m.perform request).1 := by
  show ((m.counted request).respond request).2.captured stream =
    m.captured stream ++ m.acceptedOn stream request ((m.counted request).respond request).1
  have unchanged : (m.counted request).captured stream = m.captured stream := by
    cases stream <;> rfl
  rcases (m.counted request).respond_cases request with ⟨fails, -, e, he⟩ | h
  · rw [acceptedOn_of_fails fails, List.append_nil, he, ← unchanged]
    cases stream <;> rfl
  · rw [← unchanged, ← acceptedOn_counted m request]
    exact h.captured stream

/-- A call that breaks off is a sleep, and passes nothing to a stream. -/
theorem acceptedOn_of_breaks (broken : breaks request m = true) (reply : request.Reply) :
    m.acceptedOn stream request reply = [] := by
  cases request with
  | write => contradiction
  | _ => rfl

/-- However a program ends, a stream holds what it held before and what it accepted since. -/
theorem captured_runUpTo {α : Type} (p : Program α) (m : Machine) (stream : OutputStream) :
    (p.runUpTo breaks host m).state.captured stream =
      m.captured stream ++ m.accepted stream (p.runUpTo breaks host m).events := by
  -- The machine is general: each answer comes with another one, where the rest begins.
  induction p generalizing m with
  | done a => exact (List.append_nil _).symm
  | ask request next ih =>
    have here := m.captured_perform stream request
    cases broken : breaks request m with
    | true =>
      rw [acceptedOn_of_breaks broken] at here
      rw [Program.runUpTo_ask_of_breaks _ _ broken]
      exact here
    | false =>
      have later := ih (m.perform request).1 (m.perform request).2
      rw [here, List.append_assoc] at later
      rw [Program.runUpTo_ask_of_answered _ _ broken]
      exact later
  | note entry next ih => exact ih m
  | stop reason => cases stream <;> exact (List.append_nil _).symm
  | crash cause => exact (List.append_nil _).symm

theorem captured_emptied (m : Machine) (stream : OutputStream) : m.emptied.captured stream = [] := by
  cases stream <;> rfl

/-- A run adds to each stream what its writes took, in order, also when it crashes. -/
theorem captured_play (m : Machine) (argv : List String) (body : Applet.Body)
    (stream : OutputStream) :
    (m.play argv body).state.captured stream =
      m.captured stream ++ m.accepted stream (m.play argv body).events :=
  captured_runUpTo _ m stream

/-- A result reports what was there before the run and what was accepted in it. -/
theorem output_of_finished {result : CommandResult}
    (finished : (m.run argv body).verdict = .finished result) (stream : OutputStream) :
    result.output stream =
      m.captured stream ++ m.accepted stream (m.play argv body).events := by
  rcases status_or_crash (m.play argv body).outcome with ⟨status, ended⟩ | ⟨cause, crash⟩
  · obtain ⟨verdict, -⟩ := run_of_status ended
    obtain rfl := Verdict.finished.inj (verdict.symm.trans finished)
    rw [← captured_play]
    cases stream <;> rfl
  · have crashed := (run_of_crash crash).1.symm.trans finished
    contradiction

/-- A run takes the machine through turns too: those of its program, and the taking of the
output. -/
theorem exists_after_act (m : Machine) (act : Act) : ∃ turns, m.act act = m.after turns := by
  cases act with
  | between turn => exact ⟨[turn], rfl⟩
  | run argv body =>
    obtain ⟨turns, played⟩ : ∃ turns, (m.play argv body).state = m.after turns :=
      exists_after_runUpTo breaks _ m
    rcases status_or_crash (m.play argv body).outcome with ⟨status, ended⟩ | ⟨cause, crash⟩
    · refine ⟨turns ++ [.takeStdout, .takeStderr], ?_⟩
      have machine := (run_of_status ended).2
      rw [played] at machine
      rw [after_append]
      exact machine
    · exact ⟨turns, (run_of_crash crash).2.trans played⟩

/-- The standard streams keep to their numbers whatever is done to the machine. -/
theorem InPlace.act (h : m.InPlace) (act : Act) : (m.act act).InPlace := by
  obtain ⟨turns, reached⟩ := m.exists_after_act act
  rw [reached]
  exact h.after turns

/-- What is passed to a stream goes through the descriptor of that stream. -/
theorem InPlace.acceptedOn_eq_nil (h : m.InPlace) {fd : Fd} (elsewhere : fd ≠ stream.fd)
    (data : Bytes) (count : Int) : m.acceptedOn stream (.write fd data) count = [] := by
  refine if_neg fun entry => elsewhere ?_
  have place := h fd stream.file entry
  cases stream <;> exact place

/-- A turn that does not write to a stream leaves it, or empties it by taking it. -/
theorem captured_turn (inPlace : m.InPlace) {turn : Turn} (quiet : ¬ turn.writesTo stream) :
    (m.turn turn).captured stream = if turn.takes stream then [] else m.captured stream := by
  cases turn with
  | call request =>
    have nothing : m.acceptedOn stream request (m.perform request).1 = [] := by
      cases request with
      | write fd data => exact inPlace.acceptedOn_eq_nil quiet data _
      | _ => rfl
    have captured := m.captured_perform stream request
    rw [nothing, List.append_nil] at captured
    exact captured
  | _ => cases stream <;> rfl

/-- So does an act. -/
theorem captured_act (inPlace : m.InPlace) {act : Act} (quiet : ¬ act.writesTo stream) :
    (m.act act).captured stream = m.leaves stream (m.captured stream) act := by
  cases act with
  | between turn => exact captured_turn inPlace quiet
  | run argv body =>
    rcases status_or_crash (m.play argv body).outcome with ⟨status, ended⟩ | ⟨cause, crash⟩
    · rw [act, leaves, (run_of_status ended).2, captured_emptied, ended]
    · rw [act, leaves, (run_of_crash crash).2, captured_play, crash]
      rfl

/-- A history without writes of its own leaves of a stream what it did not take. -/
theorem captured_acts (inPlace : m.InPlace) {history : List Act}
    (quiet : ∀ act ∈ history, ¬ act.writesTo stream) :
    (m.acts history).captured stream = m.leftBy stream (m.captured stream) history := by
  -- What an act leaves is what the next one finds, so the kept output moves on with the machine.
  induction history generalizing m with
  | nil => rfl
  | cons act history ih =>
    have first := captured_act inPlace (quiet act List.mem_cons_self)
    have rest := ih (inPlace.act act) fun later mem => quiet later (List.mem_cons_of_mem act mem)
    rw [first] at rest
    exact rest

/-- Nothing is left where nothing was left before and the act does not crash. -/
theorem leaves_of_not_crashes {act : Act} (ends : ¬ m.crashes act) :
    m.leaves stream [] act = [] := by
  cases act with
  | between turn => exact ite_self _
  | run argv body =>
    obtain ⟨status, ended⟩ := Option.ne_none_iff_exists'.1 ends
    rw [leaves, ended]

/-- Where no run crashes, nothing is left for the next. -/
theorem leftBy_of_noneCrashes {history : List Act} (ends : m.NoneCrashes history) :
    m.leftBy stream [] history = [] := by
  induction history generalizing m with
  | nil => rfl
  | cons act history ih =>
    rw [leftBy, leaves_of_not_crashes ends.1]
    exact ih ends.2

/-- **What a result reports.** Let the streams be open under their own numbers, as on every machine
that a setup starts. Whatever runs came before, and however they ended, the result of a run has the
output of that run behind what the crashed runs left; it has the output of that run and nothing else
if and only if they left nothing, and so wherever none crashed. -/
theorem results_report_output (stream : OutputStream) (inPlace : m.InPlace)
    (fresh : m.captured stream = []) {history : List Act}
    (quiet : ∀ act ∈ history, ¬ act.writesTo stream) {result : CommandResult}
    (finished : ((m.acts history).run argv body).verdict = .finished result) :
    let own := (m.acts history).accepted stream ((m.acts history).play argv body).events
    result.output stream = m.leftBy stream [] history ++ own ∧
      (result.output stream = own ↔ m.leftBy stream [] history = []) ∧
      (m.NoneCrashes history → result.output stream = own) := by
  intro own
  have left : (m.acts history).captured stream = m.leftBy stream [] history := by
    rw [captured_acts inPlace quiet, fresh]
  have reported : result.output stream = m.leftBy stream [] history ++ own := by
    rw [output_of_finished finished, left]
  refine ⟨reported, ?_, ?_⟩
  · rw [reported]
    exact List.append_left_eq_self
  · intro ends
    rw [reported, leftBy_of_noneCrashes ends, List.nil_append]

/-- A run that writes and crashes, and one that writes and returns. -/
theorem results_report_output_after_crash :
    let writing (data : Bytes) (rest : Program Int) : Applet.Body := fun f _ => do
      let _ ← f.write .stdout data
      rest
    let history : List Act := [.run ["a"] (writing [1, 2] (.crash (.message "m")))]
    let next := writing [3] (return 0)
    ((initial.acts history).run ["b"] next).verdict = .finished ⟨0, [1, 2, 3], []⟩ ∧
      [1, 2, 3] = initial.leftBy .stdout [] history ++
        (initial.acts history).accepted .stdout ((initial.acts history).play ["b"] next).events ∧
      (initial.acts history).accepted .stdout ((initial.acts history).play ["b"] next).events =
        [3] := by
  intro writing history next
  have quiet : ∀ act ∈ history, ¬ act.writesTo .stdout := by
    intro act mem
    rw [List.mem_singleton.1 mem]
    exact id
  have finished : ((initial.acts history).run ["b"] next).verdict =
      .finished ⟨0, [1, 2, 3], []⟩ := by
    decide
  have inPlace : initial.InPlace := inPlace_of_build build_nil
  obtain ⟨reported, -, -⟩ := results_report_output .stdout inPlace rfl quiet finished
  exact ⟨finished, reported, by decide⟩

end Machine

end Hostcall
