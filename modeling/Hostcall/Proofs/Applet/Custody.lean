import Hostcall.Applet.RoundTrip
import Hostcall.Proofs.Facade.Returns

/-!
# One descriptor at a time

The applet that writes a file and reads it back opens it twice, and each of the steps between may
fail. Told by the events alone, it holds one descriptor at most (`Step`): it opens only while it
holds none, it writes the file and reads back through the one that it holds, and it closes that one
and no other. Every part of the applet is a `Course` of such steps on every host, and so is the
whole, which begins and ends with nothing held. That no open descriptor is left behind, and none
closed that is not its own, is read off a course (`roundTrip_closes_what_it_opens`).
-/

namespace Hostcall

/-- Whether something that happened is an open or a close. -/
def Event.opensOrCloses : Event → Bool
  | .asked (.openFile ..) _ => true
  | .asked (.close _) _ => true
  | _ => false

namespace Applet.RoundTrip

open Facade (hosted Delivery Printed)
open Program (Ends Returns)

/-! ## Courses -/

section

variable (texts : Fd → String → Prop) (reads : Nat → Int → Prop)

/-- One event, by the descriptor that is held before and after it. What is written while none is
held is the rest of a text that `texts` has for the number, and `reads` limits the counts that reads
are answered with, by the room that they were given. -/
inductive Step : Option Fd → Event → Option Fd → Prop where
  | opened {name : CString} {flags : OpenFlags} {mode : Mode} {n : Int} (success : 0 ≤ n) :
      Step none (.asked (.openFile name flags mode) n) (some ⟨n⟩)
  | refused {name : CString} {flags : OpenFlags} {mode : Mode} {n : Int} (failure : n < 0) :
      Step none (.asked (.openFile name flags mode) n) none
  | closed {fd : Fd} {reply : Int} : Step (some fd) (.asked (.close fd) reply) none
  | offered {fd : Fd} {data : Bytes} {n : Int} (part : data <:+ payload) :
      Step (some fd) (.asked (.write fd data) n) (some fd)
  | readBack {fd : Fd} {buffer filled : Bytes} {n : Int} (count : reads buffer.length n) :
      Step (some fd) (.asked (.read fd buffer) (n, filled)) (some fd)
  | said {fd : Fd} {text : String} {data : Bytes} {n : Int} (own : texts fd text)
      (part : data <:+ Utf8.encode text) : Step none (.asked (.write fd data) n) none
  | removed {name : CString} {reply : Int} : Step none (.asked (.unlink name) reply) none
  | located {buffer : Bytes} {reply : Option Bytes × Bytes} :
      Step none (.asked (.getcwd buffer) reply) none
  | described {code : Int} {reply : Option Bytes} : Step none (.asked (.strerror code) reply) none
  | sampled {held : Option Fd} {code : Int} : Step held (.asked .errno code) held
  | noted {held : Option Fd} {entry : LogEntry} : Step held (.noted entry) held

/-- Events one after the other. -/
inductive Course : Option Fd → List Event → Option Fd → Prop where
  | done {held : Option Fd} : Course held [] held
  | step {held next after : Option Fd} {event : Event} {events : List Event}
      (first : Step texts reads held event next) (rest : Course next events after) :
      Course held (event :: events) after

end

variable {texts more : Fd → String → Prop} {reads laxer : Nat → Int → Prop}
  {held next after : Option Fd} {fd : Fd} {events before later : List Event}

/-- Courses are joined where the descriptor in hand is the same. -/
theorem Course.append (first : Course texts reads held before next)
    (rest : Course texts reads next later after) :
    Course texts reads held (before ++ later) after := by
  induction first with
  | done => exact rest
  | step first _ ih => exact .step first (ih rest)

/-- A step stays one where more is allowed. -/
theorem Step.mono {event : Event} (h : Step texts reads held event next)
    (texts_le : ∀ fd text, texts fd text → more fd text)
    (reads_le : ∀ room n, reads room n → laxer room n) : Step more laxer held event next := by
  cases h with
  | opened success => exact .opened success
  | refused failure => exact .refused failure
  | closed => exact .closed
  | offered part => exact .offered part
  | readBack count => exact .readBack (reads_le _ _ count)
  | said own part => exact .said (texts_le _ _ own) part
  | removed => exact .removed
  | located => exact .located
  | described => exact .described
  | sampled => exact .sampled
  | noted => exact .noted

theorem Course.mono (h : Course texts reads held events after)
    (texts_le : ∀ fd text, texts fd text → more fd text)
    (reads_le : ∀ room n, reads room n → laxer room n) : Course more laxer held events after := by
  induction h with
  | done => exact .done
  | step first _ ih => exact .step (first.mono texts_le reads_le) ih

/-- Events that leave the descriptor in hand alone are a course, in any number. -/
theorem Course.of_forall (h : ∀ event ∈ events, Step texts reads held event held) :
    Course texts reads held events held := by
  induction events with
  | nil => exact .done
  | cons event events ih =>
    refine .step (h event List.mem_cons_self) (ih ?_)
    intro other hother
    exact h other (List.mem_cons_of_mem _ hother)

/-- An event of a course is a step from what the events before it have left held. -/
theorem Course.split {event : Event} (h : Course texts reads held events after)
    (here : events = before ++ event :: later) :
    ∃ reached next, Course texts reads held before reached ∧
      Step texts reads reached event next ∧ Course texts reads next later after := by
  subst here
  induction before generalizing held with
  | nil =>
    cases h with
    | step first rest => exact ⟨held, _, .done, first, rest⟩
  | cons other before ih =>
    cases h with
    | step first rest =>
      obtain ⟨reached, next, reaching, step, rest⟩ := ih rest
      exact ⟨reached, next, .step first reaching, step, rest⟩

/-! ## What is held -/

/-- A descriptor was opened, and nothing was opened or closed since. -/
def Held (fd : Fd) (events : List Event) : Prop :=
  ∃ before name flags mode since,
    events = before ++ .asked (.openFile name flags mode) fd.number :: since ∧ 0 ≤ fd.number ∧
      ∀ event ∈ since, event.opensOrCloses = false

theorem Held.cons (h : Held fd events) (event : Event) : Held fd (event :: events) := by
  obtain ⟨before, name, flags, mode, since, rfl, valid, quiet⟩ := h
  exact ⟨event :: before, name, flags, mode, since, rfl, valid, quiet⟩

/-- An open begins where nothing is held and a close ends where something is; no other step changes
what is held. -/
theorem Step.custody {event : Event} (h : Step texts reads held event next) :
    (event.opensOrCloses = false ∧ next = held) ∨
    (∃ name flags mode n, event = .asked (.openFile name flags mode) n ∧ held = none ∧
      (0 ≤ n ∧ next = some ⟨n⟩ ∨ n < 0 ∧ next = none)) ∨
    ∃ fd reply, event = .asked (.close fd) reply ∧ held = some fd ∧ next = none := by
  cases h with
  | opened success => exact .inr (.inl ⟨_, _, _, _, rfl, rfl, .inl ⟨success, rfl⟩⟩)
  | refused failure => exact .inr (.inl ⟨_, _, _, _, rfl, rfl, .inr ⟨failure, rfl⟩⟩)
  | closed => exact .inr (.inr ⟨_, _, rfl, rfl, rfl⟩)
  | _ => exact .inl ⟨rfl, rfl⟩

/-- Without an open or a close, the descriptor in hand stays in hand. -/
theorem Course.eq_of_quiet (h : Course texts reads held events after)
    (quiet : ∀ event ∈ events, event.opensOrCloses = false) : after = held := by
  induction h with
  | done => rfl
  | step first _ ih =>
    obtain ⟨here, rest⟩ := List.forall_mem_cons.1 quiet
    rw [ih rest]
    rcases first.custody with ⟨-, same⟩ | ⟨_, _, _, _, rfl, -⟩ | ⟨_, _, rfl, -⟩
    · exact same
    · contradiction
    · contradiction

/-- What is held at last was held from the start, or it was opened on the way. -/
theorem Course.held_or_opened (h : Course texts reads held events after) (last : after = some fd) :
    (held = some fd ∧ ∀ event ∈ events, event.opensOrCloses = false) ∨ Held fd events := by
  induction h with
  | done => exact .inl ⟨last, by simp⟩
  | @step held next after event events first rest ih =>
    rcases ih last with ⟨reached, quiet⟩ | opened
    · rcases first.custody with ⟨here, rfl⟩ |
        ⟨name, flags, mode, n, rfl, -, ⟨success, rfl⟩ | ⟨-, rfl⟩⟩ | ⟨_, _, -, -, rfl⟩
      · exact .inl ⟨reached, List.forall_mem_cons.2 ⟨here, quiet⟩⟩
      · obtain rfl := Option.some.inj reached
        exact .inr ⟨[], name, flags, mode, events, rfl, success, quiet⟩
      · contradiction
      · contradiction
    · exact .inr (opened.cons event)

/-- From nothing held, exactly what is held at last was opened and not closed since. -/
theorem Course.held_iff (h : Course texts reads none events after) :
    Held fd events ↔ after = some fd := by
  constructor
  · rintro ⟨before, name, flags, mode, since, rfl, valid, quiet⟩
    obtain ⟨reached, next, -, step, rest⟩ := h.split rfl
    have same := rest.eq_of_quiet quiet
    cases step with
    | opened => exact same
    | refused failure => exact absurd valid (Int.not_le.2 failure)
  · intro last
    rcases h.held_or_opened last with ⟨impossible, -⟩ | opened
    · contradiction
    · exact opened

/-- What is held is closed before anything else is opened or closed. -/
theorem Course.closes (h : Course texts reads held events after) (first : held = some fd)
    (last : after = none) :
    ∃ since reply later, events = since ++ .asked (.close fd) reply :: later ∧
      ∀ event ∈ since, event.opensOrCloses = false := by
  induction h with
  | done =>
    rw [first] at last
    contradiction
  | @step held next after event events step _ ih =>
    rcases step.custody with ⟨here, rfl⟩ | ⟨_, _, _, _, -, rfl, -⟩ | ⟨other, reply, rfl, rfl, -⟩
    · obtain ⟨since, reply, later, rfl, quiet⟩ := ih first last
      exact ⟨event :: since, reply, later, rfl, List.forall_mem_cons.2 ⟨here, quiet⟩⟩
    · contradiction
    · obtain rfl := Option.some.inj first
      exact ⟨[], reply, events, rfl, by simp⟩

/-! ## Operations -/

/-- Writing all bytes opens and closes nothing. -/
theorem Course.of_delivery {data : Bytes} {result : Except Error Unit}
    (delivery : Delivery fd data events result)
    (offer : ∀ rest n, rest <:+ data → Step texts reads held (.asked (.write fd rest) n) held) :
    Course texts reads held events held := by
  induction delivery with
  | last ending =>
    cases ending with
    | done => exact .done
    | failed => exact .step (offer _ _ List.suffix_rfl) (.step .sampled (.step .noted .done))
    | stalled => exact .step (offer _ _ List.suffix_rfl) (.step .noted .done)
  | more offered taken rest ih =>
    refine .step (offer _ _ List.suffix_rfl) (ih ?_)
    intro rest n part
    exact offer rest n (part.trans (List.drop_suffix _ _))

/-- Printing opens and closes nothing. -/
theorem Course.of_printed {pieces : List String} (printed : Printed fd pieces events)
    (own : ∀ piece ∈ pieces, texts fd piece) : Course texts reads none events none := by
  induction printed with
  | done => exact .done
  | failed delivery =>
    exact .of_delivery delivery fun rest n part => .said (own _ List.mem_cons_self) part
  | next delivery rest ih =>
    have first : Course texts reads none _ none :=
      .of_delivery delivery fun rest n part => .said (own _ List.mem_cons_self) part
    exact first.append (ih fun piece hp => own piece (List.mem_cons_of_mem _ hp))

/-- Asking for descriptions opens and closes nothing. -/
theorem Course.of_strerror
    (asked : ∀ event ∈ events, ∃ code reply, event = .asked (.strerror code) reply) :
    Course texts reads none events none := by
  apply Course.of_forall
  intro event he
  obtain ⟨code, reply, rfl⟩ := asked event he
  exact .described

/-- A call is one step, however it is answered, and a look at the register changes nothing. -/
theorem Course.of_oneCall {ρ : Type} {call : HostCall ρ} {outcome : Outcome ρ}
    (one : OneCall call events outcome)
    (ask : ∀ reply, Step texts reads held (.asked call.request reply) after) :
    Course texts reads held events after := by
  cases one with
  | passed => exact .step (ask _) .done
  | failed => exact .step (ask _) (.step .sampled (.step .noted .done))

/-- After the close nothing is in hand, whether it failed or not. -/
theorem returns_close (fd : Fd) :
    (hosted.close fd).Returns fun events _ => Course texts reads (some fd) events none :=
  (Facade.returns_perform (.close fd) rfl).mono fun _ _ one =>
    .of_oneCall one fun _ => .closed

theorem returns_unlink (path : String) :
    (hosted.unlink path).Returns fun events _ => Course texts reads none events none :=
  (Facade.returns_perform (.unlink path) rfl).mono fun _ _ one =>
    .of_oneCall one fun _ => .removed

/-- After an open the descriptor that it gave is held, and none if it failed. -/
theorem returns_openFile (path : String) (flags : OpenFlags) (mode : Mode) :
    (hosted.openFile path flags mode).Returns fun events result =>
      Course texts reads none events result.toOption := by
  refine (Facade.returns_perform (.openFile path flags mode) rfl).mono ?_
  intro events result one
  cases one with
  | passed fine => exact .step (.opened (Int.not_lt.1 fine)) .done
  | failed fails => exact .step (.refused fails) (.step .sampled (.step .noted .done))

/-- A read is one step by the count that it is answered with. -/
theorem returns_read {buffer : Bytes} (room : buffer ≠ []) :
    (hosted.read fd buffer).Returns fun events result =>
      ∃ n filled, .asked (.read fd buffer) (n, filled) ∈ events ∧
        (∀ (texts : Fd → String → Prop) (reads : Nat → Int → Prop), reads buffer.length n →
          Course texts reads (some fd) events (some fd)) ∧
        result.2.length = buffer.length ∧
        (n < 0 ∧ (∃ e, result.1 = .error e) ∨ 0 ≤ n ∧ result.1 = .ok n.toNat) := by
  have one := Facade.returns_perform (.read fd buffer)
    (Operation.unlessEmpty_eq_some.2 ⟨room, rfl⟩)
  refine one.mono ?_
  intro events result one
  cases one with
  | @passed reply fine =>
    obtain ⟨n, filled⟩ := reply
    refine ⟨n, filled, List.mem_cons_self, ?_, Bytes.length_overlay _ _,
      .inr ⟨Int.not_lt.1 fine, rfl⟩⟩
    intro texts reads count
    exact .step (.readBack count) .done
  | @failed reply code fails =>
    obtain ⟨n, filled⟩ := reply
    refine ⟨n, filled, List.mem_cons_self, ?_, Bytes.length_overlay _ _, .inl ⟨fails, _, rfl⟩⟩
    intro texts reads count
    exact .step (.readBack count) (.step .sampled (.step .noted .done))

/-! ## Parts of the applet -/

/-- The steps that may fail, by the names that they have in a report. -/
def stepNames : List String :=
  ["open(O_WRONLY|O_CREAT|O_TRUNC)", "write", "close(write fd)", "open(O_RDONLY)", "read"]

/-- What a report says where no operation failed. -/
def checks : List String := ["empty argv", "content mismatch"]

/-- Whether it is one of the troubles that the applet has. -/
def Trouble.Known : Trouble → Prop
  | .step name _ => name ∈ stepNames
  | .check what => what ∈ checks

/-- A read is answered with no more than it has room for. -/
def Fits (room : Nat) (n : Int) : Prop := n ≤ room

/-- Some read is answered with more than it has room for. -/
def Overread (events : List Event) : Prop :=
  ∃ fd buffer n filled, .asked (.read fd buffer) (n, filled) ∈ events ∧ (buffer.length : Int) < n

/-- A part of the applet that comes back with what it holds closed, or crashes after it has closed
it because a read was answered with too much. -/
inductive Tried (texts : Fd → String → Prop) (held : Option Fd) :
    List Event → Outcome (Except Trouble Unit) → Prop where
  | back {events : List Event} {result : Except Trouble Unit}
      (course : Course texts Fits held events none)
      (known : ∀ trouble, result = .error trouble → trouble.Known) :
      Tried texts held events (.returned result)
  | overrun {events : List Event} (course : Course texts (fun _ _ => True) held events none)
      (excess : Overread events) : Tried texts held events (.crashed .overrun)

theorem Overread.append_right (h : Overread later) (before : List Event) :
    Overread (before ++ later) := by
  obtain ⟨fd, buffer, n, filled, made, excess⟩ := h
  exact ⟨fd, buffer, n, filled, List.mem_append_right _ made, excess⟩

theorem Overread.append_left (h : Overread before) (later : List Event) :
    Overread (before ++ later) := by
  obtain ⟨fd, buffer, n, filled, made, excess⟩ := h
  exact ⟨fd, buffer, n, filled, List.mem_append_left _ made, excess⟩

variable {outcome : Outcome (Except Trouble Unit)}

/-- What was tried after a first course was tried from the start of it. -/
theorem Tried.preceded (rest : Tried texts next later outcome)
    (first : Course texts Fits held before next) : Tried texts held (before ++ later) outcome := by
  cases rest with
  | back course known => exact .back (first.append course) known
  | overrun course excess =>
    have first := first.mono (fun _ _ own => own) fun _ _ _ => trivial
    exact .overrun (first.append course) (excess.append_right before)

theorem Tried.mono (h : Tried texts held events outcome)
    (texts_le : ∀ fd text, texts fd text → more fd text) : Tried more held events outcome := by
  cases h with
  | back course known => exact .back (course.mono texts_le fun _ _ fits => fits) known
  | overrun course excess => exact .overrun (course.mono texts_le fun _ _ any => any) excess

/-- What is done after a course is judged from what the course has left held. -/
theorem ends_after {p : Program (Except Trouble Unit)} (first : Course texts Fits held before next)
    (rest : p.Ends (Tried texts next)) :
    p.Ends fun events outcome => Tried texts held (before ++ events) outcome :=
  rest.mono fun _ _ tried => tried.preceded first

theorem ends_error {trouble : Trouble} (known : trouble.Known) :
    (pure (.error trouble) : Program (Except Trouble Unit)).Ends (Tried texts none) := by
  intro σ host s
  refine .back .done ?_
  rintro _ ⟨⟩
  exact known

theorem ends_ok : (pure (.ok ()) : Program (Except Trouble Unit)).Ends (Tried texts none) := by
  intro σ host s
  exact .back .done (by simp)

/-- The descriptor of the new file is closed in any case. -/
theorem ends_writeOut (fd : Fd) : (writeOut hosted fd).Ends (Tried texts (some fd)) := by
  refine (Facade.returns_writeAll fd payload).ends_bind fun before written delivery => ?_
  have offering : Course texts Fits (some fd) before (some fd) :=
    .of_delivery delivery fun rest n part => .offered part
  refine ends_after offering ?_
  cases written with
  | error e =>
    refine (returns_close fd).ends_bind fun closing _ closed => ends_after closed ?_
    exact ends_error (show "write" ∈ stepNames by decide)
  | ok =>
    refine (returns_close fd).ends_bind fun closing result closed => ends_after closed ?_
    cases result with
    | error e => exact ends_error (show "close(write fd)" ∈ stepNames by decide)
    | ok => exact ends_ok

/-- The descriptor is closed before anything is made of what was read. -/
theorem ends_readBack (fd : Fd) : (readBack hosted fd).Ends (Tried texts (some fd)) := by
  have room : List.replicate bufferLength (0 : UInt8) ≠ [] := by decide
  refine (returns_read room).ends_bind ?_
  rintro before ⟨count, buffer⟩ ⟨n, filled, made, reading, length, answered⟩
  by_cases fits : Fits (List.replicate bufferLength (0 : UInt8)).length n
  · refine ends_after (reading texts Fits fits) ?_
    refine (returns_close fd).ends_bind fun closing _ closed => ends_after closed ?_
    obtain ⟨-, e, rfl⟩ | ⟨valid, rfl⟩ := answered
    · exact ends_error (show "read" ∈ stepNames by decide)
    · have within : ¬ buffer.length < n.toNat := by
        rw [show buffer.length = _ from length]
        exact Nat.not_lt.2 (Int.toNat_le.2 fits)
      simp only [if_neg within]
      split
      · exact ends_error (show "content mismatch" ∈ checks by decide)
      · exact ends_ok
  · obtain ⟨negative, -⟩ | ⟨valid, rfl⟩ := answered
    · exact absurd (Int.le_trans (Int.le_of_lt negative) (Int.natCast_nonneg _)) fits
    have past : buffer.length < n.toNat := by
      rw [show buffer.length = _ from length]
      exact Int.lt_toNat.2 (Int.not_le.1 fits)
    -- The descriptor is closed before the crash.
    have close : (hosted.close fd).Returns fun events _ =>
        Course texts (fun _ _ => True) (some fd) events none := returns_close fd
    refine close.ends_bind fun closing _ closed => ?_
    simp only [if_pos past]
    intro σ host s
    rw [Program.run, List.append_nil]
    refine .overrun ((reading texts _ trivial).append closed) ?_
    exact Overread.append_left ⟨fd, _, n, filled, made, Int.not_le.1 fits⟩ closing

/-- Trying comes to a crash only by a read, and what came before stays as it was. -/
theorem Tried.bind {f : Except Trouble Unit → Program (Except Trouble Unit)}
    {p : Program (Except Trouble Unit)} (first : p.Ends (Tried texts held))
    (failed : ∀ trouble, trouble.Known → (f (.error trouble)).Ends (Tried texts none))
    (ok : (f (.ok ())).Ends (Tried texts none)) : (p >>= f).Ends (Tried texts held) := by
  refine Ends.bind first (fun _ _ h => nomatch h) (fun _ _ h => ?_) ?_
  · cases h with
    | overrun course excess => exact .overrun course excess
  · intro before result tried
    cases tried with
    | back course known =>
      refine ends_after course ?_
      cases result with
      | error trouble => exact failed trouble (known trouble rfl)
      | ok => exact ok

/-- Both descriptors are closed, however the exercise ends. -/
theorem ends_exercise (path : String) : (exercise hosted path).Ends (Tried texts none) := by
  refine (returns_unlink path).ends_bind fun _ _ unlinked => ends_after unlinked ?_
  refine (returns_openFile path _ _).ends_bind fun _ result opened => ends_after opened ?_
  cases result with
  | error e => exact ends_error (show "open(O_WRONLY|O_CREAT|O_TRUNC)" ∈ stepNames by decide)
  | ok fd =>
    refine Tried.bind (ends_writeOut fd) (fun trouble known => ends_error known) ?_
    refine (returns_openFile path _ _).ends_bind fun _ result opened => ends_after opened ?_
    cases result with
    | error e => exact ends_error (show "open(O_RDONLY)" ∈ stepNames by decide)
    | ok fd => exact ends_readBack fd

/-! ## The whole applet -/

/-- The host has told a text as the current directory. -/
def Told (events : List Event) (text : String) : Prop :=
  ∃ buffer raw filled, .asked (.getcwd buffer) (some raw, filled) ∈ events ∧ Utf8.decode raw = text

/-- The texts for the standard output. -/
def Shown (events : List Event) (fd : Fd) (text : String) : Prop :=
  fd = .stdout ∧
    (text ∈ ["roundtrip: start\n", "cwd: ", "\n", "roundtrip: OK\n"] ∨ Told events text)

/-- What a report says of a trouble. -/
def Explains (message : String) : Prop :=
  message ∈ checks ∨ ∃ name ∈ stepNames, ∃ words, message = name ++ ": " ++ words

/-- The texts of the applet: those for the standard output, and those of a report on the standard
error. -/
def Texts (events : List Event) (fd : Fd) (text : String) : Prop :=
  Shown events fd text ∨ fd = .stderr ∧ (text ∈ ["roundtrip: ", "\n"] ∨ Explains text)

/-- What was shown stays shown as more happens. -/
theorem Shown.mono {text : String} (h : Shown before fd text)
    (kept : ∀ event ∈ before, event ∈ events) : Shown events fd text := by
  obtain ⟨output, fixed | ⟨buffer, raw, filled, told, same⟩⟩ := h
  · exact ⟨output, .inl fixed⟩
  · exact ⟨output, .inr ⟨buffer, raw, filled, kept _ told, same⟩⟩

theorem Course.told {told : List Event} (h : Course (Shown told) reads held events after)
    (kept : ∀ event ∈ told, event ∈ later) : Course (Shown later) reads held events after :=
  h.mono (fun _ _ own => own.mono kept) fun _ _ fits => fits

/-- How the applet ends: with nothing but its texts on the standard output, with a report, or with a
crash because a read was answered with too much. -/
inductive Concluded (events : List Event) : Outcome Int → Prop where
  | good (course : Course (Shown events) Fits none events none) : Concluded events (.returned 0)
  | reported (course : Course (Texts events) Fits none events none)
      (report : ∃ n, .asked (.write .stderr (Utf8.encode "roundtrip: ")) n ∈ events) :
      Concluded events (.returned 1)
  | overrun (course : Course (Shown events) (fun _ _ => True) none events none)
      (excess : Overread events) : Concluded events (.crashed .overrun)

/-- However it ends, the whole is a course. -/
theorem Concluded.course {outcome : Outcome Int} (h : Concluded events outcome) :
    Course (Texts events) (fun _ _ => True) none events none := by
  cases h with
  | good course => exact course.mono (fun _ _ => .inl) fun _ _ _ => trivial
  | reported course report => exact course.mono (fun _ _ own => own) fun _ _ _ => trivial
  | overrun course excess => exact course.mono (fun _ _ => .inl) fun _ _ any => any

/-- The current directory that is shown is the one that the host has told. -/
theorem returns_showDir :
    (showDir hosted).Returns fun events _ => Course (Shown events) Fits none events none := by
  refine (Facade.returns_perform .currentDir rfl).bind fun before result one => ?_
  have asking {texts : Fd → String → Prop} : Course texts Fits none before none :=
    .of_oneCall one fun _ => .located
  cases one with
  | @passed reply fine =>
    obtain ⟨_ | raw, filled⟩ := reply
    · contradiction
    refine (Facade.returns_print .stdout _).mono fun printing _ printed => ?_
    refine asking.append (.of_printed printed ?_)
    simp only [List.forall_mem_cons]
    refine ⟨⟨rfl, .inl (by decide)⟩, ⟨rfl, .inr ?_⟩, ⟨rfl, .inl (by decide)⟩, by simp⟩
    exact ⟨_, raw, filled, List.mem_cons_self, rfl⟩
  | failed fails =>
    refine .pure ?_
    rw [List.append_nil]
    exact asking

/-- Nothing is said but the current directory. -/
theorem ends_attempt (args : Args) :
    (attempt hosted args).Ends fun events => Tried (Shown events) none events := by
  unfold attempt
  split
  · have refused : (pure (.error (.check "empty argv")) : Program (Except Trouble Unit)).Ends
        (Tried (fun _ _ => False) none) := ends_error (show "empty argv" ∈ checks by decide)
    exact refused.mono fun _ _ tried => tried.mono fun _ _ => False.elim
  · refine returns_showDir.ends_bind fun before _ shown => ?_
    have silent (path : String) : (exercise hosted path).Ends (Tried (fun _ _ => False) none) :=
      ends_exercise path
    refine (silent _).mono fun later _ tried => ?_
    exact (tried.mono fun _ _ => False.elim).preceded
      (shown.told fun _ => List.mem_append_left later)

/-- A trouble is explained without touching a descriptor. -/
theorem returns_report {trouble : Trouble} (known : trouble.Known) :
    (describe hosted trouble).Returns fun events message =>
      (∀ event ∈ events, ∃ code reply, event = .asked (.strerror code) reply) ∧
        Explains message := by
  cases trouble with
  | check what => exact .pure ⟨by simp, .inl known⟩
  | step name e =>
    refine (Facade.returns_describe e).map fun events words asked => ?_
    exact ⟨asked, .inr ⟨name, known, words, rfl⟩⟩

/-- However the applet ends on whatever host, it ends in one of the known ways. -/
theorem concluded_roundTrip (args : Args) : (roundTrip hosted args).Ends Concluded := by
  refine (Facade.returns_writeAll .stdout _).ends_bind fun starting _ delivery => ?_
  have start {events : List Event} {reads : Nat → Int → Prop} :
      Course (Shown events) reads none starting none :=
    .of_delivery delivery fun rest n part => .said ⟨rfl, .inl (by decide)⟩ part
  refine Ends.bind (ends_attempt args) (fun _ _ h => nomatch h) ?_ ?_
  · intro trying cause tried
    cases tried with
    | overrun course excess =>
      refine .overrun (start.append ?_) (excess.append_right starting)
      exact course.told fun _ => List.mem_append_right starting
  intro trying result tried
  cases tried with
  | back course known =>
    have inside {events : List Event} :
        Course (Shown (starting ++ (trying ++ events))) Fits none trying none :=
      course.told fun _ he => List.mem_append_right _ (List.mem_append_left _ he)
    cases result with
    | ok =>
      refine (Facade.returns_writeAll .stdout _).ends_map fun closing _ delivery => .good ?_
      refine start.append (inside.append (.of_delivery delivery fun rest n part => ?_))
      exact .said ⟨rfl, .inl (by decide)⟩ part
    | error trouble =>
      refine (returns_report (known trouble rfl)).ends_bind ?_
      rintro describing message ⟨asked, explains⟩
      refine (Facade.returns_print .stderr _).ends_map fun printing _ printed => ?_
      obtain ⟨n, later, first⟩ := printed.first (by decide)
      have report : .asked (.write .stderr (Utf8.encode "roundtrip: ")) n ∈ printing :=
        first ▸ List.mem_cons_self
      have own {events : List Event} {text : String}
          (fixed : text ∈ ["roundtrip: ", "\n"] ∨ Explains text) : Texts events .stderr text :=
        .inr ⟨rfl, fixed⟩
      refine .reported ?_ ⟨n, by simp [report]⟩
      refine (start.mono (fun _ _ => .inl) fun _ _ fits => fits).append ?_
      refine (inside.mono (fun _ _ => .inl) fun _ _ fits => fits).append ?_
      refine (Course.of_strerror asked).append (.of_printed printed ?_)
      simp only [List.forall_mem_cons]
      exact ⟨own (.inl (by decide)), own (.inr explains), own (.inl (by decide)), by simp⟩

/-- **The applet leaves no descriptor open**, on any host and whatever it fails. Each open that
succeeds is followed by a close of the number that it gave, with no open and no close between them;
no other close is made; the file is written and read back only through a number that is held so; and
nothing but a text of its own is written while none is held. -/
theorem roundTrip_closes_what_it_opens {σ : Type} (host : Host σ) (args : Args) (s : σ) :
    let events := ((roundTrip hosted args).run host s).events
    (∀ before name flags mode n later,
      events = before ++ .asked (.openFile name flags mode) n :: later → 0 ≤ n →
        ∃ since reply rest, later = since ++ .asked (.close ⟨n⟩) reply :: rest ∧
          ∀ event ∈ since, event.opensOrCloses = false) ∧
    (∀ before fd reply later, events = before ++ .asked (.close fd) reply :: later →
      Held fd before) ∧
    (∀ before fd buffer reply later, events = before ++ .asked (.read fd buffer) reply :: later →
      Held fd before) ∧
    ∀ before fd data n later, events = before ++ .asked (.write fd data) n :: later →
      Held fd before ∧ data <:+ payload ∨
      (∀ other, ¬ Held other before) ∧
        ∃ text, Texts events fd text ∧ data <:+ Utf8.encode text := by
  intro events
  have course : Course (Texts events) (fun _ _ => True) none events none :=
    (concluded_roundTrip args σ host s).course
  refine ⟨?_, ?_, ?_, ?_⟩
  · intro before name flags mode n later hevents success
    obtain ⟨reached, next, -, step, rest⟩ := course.split hevents
    cases step with
    | opened => exact rest.closes rfl rfl
    | refused failure => exact absurd success (Int.not_le.2 failure)
  · intro before fd reply later hevents
    obtain ⟨reached, next, reaching, step, -⟩ := course.split hevents
    cases step with
    | closed => exact reaching.held_iff.2 rfl
  · intro before fd buffer reply later hevents
    obtain ⟨reached, next, reaching, step, -⟩ := course.split hevents
    cases step with
    | readBack => exact reaching.held_iff.2 rfl
  · intro before fd data n later hevents
    obtain ⟨reached, next, reaching, step, -⟩ := course.split hevents
    cases step with
    | offered part => exact .inl ⟨reaching.held_iff.2 rfl, part⟩
    | @said _ text _ _ own part =>
      refine .inr ⟨fun other held => ?_, text, own, part⟩
      exact nomatch reaching.held_iff.1 held

end Applet.RoundTrip

end Hostcall
