import Mathlib.Logic.Function.Basic
import Hostcall.Proofs.Facade.CapBlind
import Hostcall.Proofs.Facade.Discipline
import Hostcall.Proofs.Machine.Admits
import Hostcall.Proofs.Machine.CurrentDirectory
import Hostcall.Proofs.Machine.DescriptorTable

/-!
# Programs on a machine, seen from outside

What an applet does to a machine is said of the tree, the current directory, the open descriptors,
the number that the next one gets, and the standard error; the register, the counts and the rest are
left out of it (`View`). Where the
standard streams are in place and writes take something (`Ready`), writing all bytes goes through
whatever the cap (`exists_run_writeAll`), and an operation that makes one call comes to what the
machine answers to that call (`goes_perform`). `Goes` says what a program comes to from a view, and
carries over from the parts of a program to the program.
-/

namespace Hostcall

open Facade (hosted)

/-! ## Runs and the states of the host -/

section

variable {σ α : Type}

/-- What happened, with the states of the host before and after it. -/
inductive Replay (host : Host σ) : σ → List Event → σ → Prop where
  | done {s : σ} : Replay host s [] s
  | asked {s after : σ} {request : Request} {events : List Event}
      (rest : Replay host (host.answer request s).2 events after) :
      Replay host s (.asked request (host.answer request s).1 :: events) after
  | noted {s after : σ} {entry : LogEntry} {events : List Event}
      (rest : Replay host s events after) : Replay host s (.noted entry :: events) after
  | stopped {s : σ} {reason : Stop} : Replay host s [.stopped reason] (host.stop reason s)

/-- The events of a run are what the host has answered, one state after the other. -/
theorem Program.replay (p : Program α) (host : Host σ) (s : σ) :
    Replay host s (p.run host s).events (p.run host s).state := by
  induction p generalizing s with
  | done a => exact .done
  | ask request next ih => exact .asked (ih _ _)
  | note entry next ih => exact .noted (ih s)
  | stop reason => exact .stopped
  | crash cause => exact .done

/-- An operation that makes one call comes to what the answer to that call says, and after a failure
the register is looked at once more. -/
theorem run_of_call? (host : Host σ) (s : σ) (op : Operation) {call : HostCall op.Result}
    (asks : op.call? = some call) :
    let answer := host.answer call.request s
    (¬ call.request.Fails answer.1 ∧ ∃ events, (hosted.perform op).run host s =
      ⟨events, .returned (call.value answer.1), answer.2⟩) ∨
    (call.request.Fails answer.1 ∧ ∃ events, (hosted.perform op).run host s =
      ⟨events, .returned (call.failure answer.1 (.host ⟨(host.answer .errno answer.2).1⟩)),
        (host.answer .errno answer.2).2⟩) := by
  intro answer
  have one := Facade.oneCall_of_call? host s op asks
  have replay := (hosted.perform op).replay host s
  generalize (hosted.perform op).run host s = r at one replay
  obtain ⟨events, outcome, after⟩ := r
  dsimp only at one replay
  cases one with
  | passed fine =>
    cases replay with
    | asked rest =>
      cases rest with
      | done => exact .inl ⟨fine, _, rfl⟩
  | failed fails =>
    cases replay with
    | asked rest =>
      cases rest with
      | asked rest =>
        cases rest with
        | noted rest =>
          cases rest with
          | done => exact .inr ⟨fails, _, rfl⟩

end

/-- The texts of the table are one line each, without NUL. -/
theorem SysError.text_plain (e : SysError) :
    '\x00' ∉ e.text.toList ∧ '\n' ∉ e.text.toList := by
  cases e <;> decide

namespace Machine

variable {m after : Machine} {fd : Fd} {data : Bytes}

/-! ## Views -/

/-- What can be seen of a machine without asking it. -/
structure View where
  tree : Tree
  cwd : String
  entries : Fd → Option OpenFile
  next : Nat
  stdinPosition : Nat
  stderr : Bytes

/-- What is seen of a machine. -/
def view (m : Machine) : View :=
  ⟨m.tree, m.cwd, m.entry?, m.files.next, m.stdinPosition, m.stderr.bytes⟩

/-- The view of a machine whose descriptors are known. -/
theorem view_eq {entries : Fd → Option OpenFile} {next : Nat} (known : m.entry? = entries)
    (following : m.files.next = next) :
    m.view = ⟨m.tree, m.cwd, entries, next, m.stdinPosition, m.stderr.bytes⟩ := by
  rw [view, known, following]

/-- The outputs are open under their numbers, and a write takes something. -/
structure Ready (m : Machine) : Prop where
  sound : m.files.Sound
  runs : m.stalled = false
  flows : m.writeCap ≠ some 0
  stdout : m.entry? .stdout = some .stdout
  stderr : m.entry? .stderr = some .stderr

/-- The descriptors and the ways in which writes fail decide whether a machine is ready. -/
theorem Ready.congr (ready : m.Ready) (files : after.files = m.files)
    (stalled : after.stalled = m.stalled) (writeCap : after.writeCap = m.writeCap) :
    after.Ready := by
  have same : after.entry? = m.entry? := by
    funext fd
    unfold entry?
    rw [files]
  exact ⟨files ▸ ready.sound, stalled ▸ ready.runs, writeCap ▸ ready.flows, same ▸ ready.stdout,
    same ▸ ready.stderr⟩

/-- From every machine that is ready and is seen so, a program returns and leaves a machine that is
ready, with a result and a view as said. -/
def Goes {α : Type} (p : Program α) (v : View) (post : α → View → Prop) : Prop :=
  ∀ m : Machine, m.Ready → m.view = v →
    ∃ a events n, p.run host m = ⟨events, .returned a, n⟩ ∧ n.Ready ∧ post a n.view

section

variable {α β : Type} {p : Program α} {v : View} {post : α → View → Prop}

protected theorem Goes.pure {a : α} (h : post a v) : Goes (pure a) v post :=
  fun m ready seen => ⟨a, [], m, rfl, ready, seen ▸ h⟩

protected theorem Goes.bind {f : α → Program β} {whole : β → View → Prop} (first : Goes p v post)
    (next : ∀ a w, post a w → Goes (f a) w whole) : Goes (p >>= f) v whole := by
  intro m ready seen
  obtain ⟨a, events, n, ran, ready, holds⟩ := first m ready seen
  obtain ⟨b, later, o, reached, ready, holds⟩ := next a n.view holds n ready rfl
  refine ⟨b, events ++ later, o, ?_, ready, holds⟩
  rw [Program.run_bind, ran, Run.followedBy]
  dsimp only
  rw [reached]
  rfl

/-- What a program comes to may be told with less. -/
theorem Goes.mono {weaker : α → View → Prop} (h : Goes p v post)
    (weaken : ∀ a w, post a w → weaker a w) : Goes p v weaker := by
  intro m ready seen
  obtain ⟨a, events, n, ran, ready, holds⟩ := h m ready seen
  exact ⟨a, events, n, ran, ready, weaken a n.view holds⟩

end

/-- An operation that makes one call goes as the machine answers the call. -/
theorem goes_perform (op : Operation) {call : HostCall op.Result} (asks : op.call? = some call)
    {v : View} {post : op.Result → View → Prop}
    (answered : ∀ m : Machine, m.Ready → m.view = v → ∃ reply after,
      m.respond call.request = (reply, after) ∧ after.Ready ∧
        (¬ call.request.Fails reply → post (call.value reply) after.view) ∧
        (call.request.Fails reply → post (call.failure reply (.host ⟨after.errno⟩)) after.view)) :
    Goes (hosted.perform op) v post := by
  intro m ready seen
  obtain ⟨reply, after, answer, settled, passes, fails⟩ :=
    answered (m.counted call.request) (ready.congr rfl rfl rfl) seen
  have answer : host.answer call.request m = (reply, after) := answer
  have come := run_of_call? host m op asks
  rw [answer] at come
  rcases come with ⟨fine, events, ran⟩ | ⟨failed, events, ran⟩
  · exact ⟨_, events, _, ran, settled, passes fine⟩
  · exact ⟨_, events, _, ran, settled.congr rfl rfl rfl, fails failed⟩

/-! ## Writing -/

theorem Ready.uncapped (ready : m.Ready) : m.uncapped.Ready :=
  ⟨ready.sound, ready.runs, nofun, ready.stdout, ready.stderr⟩

/-- Writing all bytes to what a descriptor stands for goes as delivering them does. -/
theorem goes_writeAll {file : OpenFile} {v w : View} (entry : v.entries fd = some file)
    (output : file ≠ .stdin)
    (delivered : ∀ m : Machine, m.Ready → m.view = v →
      ∃ count after, m.deliver fd data file = .ok (count, after) ∧ after.Ready ∧ after.view = w)
    (nothing : data = [] → v = w) :
    Goes (hosted.writeAll fd data) v fun result u => result = .ok () ∧ u = w := by
  intro m ready seen
  by_cases offered : data = []
  · subst offered
    exact ⟨.ok (), [], m, Facade.run_writeAll_nil host fd m, ready, rfl, seen.trans (nothing rfl)⟩
  obtain ⟨count, after, delivery, settled, reached⟩ := delivered m.uncapped ready.uncapped seen
  have here : m.uncapped.entry? fd = some file := by
    rw [← entry, ← seen]
    rfl
  have written : m.uncapped.write fd data = .ok (count, after) := by
    rw [write_eq here output, ready.uncapped.runs, if_neg Bool.false_ne_true, capped_of_free rfl,
      delivery]
  obtain ⟨events, more, ran⟩ := exists_run_writeAll ready.runs ready.flows offered written
  exact ⟨.ok (), events, _, ran,
    ⟨settled.sound, settled.runs, ready.flows, settled.stdout, settled.stderr⟩, rfl, reached⟩

variable {v : View}

/-- The standard output is out of view. -/
theorem goes_writeAll_stdout (data : Bytes) :
    Goes (hosted.writeAll .stdout data) v fun result w => result = .ok () ∧ w = v := by
  intro m ready seen
  have entry : v.entries .stdout = some .stdout := seen ▸ ready.stdout
  refine goes_writeAll entry nofun ?_ (fun _ => rfl) m ready seen
  intro m ready seen
  exact ⟨_, _, rfl, ready.congr rfl rfl rfl, seen⟩

/-- All that is written to stderr is appended there. -/
theorem goes_writeAll_stderr (data : Bytes) :
    Goes (hosted.writeAll .stderr data) v fun result w =>
      result = .ok () ∧ w = { v with stderr := v.stderr ++ data } := by
  intro m ready seen
  have entry : v.entries .stderr = some .stderr := seen ▸ ready.stderr
  refine goes_writeAll entry nofun ?_ (fun none => by rw [none, List.append_nil]) m ready seen
  intro m ready seen
  refine ⟨_, _, rfl, ready.congr rfl rfl rfl, ?_⟩
  subst seen
  show (⟨m.tree, m.cwd, m.entry?, m.files.next, m.stdinPosition,
    (m.stderr.append data).bytes⟩ : View) = _
  rw [Contents.bytes_append]
  rfl

/-- Pieces of text are written one after the other, each as all bytes are. -/
theorem goes_writeInOrder {fd : Fd} {grown : View → Bytes → View}
    (each : ∀ v data, Goes (hosted.writeAll fd data) v fun result u =>
      result = .ok () ∧ u = grown v data) (pieces : List String) (v : View) :
    Goes (hosted.writeInOrder fd (pieces.map Utf8.encode)) v fun _ u =>
      u = pieces.foldl (fun v piece => grown v (Utf8.encode piece)) v := by
  induction pieces generalizing v with
  | nil => exact .pure rfl
  | cons piece pieces ih =>
    refine (each v (Utf8.encode piece)).bind ?_
    rintro _ u ⟨rfl, rfl⟩
    exact ih _

/-- Printing pieces grows the view piece by piece. -/
theorem goes_print {fd : Fd} {grown : View → Bytes → View}
    (each : ∀ v data, Goes (hosted.writeAll fd data) v fun result u =>
      result = .ok () ∧ u = grown v data) (pieces : List String) :
    Goes (hosted.print fd ⟨pieces, false⟩) v fun _ u =>
      u = pieces.foldl (fun v piece => grown v (Utf8.encode piece)) v := by
  have formatted : Goes (hosted.writeFormatted fd ⟨pieces, false⟩) v fun _ u =>
      u = pieces.foldl (fun v piece => grown v (Utf8.encode piece)) v :=
    Facade.writeFormatted_eq hosted fd ⟨pieces, false⟩ ▸ goes_writeInOrder each pieces v
  refine formatted.bind ?_
  rintro _ u rfl
  exact .pure rfl

/-! ## Operations -/

theorem respond_getcwd (ready : m.Ready) (buffer : Bytes) :
    ∃ reply after, m.respond (.getcwd buffer) = (reply, after) ∧ after.Ready ∧
      after.view = m.view := by
  rcases answer : m.respond (.getcwd buffer) with ⟨reply, after⟩
  refine ⟨reply, after, rfl, ?_⟩
  have come := m.respond_cases (.getcwd buffer)
  rw [answer] at come
  dsimp only at come
  rcases come with ⟨-, -, e, rfl⟩ | succeeded
  · exact ⟨ready.congr rfl rfl rfl, rfl⟩
  · cases succeeded with
    | getcwd room => exact ⟨ready, rfl⟩

/-- Asking for the directory changes nothing in view. -/
theorem goes_currentDir : Goes hosted.currentDir v fun _ w => w = v := by
  refine goes_perform .currentDir rfl fun m ready seen => ?_
  obtain ⟨reply, after, answer, settled, same⟩ :=
    respond_getcwd ready (List.replicate Facade.scratchLength 0)
  have reached := same.trans seen
  exact ⟨reply, after, answer, settled, fun _ => reached, fun _ => reached⟩

/-- A number is described by what the table of the machine has for it, and no more is done. -/
theorem run_describe (ready : m.Ready) (code : Int) :
    ∃ events n, (hosted.describe (.host ⟨code⟩)).run host m =
        ⟨events, .returned (if (Errno.mk code).isNone then Error.noErrorText
          else match SysError.ofCode? code with
            | some e => Utf8.decode (Bytes.beforeNul (Utf8.encode e.text))
            | none => Error.unknownText), n⟩ ∧
      n.Ready ∧ n.view = m.view := by
  show ∃ events n, (Errno.mk code).describe.run host m = _ ∧ _
  rw [Errno.describe]
  split
  · exact ⟨[], m, rfl, ready, rfl⟩
  · have answer : host.answer (.strerror code) m =
        ((SysError.ofCode? code).map fun e => Utf8.encode e.text,
          m.counted (.strerror code)) := rfl
    rw [Program.run_call_bind, answer]
    cases SysError.ofCode? code with
    | none => exact ⟨_, _, rfl, ready.congr rfl rfl rfl, rfl⟩
    | some e => exact ⟨_, _, rfl, ready.congr rfl rfl rfl, rfl⟩

/-- Nor does describing an error. -/
theorem goes_describe_host (code : Int) :
    Goes (hosted.describe (.host ⟨code⟩)) v fun _ w => w = v := by
  intro m ready seen
  obtain ⟨events, n, ran, settled, same⟩ := run_describe ready code
  exact ⟨_, events, n, ran, settled, same.trans seen⟩

/-- A reason is described by its text in the table of the machine. -/
theorem goes_describe (e : SysError) :
    Goes (hosted.describe (.host ⟨e.code⟩)) v fun text w => text = e.text ∧ w = v := by
  intro m ready seen
  obtain ⟨events, n, ran, settled, same⟩ := run_describe ready e.code
  refine ⟨_, events, n, ran, settled, ?_, same.trans seen⟩
  have known : (Errno.mk e.code).isNone = false := by cases e <;> rfl
  rw [known, if_neg Bool.false_ne_true, SysError.ofCode?_code]
  exact (congrArg Utf8.decode (Utf8.beforeNul_encode_of_notMem e.text_plain.1)).trans
    (Utf8.decode_encode e.text)

variable {text : String}

theorem respond_unlink {name : CString} {removal : Except SysError (Nat × Machine)}
    (removed : m.unlink name = removal) : m.respond (.unlink name) = m.settle removal :=
  removed ▸ rfl

/-- After an unlink there is nothing at a place without a directory, whether there was a file or
not. -/
theorem goes_unlink {place : String} (noNul : '\x00' ∉ text.toList)
    (resolved : Path.resolve v.cwd text = some place)
    (free : v.tree.isDirectory place = false) :
    Goes (hosted.unlink text) v fun _ w => w = { v with tree := v.tree.drop place } := by
  refine goes_perform (.unlink text) rfl fun m ready seen => ?_
  subst seen
  have named : m.place (Facade.hostPath text) = .ok place :=
    (place_hostPath_eq_ok_iff noNul).2 resolved
  have unlinked : m.unlink (Facade.hostPath text) =
      (m.tree.remove place).map fun tree => (0, { m with tree }) := by
    rw [unlink, named]
    rfl
  rcases m.tree.remove_cases free with ⟨same, missing⟩ | removed
  · rw [missing] at unlinked
    refine ⟨(-1 : Int), m.failed .notFound, respond_unlink unlinked, ready.congr rfl rfl rfl, ?_⟩
    rw [show m.view.tree.drop place = m.tree from same]
    exact ⟨fun _ => rfl, fun _ => rfl⟩
  · rw [removed] at unlinked
    exact ⟨(0 : Int), { m with tree := m.tree.drop place }, respond_unlink unlinked,
      ready.congr rfl rfl rfl, fun _ => rfl, fun _ => rfl⟩

/-- Nor does a removal that fails. -/
theorem goes_unlink_error
    (fails : ∀ m : Machine, m.view = v → ∀ answer, m.unlink (Facade.hostPath text) ≠ .ok answer) :
    Goes (hosted.unlink text) v fun _ w => w = v := by
  refine goes_perform (.unlink text) rfl fun m ready seen => ?_
  cases failed : m.unlink (Facade.hostPath text) with
  | ok answer => exact absurd failed (fails m seen answer)
  | error e =>
    exact ⟨(-1 : Int), m.failed e, respond_unlink failed, ready.congr rfl rfl rfl,
      fun _ => seen, fun _ => seen⟩

/-- The number that the next descriptor gets is not open. -/
theorem entry?_next (sound : m.files.Sound) (file : OpenFile) : m.entry? ⟨m.files.next⟩ = none := by
  unfold entry?
  rw [if_neg (Int.not_lt.2 (Int.natCast_nonneg _)), Int.toNat_natCast,
    ← SlotTable.insert_fst m.files file, sound.get?_key]

/-- A machine stays ready as long as the entry that changes is none of the outputs. -/
theorem Ready.with_entry (ready : m.Ready) (sound : after.files.Sound)
    (stalled : after.stalled = m.stalled) (writeCap : after.writeCap = m.writeCap)
    {old new : Option OpenFile} (was : m.entry? fd = old) (output : old ≠ some .stdout)
    (error : old ≠ some .stderr) (entries : after.entry? = Function.update m.entry? fd new) :
    after.Ready := by
  refine ⟨sound, stalled ▸ ready.runs, writeCap ▸ ready.flows, ?_, ?_⟩
  · rw [entries, Function.update_of_ne, ready.stdout]
    rintro rfl
    exact output (was.symm.trans ready.stdout)
  · rw [entries, Function.update_of_ne, ready.stderr]
    rintro rfl
    exact error (was.symm.trans ready.stderr)

/-- An open that the tree allows adds an entry under the next number, which is cast for the
answer. -/
theorem respond_openFile {flags : OpenFlags} {mode : Mode} {place : String} {tree : Tree}
    (ready : m.Ready) (noNul : '\x00' ∉ text.toList)
    (resolved : Path.resolve m.cwd text = some place)
    (access : flags.access ≠ ⟨OpenFlags.accessMask⟩)
    (opened : m.openTree place flags mode = .ok tree) :
    m.entry? ⟨m.files.next⟩ = none ∧ ∃ after next,
      m.respond (.openFile (Facade.hostPath text) flags mode) =
        (CInt.ofNat m.files.next, after) ∧ after.Ready ∧
      after.view = { m.view with
        tree, next
        entries := Function.update m.entry? ⟨m.files.next⟩ (some (.file place 0 flags)) } := by
  let file : OpenFile := .file place 0 flags
  let after := { m with tree, files := (m.files.insert file).2 }
  have vacant : m.entry? ⟨m.files.next⟩ = none := entry?_next ready.sound file
  have added := openFile_of_openTree (m := m) access
    ((place_hostPath_eq_ok_iff noNul).2 resolved) opened
  have answer : m.respond (.openFile (Facade.hostPath text) flags mode) =
      (CInt.ofNat m.files.next, after) := by
    rw [respond, added]
  have entries : after.entry? = Function.update m.entry? ⟨m.files.next⟩ (some file) := by
    funext fd
    rw [Function.update_apply, ← SlotTable.insert_fst m.files file]
    exact entry?_insert ready.sound tree file fd
  refine ⟨vacant, after, after.files.next, answer, ?_, view_eq entries rfl⟩
  exact ready.with_entry (ready.sound.insert file) rfl rfl vacant (by simp) (by simp) entries

/-- An open that succeeds adds an entry under the next number, as long as the number fits. -/
theorem goes_openFile {flags : OpenFlags} {mode : Mode} {place : String} {tree : Tree}
    (noNul : '\x00' ∉ text.toList) (resolved : Path.resolve v.cwd text = some place)
    (access : flags.access ≠ ⟨OpenFlags.accessMask⟩)
    (opened : ∀ m : Machine, m.tree = v.tree → m.openTree place flags mode = .ok tree)
    (fits : v.next < CInt.bound) :
    Goes (hosted.openFile text flags mode) v fun result w =>
      result = .ok ⟨v.next⟩ ∧ v.entries ⟨v.next⟩ = none ∧ ∃ next, w = { v with
        tree, next
        entries := Function.update v.entries ⟨v.next⟩ (some (.file place 0 flags)) } := by
  refine goes_perform (.openFile text flags mode) rfl fun m ready seen => ?_
  subst seen
  obtain ⟨vacant, after, next, answer, settled, reached⟩ :=
    respond_openFile ready noNul resolved access (opened m rfl)
  rw [CInt.ofNat_eq (show m.files.next < CInt.bound from fits)] at answer
  refine ⟨_, after, answer, settled, fun _ => ⟨rfl, vacant, next, reached⟩, fun fails => ?_⟩
  exact absurd fails (Int.not_lt.2 (Int.natCast_nonneg _))

/-- Where the number is cast to a negative one, the open is taken for a failure. -/
theorem goes_openFile_wraps {flags : OpenFlags} {mode : Mode} {place : String} {tree : Tree}
    (noNul : '\x00' ∉ text.toList) (resolved : Path.resolve v.cwd text = some place)
    (access : flags.access ≠ ⟨OpenFlags.accessMask⟩)
    (opened : ∀ m : Machine, m.tree = v.tree → m.openTree place flags mode = .ok tree)
    (wraps : CInt.ofNat v.next < 0) :
    Goes (hosted.openFile text flags mode) v fun result w =>
      (∃ code, result = .error (.host ⟨code⟩)) ∧ w.tree = tree := by
  refine goes_perform (.openFile text flags mode) rfl fun m ready seen => ?_
  subst seen
  obtain ⟨-, after, next, answer, settled, reached⟩ :=
    respond_openFile ready noNul resolved access (opened m rfl)
  refine ⟨_, after, answer, settled, fun fine => absurd wraps fine, fun _ => ⟨⟨_, rfl⟩, ?_⟩⟩
  rw [reached]

/-- Nor does an open that fails, which is told as an error. -/
theorem goes_openFile_error {flags : OpenFlags} {mode : Mode}
    (fails : ∀ m : Machine, m.view = v →
      ∀ answer, m.openFile (Facade.hostPath text) flags mode ≠ .ok answer) :
    Goes (hosted.openFile text flags mode) v fun result w =>
      (∃ e : SysError, result = .error (.host ⟨e.code⟩)) ∧ w = v := by
  refine goes_perform (.openFile text flags mode) rfl fun m ready seen => ?_
  cases failed : m.openFile (Facade.hostPath text) flags mode with
  | ok answer => exact absurd failed (fails m seen answer)
  | error e =>
    have answer : m.respond (.openFile (Facade.hostPath text) flags mode) =
        ((-1 : Int), m.failed e) := by
      rw [respond, failed]
    refine ⟨(-1 : Int), m.failed e, answer, ready.congr rfl rfl rfl,
      fun fine => ?_, fun _ => ⟨⟨e, rfl⟩, seen⟩⟩
    exact absurd (show (-1 : Int) < 0 by decide) fine

/-- A close of a file takes its entry away, and its number is the next one. -/
theorem goes_close {path : String} {position : Nat} {flags : OpenFlags}
    (entry : v.entries fd = some (.file path position flags)) :
    Goes (hosted.close fd) v fun result w => result = .ok () ∧
      w = { v with entries := Function.update v.entries fd none, next := fd.number.toNat } := by
  refine goes_perform (.close fd) rfl fun m ready seen => ?_
  subst seen
  have entry : m.entry? fd = some (.file path position flags) := entry
  let after := { m with files := m.files.erase fd.number.toNat }
  have closed : m.close fd = .ok (0, after) := by rw [close, entry]
  have entries : after.entry? = Function.update m.entry? fd none := by
    funext other
    rw [Function.update_apply]
    exact entry?_erase entry other
  have next : after.files.next = fd.number.toNat :=
    m.files.next_erase (Option.isSome_iff_exists.2 ⟨_, (entry?_eq_some.1 entry).2⟩)
  refine ⟨(0 : Int), after, congrArg m.settle closed,
    ready.with_entry (ready.sound.erase _) rfl rfl entry (by simp) (by simp) entries,
    fun _ => ⟨rfl, view_eq entries next⟩, fun fails => ?_⟩
  exact absurd fails (Int.lt_irrefl 0)

/-- Moving a descriptor updates the table at its number. -/
theorem entry?_movedTo_eq_update {file : OpenFile} (entry : m.entry? fd = some file) (path : String)
    (position : Nat) (flags : OpenFlags) :
    entry? (m.movedTo fd path position flags) =
      Function.update m.entry? fd (some (.file path position flags)) := by
  funext other
  by_cases same : other = fd
  · rw [same, Function.update_self, entry?_movedTo entry]
  · rw [Function.update_of_ne same, entry?_movedTo_of_ne entry same]

/-- A read of a file fills the buffer from its front and moves the position. -/
theorem goes_read {path : String} {position : Nat} {flags : OpenFlags} {buffer : Bytes}
    (entry : v.entries fd = some (.file path position flags)) (reads : flags.reads = true)
    (room : buffer ≠ []) :
    let data := v.tree.readAt path position buffer.length
    Goes (hosted.read fd buffer) v fun result w =>
      result = (.ok data.length, Bytes.overlay buffer data) ∧
        w = { v with entries :=
          Function.update v.entries fd (some (.file path (position + data.length) flags)) } := by
  intro data
  refine goes_perform (.read fd buffer) (Operation.unlessEmpty_eq_some.2 ⟨room, rfl⟩)
    fun m ready seen => ?_
  subst seen
  have entry : m.entry? fd = some (.file path position flags) := entry
  let next := m.movedTo fd path (position + data.length) flags
  have read : m.read fd buffer.length = .ok (data, next) := by
    rw [read, entry]
    exact if_pos reads
  have answer : m.respond (.read fd buffer) =
      (((data.length : Int), Bytes.overlay buffer data), next) := by
    rw [respond, read]
  have entries : next.entry? = _ := entry?_movedTo_eq_update entry _ _ _
  refine ⟨_, next, answer,
    ready.with_entry (ready.sound.update _ _) rfl rfl entry (by simp) (by simp) entries,
    fun _ => ⟨?_, view_eq entries (m.files.next_update _ _)⟩, fun fails => ?_⟩
  · show (_, Bytes.overlay buffer (Bytes.overlay buffer data)) = _
    rw [Bytes.overlay_of_length_eq (Bytes.length_overlay _ _)]
    rfl
  · exact absurd fails (Int.not_lt.2 (Int.natCast_nonneg _))

/-- Writing all bytes to a file that is not appended to lays them over it at the position. -/
theorem goes_writeAll_file {path : String} {position : Nat} {flags : OpenFlags} {tree : Tree}
    (entry : v.entries fd = some (.file path position flags)) (writes : flags.writes = true)
    (appends : flags.appends = false) (offered : data ≠ [])
    (written : v.tree.writeAt path position data = .ok tree) :
    let moved : OpenFile := .file path (position + data.length) flags
    Goes (hosted.writeAll fd data) v fun result w => result = .ok () ∧
      w = { v with tree, entries := Function.update v.entries fd (some moved) } := by
  intro moved
  refine goes_writeAll entry (by simp) (fun m ready seen => ?_) fun none => absurd none offered
  subst seen
  have entry : m.entry? fd = some (.file path position flags) := entry
  have start : m.writeStart path position flags = position := by
    rw [writeStart, appends, if_neg Bool.false_ne_true]
  have written : m.tree.writeAt path position data = .ok tree := written
  let next := { m with tree }.movedTo fd path (position + data.length) flags
  have entries : next.entry? = Function.update m.entry? fd
      (some (.file path (position + data.length) flags)) :=
    entry?_movedTo_eq_update (m := { m with tree }) entry _ _ _
  refine ⟨data.length, next, ?_, ?_, view_eq entries (m.files.next_update _ _)⟩
  · rw [deliver_file, if_pos writes, start, written]
    rfl
  · exact ready.with_entry (ready.sound.update _ _) rfl rfl entry (by simp) (by simp) entries

end Machine

end Hostcall
