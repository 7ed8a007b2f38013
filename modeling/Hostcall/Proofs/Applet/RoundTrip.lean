import Hostcall.Proofs.Applet.Awake
import Hostcall.Proofs.Machine.View

/-!
# Writing a file and reading it back on a machine

On a machine with its standard streams in place, writes that take something and a number left for
one more descriptor, the applet that writes a file and reads it back comes out in one of two ways,
and the path decides which. Where a file can be, the file comes back and nothing else has changed
(`goes_exercise`); where none can be, the removal and the first open fail, the machine is as it was,
and one line is on the standard error (`goes_exercise_error`). The headline says so of every machine
from a setup without snapshots, after any turns (`roundTrip_is_exact`).
-/

namespace Hostcall.Applet.RoundTrip

open Facade (hosted)
open Machine

/-- The path that is written to: what the host sees of the argument after the name. -/
def target (argv : List String) : String := (argv[1]?.map Utf8.beforeNul).getD defaultPath

/-- The file that is there in the end. -/
def written : Node := .file (.ofBytes payload) 0o644

/-- The file came back: it holds the payload, and nothing else has changed. -/
structure CameBack (s : Machine) (place : String) (after : Machine) (stderr : Bytes) : Prop where
  file : after.tree.get? place = some (.file (.ofBytes payload) 0o644)
  others : ∀ q, q ≠ place → after.tree.get? q = s.tree.get? q
  cwd : after.cwd = s.cwd
  entries : after.entry? = s.entry?
  stdinPosition : after.stdinPosition = s.stdinPosition
  stderr : stderr = s.stderr.bytes

/-- Nothing has changed but that one line is on the standard error. -/
structure Refused (s after : Machine) (stderr : Bytes) : Prop where
  tree : after.tree = s.tree
  cwd : after.cwd = s.cwd
  entries : after.entry? = s.entry?
  stdinPosition : after.stdinPosition = s.stdinPosition
  report : ∃ message, '\n' ∉ message.toList ∧
    stderr = s.stderr.bytes ++ Utf8.encode ("roundtrip: " ++ message ++ "\n")

variable {v : View} {fd : Fd} {place text : String} {flags : OpenFlags} {argv : List String}

/-- As many arguments as an `int` can count are passed on, each up to its first NUL. -/
theorem argsOf_eq (few : argv.length < CInt.bound) :
    argsOf argv = ⟨argv.map fun text => Utf8.encode (Utf8.beforeNul text)⟩ := by
  rw [argsOf, ArgBlock.ofItems, ArgBlock.args_ofSlots (by simpa using few), List.map_map,
    List.map_map]
  exact congrArg Args.mk (List.map_congr_left fun text _ => Utf8.beforeNul_encode text)

theorem text?_argsOf (few : argv.length < CInt.bound) (i : Nat) :
    (argsOf argv).text? i = argv[i]?.map Utf8.beforeNul := by
  rw [argsOf_eq few, Args.text?, Args.get?, List.getElem?_map, Option.map_map]
  exact congrArg (Option.map · argv[i]?) (funext fun text => Utf8.decode_encode _)

/-- The path holds no NUL, so the host sees all of it. -/
theorem nul_notMem_target (argv : List String) : '\x00' ∉ (target argv).toList := by
  unfold target
  cases argv[1]? with
  | none => decide
  | some text => exact Utf8.nul_notMem_beforeNul text

theorem splice_empty (data : Bytes) : Contents.empty.splice 0 data = .ofBytes data := by
  apply Contents.ext_bytes
  simp [Contents.bytes_splice]

/-- Showing the current directory changes nothing in view, even where it cannot be told. -/
theorem goes_showDir : Goes (showDir hosted) v fun _ w => w = v := by
  refine goes_currentDir.bind ?_
  rintro (e | path) _ rfl
  · exact .pure rfl
  · refine (goes_print (fun _ => goes_writeAll_stdout) _).mono ?_
    rintro - _ rfl
    rfl

/-- The payload is written to a new file and the descriptor is closed, so that its number is the
next one. -/
theorem goes_writeOut {mode : Mode} (entry : v.entries fd = some (.file place 0 flags))
    (writes : flags.writes = true) (appends : flags.appends = false)
    (file : v.tree.get? place = some (.file .empty mode)) :
    Goes (writeOut hosted fd) v fun result w => result = .ok () ∧ w = { v with
      tree := v.tree.put place (.file (.ofBytes payload) mode)
      entries := Function.update v.entries fd none
      next := fd.number.toNat } := by
  have fits : v.tree.writeAt place 0 payload =
      .ok (v.tree.put place (.file (.ofBytes payload) mode)) := by
    rw [Tree.writeAt, file]
    dsimp only
    rw [if_pos (by decide), splice_empty]
  refine (goes_writeAll_file entry writes appends (by decide) fits).bind ?_
  rintro _ _ ⟨rfl, rfl⟩
  refine (goes_close (Function.update_self _ _ _)).bind ?_
  rintro _ _ ⟨rfl, rfl⟩
  refine .pure ⟨rfl, ?_⟩
  dsimp only
  rw [Function.update_idem]

/-- The payload is read back whole, and the descriptor is closed. -/
theorem goes_readBack {mode : Mode} (entry : v.entries fd = some (.file place 0 flags))
    (reads : flags.reads = true)
    (file : v.tree.get? place = some (.file (.ofBytes payload) mode)) :
    Goes (readBack hosted fd) v fun result w => result = .ok () ∧
      w = { v with entries := Function.update v.entries fd none, next := fd.number.toNat } := by
  have data : v.tree.readAt place 0 bufferLength = payload := by
    rw [Tree.readAt, Tree.contents?, file]
    rfl
  refine (goes_read entry reads (by decide)).bind ?_
  rw [List.length_replicate, data]
  rintro _ _ ⟨rfl, rfl⟩
  refine (goes_close (Function.update_self _ _ _)).bind ?_
  rintro _ _ ⟨rfl, rfl⟩
  refine .pure ⟨rfl, ?_⟩
  dsimp only
  rw [Function.update_idem]

/-- A number that was not open is as before once it is opened and closed. -/
theorem update_closed {entries : Fd → Option OpenFile} (vacant : entries fd = none)
    (file : OpenFile) :
    Function.update (Function.update entries fd (some file)) fd none = entries := by
  rw [Function.update_idem, ← vacant, Function.update_eq_self]

/-- A file that can be there is written and read back, and all descriptors are closed again. -/
theorem goes_exercise (fits : v.next < CInt.bound) (noNul : '\x00' ∉ text.toList)
    (resolved : Path.resolve v.cwd text = some place) (admits : v.tree.Admits place) :
    Goes (exercise hosted text) v fun result w =>
      result = .ok () ∧ w = { v with tree := v.tree.put place written } := by
  refine (goes_unlink noNul resolved admits.free).bind ?_
  rintro - _ rfl
  refine (goes_openFile (v := { v with tree := v.tree.drop place }) noNul resolved (by decide)
    (fun m removed => openTree_of_drop admits (by decide) removed) fits).bind ?_
  rintro _ _ ⟨rfl, vacant, next, rfl⟩
  refine (goes_writeOut (Function.update_self _ _ _) (by decide) (by decide)
    (by rw [Tree.get?_put, if_pos rfl])).bind ?_
  rintro _ _ ⟨rfl, rfl⟩
  dsimp only
  -- What was opened under the next number is closed again, so the same number comes next.
  rw [Tree.put_put, update_closed vacant, Int.toNat_natCast]
  have there : (v.tree.put place written).get? place = some written := by
    rw [Tree.get?_put, if_pos rfl]
  have found : ∀ m : Machine, m.tree = v.tree.put place written →
      m.openTree place .readOnly 0 = .ok (v.tree.put place written) := by
    intro m same
    rw [← same] at there ⊢
    rw [openTree, there]
    rfl
  refine (goes_openFile (v := { v with tree := v.tree.put place written }) noNul resolved
    (by decide) found fits).bind ?_
  rintro _ _ ⟨rfl, vacant, next, rfl⟩
  refine (goes_readBack (Function.update_self _ _ _) (by decide) there).mono ?_
  rintro _ _ ⟨rfl, rfl⟩
  dsimp only
  rw [update_closed vacant, Int.toNat_natCast]
  exact ⟨rfl, rfl⟩

/-- Where the number of the descriptor is cast to a negative one, the file is there and empty, and
the first open has failed. -/
theorem goes_exercise_wraps (wraps : CInt.ofNat v.next < 0) (noNul : '\x00' ∉ text.toList)
    (resolved : Path.resolve v.cwd text = some place) (admits : v.tree.Admits place) :
    Goes (exercise hosted text) v fun result w =>
      (∃ code, result = .error (.step "open(O_WRONLY|O_CREAT|O_TRUNC)" (.host ⟨code⟩))) ∧
        w.tree = v.tree.put place (.file .empty 0o644) := by
  refine (goes_unlink noNul resolved admits.free).bind ?_
  rintro - _ rfl
  refine (goes_openFile_wraps (v := { v with tree := v.tree.drop place }) noNul resolved
    (by decide) (fun m removed => openTree_of_drop admits (by decide) removed) wraps).bind ?_
  rintro _ w ⟨⟨code, rfl⟩, tree⟩
  exact .pure ⟨⟨code, rfl⟩, tree⟩

/-- Where no file can be, neither the removal nor the first open does anything. -/
theorem goes_exercise_error (proper : v.tree.Proper) (noNul : '\x00' ∉ text.toList)
    (refused : ∀ place, Path.resolve v.cwd text = some place → ¬ v.tree.Admits place) :
    Goes (exercise hosted text) v fun result w =>
      (∃ e : SysError, result =
        .error (.step "open(O_WRONLY|O_CREAT|O_TRUNC)" (.host ⟨e.code⟩))) ∧ w = v := by
  have nowhere (m : Machine) (seen : m.view = v) :
      ¬ ∃ place, m.place (Facade.hostPath text) = .ok place ∧ m.tree.Admits place := by
    subst seen
    rintro ⟨place, named, admits⟩
    exact refused place ((place_hostPath_eq_ok_iff noNul).1 named) admits
  refine (goes_unlink_error fun m seen answer unlinked => ?_).bind ?_
  · subst seen
    exact nowhere m rfl (admits_of_unlink proper unlinked)
  rintro - _ rfl
  refine (goes_openFile_error fun m seen answer opened => ?_).bind ?_
  · subst seen
    exact nowhere m rfl (admits_of_openFile proper opened)
  rintro _ _ ⟨⟨e, rfl⟩, rfl⟩
  exact .pure ⟨⟨e, rfl⟩, rfl⟩

/-- With arguments there is an attempt, at the path that they name. -/
theorem goes_attempt (few : argv.length < CInt.bound) (given : argv ≠ []) {post : Except Trouble Unit → View → Prop}
    (exercised : Goes (exercise hosted (target argv)) v post) :
    Goes (attempt hosted (argsOf argv)) v post := by
  have some : (argsOf argv).isEmpty = false := by
    rw [argsOf_eq few, Args.isEmpty, List.isEmpty_map, List.isEmpty_eq_false_iff]
    exact given
  rw [attempt, if_neg (some ▸ Bool.false_ne_true), text?_argsOf few]
  refine goes_showDir.bind ?_
  rintro - _ rfl
  exact exercised

/-- Where a file can be, the verdict is that it came back. -/
theorem goes_roundTrip (few : argv.length < CInt.bound) (fits : v.next < CInt.bound)
    (given : argv ≠ [])
    (resolved : Path.resolve v.cwd (target argv) = some place) (admits : v.tree.Admits place) :
    Goes (roundTrip hosted (argsOf argv)) v fun code w =>
      code = 0 ∧ w = { v with tree := v.tree.put place written } := by
  refine (goes_writeAll_stdout _).bind ?_
  rintro - _ ⟨-, rfl⟩
  refine (goes_attempt few given
    (goes_exercise fits (nul_notMem_target argv) resolved admits)).bind ?_
  rintro _ _ ⟨rfl, rfl⟩
  refine (goes_writeAll_stdout _).bind ?_
  rintro - _ ⟨-, rfl⟩
  exact .pure ⟨rfl, rfl⟩

/-- A failure is described by its step and the text of its reason. -/
theorem goes_describe_step (name : String) (e : SysError) :
    Goes (describe hosted (.step name (.host ⟨e.code⟩))) v fun text w =>
      text = name ++ ": " ++ e.text ∧ w = v := by
  refine (goes_describe e).bind ?_
  rintro _ _ ⟨rfl, rfl⟩
  exact .pure ⟨rfl, rfl⟩

/-- A report is one line. -/
theorem newline_notMem_report (e : SysError) :
    '\n' ∉ ("open(O_WRONLY|O_CREAT|O_TRUNC)" ++ ": " ++ e.text).toList := by
  rw [String.toList_append, List.mem_append]
  rintro (name | text)
  · exact absurd name (by decide)
  · exact e.text_plain.2 text

/-- Where no file can be, the verdict is 1 and one line is all that is left. -/
theorem goes_roundTrip_error (proper : v.tree.Proper) (few : argv.length < CInt.bound)
    (given : argv ≠ [])
    (refused : ∀ place, Path.resolve v.cwd (target argv) = some place → ¬ v.tree.Admits place) :
    Goes (roundTrip hosted (argsOf argv)) v fun code w => code = 1 ∧
      ∃ message, '\n' ∉ message.toList ∧
        w = { v with
          stderr := v.stderr ++ Utf8.encode ("roundtrip: " ++ message ++ "\n") } := by
  refine (goes_writeAll_stdout _).bind ?_
  rintro - _ ⟨-, rfl⟩
  refine (goes_attempt few given
    (goes_exercise_error proper (nul_notMem_target argv) refused)).bind ?_
  rintro _ _ ⟨⟨e, rfl⟩, rfl⟩
  refine (goes_describe_step _ e).bind ?_
  rintro _ _ ⟨rfl, rfl⟩
  refine (goes_print (fun _ => goes_writeAll_stderr) _).bind ?_
  rintro - _ rfl
  refine .pure ⟨rfl, _, newline_notMem_report e, ?_⟩
  simp only [List.foldl_cons, List.foldl_nil, Utf8.encode_append, List.append_assoc]

/-- Where the number of the descriptor wraps, the verdict is 1 and an empty file is left. -/
theorem goes_roundTrip_wraps (few : argv.length < CInt.bound) (wraps : CInt.ofNat v.next < 0)
    (given : argv ≠ []) (resolved : Path.resolve v.cwd (target argv) = some place)
    (admits : v.tree.Admits place) :
    Goes (roundTrip hosted (argsOf argv)) v fun code w =>
      code = 1 ∧ w.tree = v.tree.put place (.file .empty 0o644) := by
  refine (goes_writeAll_stdout _).bind ?_
  rintro - _ ⟨-, rfl⟩
  refine (goes_attempt few given
    (goes_exercise_wraps wraps (nul_notMem_target argv) resolved admits)).bind ?_
  rintro _ w ⟨⟨code, rfl⟩, tree⟩
  have described : Goes (describe hosted (.step "open(O_WRONLY|O_CREAT|O_TRUNC)" (.host ⟨code⟩))) w
      fun _ u => u = w := by
    refine (goes_describe_host code).bind ?_
    rintro text _ rfl
    exact .pure rfl
  refine described.bind ?_
  rintro message _ rfl
  refine (goes_print (fun _ => goes_writeAll_stderr) _).bind ?_
  rintro - _ rfl
  exact .pure ⟨rfl, tree⟩

/-- The applet does not sleep, so no call of a run breaks off. -/
theorem play_roundTrip (s : Machine) (argv : List String) :
    s.play argv roundTrip = (roundTrip hosted (argsOf argv)).run host s :=
  runUpTo_known (a := ⟨"roundtrip", roundTrip⟩) (by simp [Applet.all]) (argsOf argv) s

/-- A program that returns finishes the run, and its output is taken. -/
theorem run_of_returned {s n : Machine} {body : Applet.Body} {events : List Event} {code : Int}
    (played : s.play argv body = ⟨events, .returned code, n⟩) :
    (s.run argv body).verdict = .finished ⟨code, n.stdout.bytes, n.stderr.bytes⟩ ∧
      (s.run argv body).machine = n.emptied := by
  have ended : (s.play argv body).outcome.status? = some code := by
    rw [played]
    rfl
  obtain ⟨verdict, machine⟩ := run_of_status ended
  rw [played] at verdict machine
  exact ⟨verdict, machine⟩

theorem CameBack.of_view {s n : Machine}
    (seen : n.view = { s.view with tree := s.tree.put place written }) :
    CameBack s place n.emptied n.stderr.bytes where
  file := by
    rw [show n.emptied.tree = _ from congrArg View.tree seen, Tree.get?_put, if_pos rfl]
    rfl
  others q different := by
    rw [show n.emptied.tree = _ from congrArg View.tree seen, Tree.get?_put,
      if_neg (Ne.symm different)]
  cwd := congrArg View.cwd seen
  entries := congrArg View.entries seen
  stdinPosition := congrArg View.stdinPosition seen
  stderr := congrArg View.stderr seen

theorem Refused.of_view {s n : Machine} {message : String} (oneLine : '\n' ∉ message.toList)
    (seen : n.view = { s.view with
      stderr := s.stderr.bytes ++ Utf8.encode ("roundtrip: " ++ message ++ "\n") }) :
    Refused s n.emptied n.stderr.bytes where
  tree := congrArg View.tree seen
  cwd := congrArg View.cwd seen
  entries := congrArg View.entries seen
  stdinPosition := congrArg View.stdinPosition seen
  report := ⟨message, oneLine, congrArg View.stderr seen⟩

/-- **The verdict on a machine is exact.** On every machine from a setup without snapshots, after
any turns that leave the outputs open, the applet returns, and it returns 0 if and only if the path
is not empty and names a place that is no directory and has a directory above. Then the file is
there with the payload and nothing else has changed; otherwise it returns 1, nothing at all has
changed, and the standard error has one more line. So it is as long as an `int` can count the
arguments and number one more descriptor. -/
theorem roundTrip_is_exact {steps : List SetupStep} {m s : Machine} {warnings : List LogEntry}
    {turns : List Turn} (plain : ∀ step ∈ steps, step.isSnapshot = false)
    (built : build steps = .ok (m, warnings)) (reached : m.after turns = s)
    (stdout : s.entry? .stdout = some .stdout) (stderr : s.entry? .stderr = some .stderr)
    (runs : s.stalled = false) (flows : s.writeCap ≠ some 0) (given : argv ≠ [])
    (few : argv.length < CInt.bound) (fits : s.files.next < CInt.bound) :
    let r := s.run argv roundTrip
    ∃ result, r.verdict = .finished result ∧
      (s.play argv roundTrip).outcome = .returned result.exitCode ∧
      (result.exitCode = 0 ∨ result.exitCode = 1) ∧
      (result.exitCode = 0 ↔ target argv ≠ "" ∧
        ∃ place, s.resolve (target argv) = some place ∧ s.tree.Admits place) ∧
      (result.exitCode = 0 → ∃ place, s.resolve (target argv) = some place ∧
        CameBack s place r.machine result.stderr) ∧
      (result.exitCode = 1 → Refused s r.machine result.stderr) := by
  intro r
  have sound : m.files.Sound := files_of_build built ▸ SlotTable.sound_ofList _
  have ready : s.Ready := ⟨reached ▸ sound_after sound turns, runs, flows, stdout, stderr⟩
  have proper : s.tree.Proper :=
    reached ▸ (m.edits_after turns).proper (proper_of_build plain built)
  -- The verdict is known beforehand: it depends on the place of the target alone.
  by_cases admitted : ∃ place, s.resolve (target argv) = some place ∧ s.tree.Admits place
  · obtain ⟨place, resolved, admits⟩ := admitted
    obtain ⟨_, events, n, ran, -, rfl, seen⟩ :=
      goes_roundTrip (v := s.view) few fits given resolved admits s ready rfl
    have played : s.play argv roundTrip = ⟨events, .returned 0, n⟩ :=
      (play_roundTrip s argv).trans ran
    obtain ⟨verdict, machine⟩ := run_of_returned played
    have nonempty : target argv ≠ "" := by
      intro empty
      rw [empty] at resolved
      contradiction
    refine ⟨_, verdict, congrArg Run.outcome played, .inl rfl,
      iff_of_true rfl ⟨nonempty, place, resolved, admits⟩, fun _ => ⟨place, resolved, ?_⟩,
      fun one => absurd one (by decide : (0 : Int) ≠ 1)⟩
    rw [show r.machine = _ from machine]
    exact .of_view seen
  · have refused : ∀ place, s.resolve (target argv) = some place → ¬ s.tree.Admits place :=
      fun place resolved admits => admitted ⟨place, resolved, admits⟩
    obtain ⟨_, events, n, ran, -, rfl, message, oneLine, seen⟩ :=
      goes_roundTrip_error (v := s.view) proper few given refused s ready rfl
    have played : s.play argv roundTrip = ⟨events, .returned 1, n⟩ :=
      (play_roundTrip s argv).trans ran
    obtain ⟨verdict, machine⟩ := run_of_returned played
    have one : (1 : Int) ≠ 0 := by decide
    refine ⟨_, verdict, congrArg Run.outcome played, .inr rfl,
      iff_of_false one fun h => admitted h.2, fun zero => absurd zero one, fun _ => ?_⟩
    rw [show r.machine = _ from machine]
    exact .of_view oneLine seen

/-- A file with another mode, open under a number of its own, is in the place of the new one; the
argument goes on behind a NUL that the host does not see past. -/
theorem roundTrip_is_exact_over_leftover :
    let turns : List Turn := [.call (.mkdir ⟨Utf8.encode "d"⟩ 0o755),
      .call (.chdir ⟨Utf8.encode "d"⟩),
      .call (.openFile ⟨Utf8.encode "f"⟩ (.writeOnly ||| .create) 0o600)]
    let s := initial.after turns
    let r := s.run ["roundtrip", ".//f\x00.d"] roundTrip
    build [] = .ok (initial, []) ∧ s.entry? .stdout = some .stdout ∧
      s.entry? .stderr = some .stderr ∧ s.stalled = false ∧ s.writeCap ≠ some 0 ∧
      s.files.next < CInt.bound ∧ s.tree.get? "/d/f" = some (.file .empty 0o600) ∧
      ∃ result, r.verdict = .finished result ∧ result.exitCode = 0 ∧
        CameBack s "/d/f" r.machine result.stderr := by
  intro turns s r
  have given : ["roundtrip", ".//f\x00.d"] ≠ [] := by decide
  have stdout : s.entry? .stdout = some .stdout := by decide
  have stderr : s.entry? .stderr = some .stderr := by decide
  have few : ["roundtrip", ".//f\x00.d"].length < CInt.bound := by decide
  have fits : s.files.next < CInt.bound := by decide
  have named : s.resolve (target ["roundtrip", ".//f\x00.d"]) = some "/d/f" := by decide
  have admits : s.tree.Admits "/d/f" := ⟨by decide, "/d", by decide, by decide⟩
  obtain ⟨result, verdict, -, -, exact, good, -⟩ :=
    roundTrip_is_exact (by simp) build_nil (rfl : initial.after turns = s) stdout stderr rfl nofun
      given few fits
  have zero : result.exitCode = 0 := exact.2 ⟨by decide, "/d/f", named, admits⟩
  obtain ⟨place, resolved, back⟩ := good zero
  obtain rfl : "/d/f" = place := Option.some.inj (named.symm.trans resolved)
  exact ⟨build_nil, stdout, stderr, rfl, nofun, fits, by decide, result, verdict, zero, back⟩

/-- Where there are as many descriptors as can be numbered, a file could be written and read back,
and the verdict is that it could not. What was asked for is there and empty. -/
theorem play_of_crowd {s : Machine} (sound : s.files.Sound) (crowd : s.Crowd CInt.bound) :
    let argv := ["roundtrip", "/g"]
    s.resolve (target argv) = some "/g" ∧ s.tree.Admits "/g" ∧
      (s.play argv roundTrip).outcome = .returned 1 ∧
      (s.play argv roundTrip).state.tree = s.tree.put "/g" (.file .empty 0o644) := by
  intro argv
  have given : argv ≠ [] := by decide
  have few : argv.length < CInt.bound := by decide
  have ready : s.Ready :=
    ⟨sound, crowd.runs, crowd.flows ▸ nofun, crowd.stdout, crowd.stderr⟩
  have resolved : s.resolve (target argv) = some "/g" := by
    rw [resolve, crowd.cwd]
    decide
  have admits : s.tree.Admits "/g" := by
    rw [crowd.tree]
    exact ⟨by decide, "/", by decide, by decide⟩
  have wraps : CInt.ofNat s.files.next < 0 := by
    rw [crowd.next, CInt.ofNat_neg_iff]
    decide
  obtain ⟨_, events, n, ran, -, rfl, tree⟩ :=
    goes_roundTrip_wraps (v := s.view) few wraps given resolved admits s ready rfl
  have played : s.play argv roundTrip = ⟨events, .returned 1, n⟩ :=
    (play_roundTrip s argv).trans ran
  rw [played]
  exact ⟨resolved, admits, rfl, tree⟩

/-- A file could be there, the verdict is that it could not, and the tree has it. -/
theorem play_after_crowding :
    build [] = .ok (initial, []) ∧ (initial.after crowding).tree.Admits "/g" ∧
      ((initial.after crowding).play ["roundtrip", "/g"] roundTrip).outcome = .returned 1 ∧
      ((initial.after crowding).play ["roundtrip", "/g"] roundTrip).state.tree =
        (initial.after crowding).tree.put "/g" (.file .empty 0o644) := by
  have sound : initial.files.Sound := SlotTable.sound_ofList _
  obtain ⟨-, admits, outcome, tree⟩ := play_of_crowd (sound_after sound crowding) crowd_crowding
  exact ⟨build_nil, admits, outcome, tree⟩

end Hostcall.Applet.RoundTrip
