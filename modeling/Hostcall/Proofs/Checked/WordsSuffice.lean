import Hostcall.Proofs.Checked.Machine
import Hostcall.Proofs.Machine.DescriptorTable

/-!
# Words suffice

On every machine that turns lead to, each call computed in machine words gives what it gives without
them, and nothing goes wrong, but for one thing: the number of a new descriptor may not fit
(`words_suffice`). It rests on bounds that every turn keeps. A call has to be handed words; what else
has to fit is what grows with a run and is no offset and no size of a file: the number of calls and
of bytes of the current directory. Runs that are not longer than a word can count keep to the first
(`count_fits`).
-/

namespace Hostcall.Checked

variable {m : Machine}

/-- An answer in words is settled as one without them. -/
theorem settle_asInt (m : Machine) (x : Except SysError (Nat × Machine)) :
    settle m (-1) (permitted (asInt x)) = .ok (m.settle x) := by
  cases x <;> rfl

/-- What a call is handed is within the range of its type: data that a buffer can hold, and an
offset that is a signed word. So is the text of the current directory where the call depends on
it. -/
def InRange (m : Machine) : Request → Prop
  | .write _ data => data.length < signedCount
  | .getcwd _ => (Utf8.encode m.cwd).length < signedCount
  | .lseek _ offset _ => -signedCount ≤ offset ∧ offset < signedCount
  | _ => True

section

variable {path : CString} {flags : OpenFlags} {mode : Mode}

/-- An open that is refused casts no key. -/
theorem respond_openFile_of_error {e : SysError} (refused : m.openFile path flags mode = .error e) :
    respond m (.openFile path flags mode) = .ok (m.respond (.openFile path flags mode)) := by
  simp only [respond, Machine.respond, openFile_eq, refused]
  rfl

/-- The number of a new descriptor that fits is cast to itself. -/
theorem respond_openFile_of_fits (fits : m.files.next < CInt.bound) :
    respond m (.openFile path flags mode) = .ok (m.respond (.openFile path flags mode)) := by
  cases opened : m.openFile path flags mode with
  | error e => exact respond_openFile_of_error opened
  | ok answer =>
    obtain ⟨key, after⟩ := answer
    obtain ⟨-, place, tree, -, -, rfl, -⟩ := Machine.eq_of_openFile opened
    rw [SlotTable.insert_fst] at opened
    simp only [respond, Machine.respond, openFile_eq, opened, permitted, bind_ok,
      descriptor_eq fits, CInt.ofNat_eq fits]
    rfl

/-- The number of a new descriptor that does not fit is the one cast that wraps. -/
theorem respond_openFile_of_wraps {answer : Nat × Machine}
    (opened : m.openFile path flags mode = .ok answer) (wraps : ¬ m.files.next < CInt.bound) :
    respond m (.openFile path flags mode) = .error (.faulted .castWraps) := by
  obtain ⟨key, after⟩ := answer
  obtain ⟨-, place, tree, -, -, rfl, -⟩ := Machine.eq_of_openFile opened
  rw [SlotTable.insert_fst] at opened
  simp only [respond, openFile_eq, opened, permitted, bind_ok, descriptor_eq_error wraps]
  rfl

end

/-- Within the bounds of a machine, nothing goes wrong in a call whose new number fits. -/
theorem respond_eq {limit : Nat} (within : m.Within limit) (most : limit < signedCount)
    (input : m.stdin.length < signedCount) {request : Request} (fits : InRange m request)
    (numbered : m.Numbered request) : respond m request = .ok (m.respond request) := by
  have words : signedCount < wordCount := by decide
  have size (path : String) : m.tree.endOf path < wordCount :=
    Nat.lt_trans (endOf_lt within most path) words
  cases request with
  | write fd data =>
    rw [respond, write_eq fits size]
    exact settle_asInt m _
  | read fd buffer =>
    rw [respond, read_eq within most input]
    simp only [Machine.respond]
    cases m.read fd buffer.length <;> rfl
  | openFile path flags mode =>
    exact respond_openFile_of_fits numbered
  | close fd =>
    rw [respond, close_eq]
    exact settle_asInt m _
  | unlink path =>
    rw [respond, unlink_eq]
    exact settle_asInt m _
  | mkdir path mode =>
    rw [respond, mkdir_eq]
    exact settle_asInt m _
  | chdir path =>
    rw [respond, chdir_eq]
    exact settle_asInt m _
  | getcwd buffer =>
    rw [respond, getcwd_eq fits]
    simp only [Machine.respond]
    cases m.getcwd buffer.length <;> rfl
  | lseek fd offset whence =>
    rw [respond, lseek_eq within most fits.1]
    simp only [Machine.respond]
    cases m.lseek fd offset whence <;> rfl
  | errno => rfl
  | strerror code => rfl
  | sleep seconds => rfl
  | usleep micros => rfl

theorem numbered_counted (m : Machine) (request : Request) :
    (m.counted request).Numbered request ↔ m.Numbered request := by
  cases request <;> exact Iff.rfl

theorem inRange_counted (m : Machine) (counted request : Request) :
    InRange (m.counted counted) request ↔ InRange m request := by
  cases request <;> exact Iff.rfl

/-- A count that fits leaves the answer to decide what comes of a call. -/
theorem perform_eq_respond {request : Request} (count : m.calls.of request + 1 < wordCount) :
    perform request m = respond (m.counted request) request := by
  rw [perform, Checked.counted, add_eq count]
  rfl

/-- A call in words is the call without them, if and only if it adds no descriptor whose number does
not fit. The cast of that number wraps. -/
theorem perform_eq_iff {limit : Nat} (within : m.Within limit) (most : limit < signedCount)
    (input : m.stdin.length < signedCount) {request : Request}
    (count : m.calls.of request + 1 < wordCount) (fits : InRange m request) :
    (perform request m = .ok (m.perform request) ↔
      (m.TakesEffect request → m.Numbered request)) ∧
    (perform request m = .ok (m.perform request) ∨
      perform request m = .error (.faulted .castWraps)) := by
  rw [perform_eq_respond count]
  by_cases numbered : m.Numbered request
  · have same : respond (m.counted request) request = .ok (m.perform request) :=
      respond_eq (within.counted request) most input
        ((inRange_counted m request request).2 fits) ((numbered_counted m request).2 numbered)
    exact ⟨iff_of_true same fun _ => numbered, .inl same⟩
  -- Only a new descriptor can have a number that does not fit.
  cases request with
  | openFile path flags mode =>
    cases opened : (m.counted (.openFile path flags mode)).openFile path flags mode with
    | error e =>
      have same := respond_openFile_of_error opened
      refine ⟨iff_of_true same fun effect => ?_, .inl same⟩
      obtain ⟨answer, other⟩ := (m.takesEffect_openFile_iff path flags mode).1 effect
      exact nomatch opened.symm.trans other
    | ok answer =>
      have wraps := respond_openFile_of_wraps opened numbered
      have effect := (m.takesEffect_openFile_iff path flags mode).2 ⟨answer, opened⟩
      refine ⟨iff_of_false ?_ fun told => numbered (told effect), .inr wraps⟩
      rw [wraps]
      exact nofun
  | _ => exact absurd trivial numbered

/-- Fewer calls than a word can count are counted in a word. -/
theorem count_fits {steps : List SetupStep} {warnings : List LogEntry}
    (built : Machine.build steps = .ok (m, warnings)) {turns : List Turn}
    (short : turns.length + 1 < wordCount) (request : Request) :
    (m.after turns).calls.of request + 1 < wordCount := by
  have total := m.total_after turns
  rw [(Machine.unused_of_build built).2, show ({} : CallCounts).total = 0 from rfl] at total
  have single := (m.after turns).calls.of_le_total request
  omega

/-- **Words suffice** but for the numbers of descriptors. On every machine that a setup starts and
turns lead to, the input was read to its end at most, no position is larger than a signed word, no
file grows larger than a file may, and a call computed in words gives what it gives without them:
nothing is cut out of range, goes below zero or wraps, unless the call opens a file under a number
that does not fit, which is a cast that wraps. None does so before there are as many descriptors
open at one time as an `int` can number. -/
theorem words_suffice {steps : List SetupStep} {warnings : List LogEntry}
    (built : Machine.build steps = .ok (m, warnings)) (input : m.stdin.length < signedCount)
    (seeded : ∀ path c, m.tree.contents? path = some c → c.size < signedCount)
    (turns : List Turn) :
    (m.after turns).stdinPosition ≤ (m.after turns).stdin.length ∧
      (∀ fd path position flags,
        Machine.entry? (m.after turns) fd = some (.file path position flags) →
          (position : Int) ≤ Machine.maxPosition) ∧
      ((∀ path c, m.tree.contents? path = some c → c.size ≤ Tree.maxFileSize) →
        ∀ path c, (m.after turns).tree.contents? path = some c → c.size ≤ Tree.maxFileSize) ∧
      ∀ request, (m.after turns).calls.of request + 1 < wordCount →
        InRange (m.after turns) request →
          (perform request (m.after turns) = .ok ((m.after turns).perform request) ↔
            ((m.after turns).TakesEffect request → (m.after turns).Numbered request)) ∧
          (perform request (m.after turns) = .ok ((m.after turns).perform request) ∨
            perform request (m.after turns) = .error (.faulted .castWraps)) ∧
          (m.peak turns < CInt.bound →
            perform request (m.after turns) = .ok ((m.after turns).perform request)) := by
  have least : Tree.maxFileSize ≤ signedCount - 1 := by decide
  have most : ((signedCount - 1 : Nat) : Int) ≤ Machine.maxPosition := by decide
  have within : (m.after turns).Within (signedCount - 1) := by
    apply (Machine.within_of_build built _).after least most
    intro path c file
    exact Nat.le_sub_one_of_lt (seeded path c file)
  refine ⟨within.input, within.position, ?_, ?_⟩
  · intro small
    have within := (Machine.within_of_build built small).after (Nat.le_refl _)
      Machine.maxFileSize_le_maxPosition turns
    exact within.size
  · intro request count range
    obtain ⟨same_iff, wraps⟩ :=
      perform_eq_iff within (by decide) (by rwa [Machine.stdin_after]) count range
    exact ⟨same_iff, wraps,
      fun room => same_iff.2 fun _ => Machine.numbered_of_peak built room request⟩

/-- A machine with one file and some input. -/
def small : Machine :=
  { Machine.initial with
    tree := Tree.rootOnly.put "/f" (.file (.ofBytes [1, 2, 3]) Mode.defaultFile)
    stdin := [5, 6] }

theorem build_small : Machine.build [.stdin [5, 6], .file "/f" [1, 2, 3]] = .ok (small, []) := by
  have place : Path.resolve "/" "/f" = some "/f" := by decide
  have above : Path.parent? "/f" = some "/" := by decide
  have empty : Tree.rootOnly.createDirs "/" = (.ok (), Tree.rootOnly) :=
    Tree.createDirs_of_isDirectory (by decide)
  have put : Tree.rootOnly.putFile "/f" [1, 2, 3] = (.ok (), small.tree) := by
    simp [Tree.putFile, empty, above, small]
  have followed : Setup.follow {} [.stdin [5, 6], .file "/f" [1, 2, 3]] =
      .ok { tree := small.tree, stdin := [5, 6] } := by
    simp [Setup.follow, Setup.step, place, Setup.withTree, put]
  have root : small.tree.createDirs "/" = (.ok (), small.tree) :=
    Tree.createDirs_of_isDirectory (by decide)
  rw [Machine.build_of_follow followed, Setup.start, root]
  rfl

theorem contents_small {path : String} {c : Contents} (h : small.tree.contents? path = some c) :
    c.size = 3 := by
  rw [small, Tree.contents?_put_file] at h
  split at h
  · rw [← Option.some.inj h]
    rfl
  · simp only [Tree.contents?, Tree.get?_rootOnly] at h
    split at h <;> simp_all

/-- A seek past the last position that a signed word can say is refused, and nothing wraps. -/
theorem words_suffice_at_last_position :
    let flags := OpenFlags.readWrite
    let m := small.after [.call (.openFile ⟨Utf8.encode "/f"⟩ flags 0),
      .call (.lseek ⟨3⟩ Machine.maxPosition Whence.start.code)]
    let request : Request := .lseek ⟨3⟩ 1 Whence.current.code
    m.entry? ⟨3⟩ = some (.file "/f" (signedCount - 1) flags) ∧
      perform request m = .ok (m.perform request) ∧ (m.perform request).1 = (-1 : Int) := by
  intro flags m request
  have seeded : ∀ path c, small.tree.contents? path = some c → c.size < signedCount := by
    intro path c file
    rw [contents_small file]
    decide
  obtain ⟨-, -, -, calls⟩ := words_suffice build_small (by decide) seeded
    [.call (.openFile ⟨Utf8.encode "/f"⟩ flags 0),
      .call (.lseek ⟨3⟩ Machine.maxPosition Whence.start.code)]
  have few : small.peak [.call (.openFile ⟨Utf8.encode "/f"⟩ flags 0),
      .call (.lseek ⟨3⟩ Machine.maxPosition Whence.start.code)] < CInt.bound := by decide
  refine ⟨by decide, (calls request ?_ ⟨by decide, by decide⟩).2.2 few, by decide⟩
  exact count_fits build_small (by decide) request

/-- With as many descriptors open as can be numbered, the number of the next one is a cast that
wraps. -/
theorem perform_of_crowd (crowd : m.Crowd CInt.bound)
    (count : m.calls.of (Machine.openAt "/g") + 1 < wordCount) :
    perform (Machine.openAt "/g") m = .error (.faulted .castWraps) := by
  have effect : m.TakesEffect (Machine.openAt "/g") := by
    refine .inr ?_
    rw [crowd.perform_openAt]
    exact SlotTable.insert_ne _ _
  obtain ⟨answer, opened⟩ := (m.takesEffect_openFile_iff _ _ _).1 effect
  have wraps : ¬ m.files.next < CInt.bound := by
    rw [crowd.next]
    exact Nat.lt_irrefl _
  rw [perform_eq_respond count]
  exact respond_openFile_of_wraps opened wraps

/-- So one open more than there are numbers is the fault. -/
theorem castWraps_after_crowding :
    Machine.build [] = .ok (Machine.initial, []) ∧
      perform (Machine.openAt "/g") (Machine.initial.after Machine.crowding) =
        .error (.faulted .castWraps) := by
  have short : Machine.crowding.length + 1 < wordCount := by
    rw [Machine.crowding, List.length_cons, List.length_replicate]
    decide
  exact ⟨Machine.build_nil, perform_of_crowd Machine.crowd_crowding
    (count_fits Machine.build_nil short _)⟩

end Hostcall.Checked
