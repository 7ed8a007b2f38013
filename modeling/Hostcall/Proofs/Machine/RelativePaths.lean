import Hostcall.Proofs.Facade.InOrder
import Hostcall.Proofs.Machine.CurrentDirectory
import Hostcall.Proofs.Path.Resolve

/-!
# Relative paths from a directory

An operation on a path takes nothing from the current directory but the place that the path names.
So two machines that differ in the current directory alone answer alike where the two paths name one
place (`attempt_relocated`), and a relative path after a change of the directory does what the path
below that directory does without the change (`relative_paths_compose`). A chain of changes that all
succeed comes to one change along the joined path.
-/

namespace Hostcall

open Facade (hosted hostPath)
open Hostcall.Path (IsAbsolute)

/-- An operation on a path, without the path. -/
inductive PathOperation where
  | openFile (flags : OpenFlags) (mode : Mode)
  | unlink
  | mkdir (mode : Mode)
  | chdir
deriving DecidableEq, Repr

namespace PathOperation

/-- What an operation on a path gives. -/
@[reducible] def Value : PathOperation → Type
  | .openFile .. => Fd
  | .unlink => Unit
  | .mkdir _ => Unit
  | .chdir => Unit

/-- The operation as an applet has it. -/
def perform (path : String) : (op : PathOperation) → Program (Except Error op.Value)
  | .openFile flags mode => hosted.openFile path flags mode
  | .unlink => hosted.unlink path
  | .mkdir mode => hosted.mkdir path mode
  | .chdir => hosted.chdir path

/-- The call that the operation makes. -/
def request (name : CString) : PathOperation → Request
  | .openFile flags mode => .openFile name flags mode
  | .unlink => .unlink name
  | .mkdir mode => .mkdir name mode
  | .chdir => .chdir name

/-- What a machine makes of the call. -/
def attempt (m : Machine) (name : CString) : PathOperation → Except SysError (Nat × Machine)
  | .openFile flags mode => m.openFile name flags mode
  | .unlink => m.unlink name
  | .mkdir mode => m.mkdir name mode
  | .chdir => m.chdir name

/-- The number that the call answers where it takes effect. -/
def answer (n : Nat) : PathOperation → Int
  | .openFile .. => CInt.ofNat n
  | .unlink => n
  | .mkdir _ => n
  | .chdir => n

/-- The answer to the call, and the machine after it. -/
def settled (op : PathOperation) (m : Machine) : Except SysError (Nat × Machine) → Int × Machine
  | .ok (n, after) => (op.answer n, after)
  | .error e => (-1, m.failed e)

/-- What an applet gets for a number that is no failure. -/
def value (n : Nat) : (op : PathOperation) → op.Value
  | .openFile .. => ⟨n⟩
  | .unlink => ()
  | .mkdir _ => ()
  | .chdir => ()

end PathOperation

namespace Machine

variable {m : Machine} {cwd dir path place : String} {near far name : CString}
  {calls : CallCounts} {op : PathOperation}

/-- The machine in another directory and with other counts. -/
def relocated (m : Machine) (cwd : String) (calls : CallCounts) : Machine := { m with cwd, calls }

/-- What an applet is told of a call, by its answer and the machine after it: the number, or what
the register has if the number is negative. -/
def told (answer : Int × Machine) : Except Error Nat :=
  if answer.1 < 0 then .error (.host ⟨answer.2.errno⟩) else .ok answer.1.toNat

/-- The machine after an operation, which looks at the register once if the number is negative. -/
def concluded (answer : Int × Machine) : Machine :=
  if answer.1 < 0 then answer.2.counted .errno else answer.2

/-- A run returns a result and leaves a machine behind. -/
def Yields {α : Type} (r : Run Machine α) (a : α) (after : Machine) : Prop :=
  r.outcome = .returned a ∧ r.state = after

/-- An operation does the same in two runs, from the directory `cwd` and from that of `m`: the
results are equal, and so are the machines but for the counts and the current directory, which is
the same one only where the operation has changed it. -/
structure SameDoing (op : PathOperation) (m : Machine) (cwd : String)
    (near far : Run Machine (Except Error op.Value)) : Prop where
  outcome : near.outcome = far.outcome
  state : near.state = far.state.relocated near.state.cwd near.state.calls
  moved : op = .chdir → (∃ value, far.outcome = .returned (.ok value)) →
    near.state.cwd = far.state.cwd
  stayed : op ≠ .chdir ∨ (∃ e, far.outcome = .returned (.error e)) →
    near.state.cwd = cwd ∧ far.state.cwd = m.cwd

theorem Yields.after {α : Type} {r : Run Machine α} {a : α} {after : Machine}
    (h : Yields r a after) (earlier : List Event) : Yields (r.after earlier) a after := h

/-! ## What an operation comes to -/

/-- A negative answer is told as the error in the register, whose sampling is counted. -/
theorem told_concluded_of_reports {n : Nat} {after : Machine} (reports : op.answer n < 0) :
    told (op.settled m (.ok (n, after))) = .error (.host ⟨after.errno⟩) ∧
      concluded (op.settled m (.ok (n, after))) = after.counted .errno :=
  ⟨if_pos reports, if_pos reports⟩

/-- Any other answer is told as it is. -/
theorem told_concluded_of_passes {n : Nat} {after : Machine} (passes : ¬ op.answer n < 0) :
    told (op.settled m (.ok (n, after))) = .ok (op.answer n).toNat ∧
      concluded (op.settled m (.ok (n, after))) = after :=
  ⟨if_neg passes, if_neg passes⟩

/-- The facade tells what the answer says. -/
theorem yields_checked (operation : String) (answer : Int × Machine) :
    Yields ((Facade.checked operation answer.1).run host answer.2) (told answer)
      (concluded answer) := by
  rw [Facade.run_checked]
  unfold told concluded
  by_cases negative : answer.1 < 0
  · simp only [if_pos negative]
    exact ⟨rfl, rfl⟩
  · simp only [if_neg negative]
    exact ⟨rfl, rfl⟩

/-- What is made of the result without a call changes nothing else. -/
theorem yields_checked_map {β : Type} (operation : String) (answer : Int × Machine)
    (f : Except Error Nat → β) :
    Yields ((do return f (← Facade.checked operation answer.1) : Program β).run host answer.2)
      (f (told answer)) (concluded answer) := by
  obtain ⟨returned, left⟩ := yields_checked operation answer
  rw [Program.run_bind, Run.followedBy, returned]
  exact ⟨rfl, left⟩

/-- The same for an answer that is a mere status. -/
theorem yields_status (operation : String) (answer : Int × Machine) :
    Yields ((Facade.status operation answer.1).run host answer.2)
      ((told answer).map fun _ => ()) (concluded answer) :=
  yields_checked_map operation answer fun result => result.map fun _ => ()

/-- An operation that answers its count is settled as any call is. -/
theorem settle_eq_settled (op : PathOperation) (same : ∀ n : Nat, op.answer n = n) (m : Machine)
    (x : Except SysError (Nat × Machine)) : m.settle x = op.settled m x := by
  cases x with
  | ok answer => exact congrArg (·, answer.2) (same answer.1).symm
  | error e => rfl

/-- An open is settled by the number it hands out, cast to a word. -/
theorem answer_openFile (m : Machine) (name : CString) (flags : OpenFlags) (mode : Mode) :
    host.answer (.openFile name flags mode) m =
      (PathOperation.openFile flags mode).settled (m.counted (.openFile name flags mode))
        ((m.counted (.openFile name flags mode)).openFile name flags mode) := by
  show (m.counted (.openFile name flags mode)).respond (.openFile name flags mode) = _
  simp only [respond]
  cases (m.counted (.openFile name flags mode)).openFile name flags mode <;> rfl

/-- An operation on a path returns what the machine makes of its call. -/
theorem yields_perform (op : PathOperation) (path : String) (m : Machine) :
    let counted := m.counted (op.request (hostPath path))
    let answer := op.settled counted (op.attempt counted (hostPath path))
    Yields ((op.perform path).run host m) ((told answer).map op.value) (concluded answer) := by
  cases op with
  | openFile flags mode =>
    simp only [PathOperation.perform, hosted]
    generalize hostPath path = name
    rw [Program.run_call_bind, answer_openFile]
    have numbered (result : Except Error Nat) :
        (Except.map (fun n : Int => (⟨n⟩ : Fd)) do return ((← result : Nat) : Int)) =
          result.map (PathOperation.openFile flags mode).value := by
      cases result <;> rfl
    rw [← numbered]
    exact (yields_checked_map "open" _ fun result =>
      Except.map (fun n : Int => (⟨n⟩ : Fd)) do return ((← result : Nat) : Int)).after _
  | unlink =>
    simp only [PathOperation.perform, hosted]
    generalize hostPath path = name
    rw [Program.run_call_bind, show host.answer (.unlink name) m = _ from
      settle_eq_settled .unlink (fun _ => rfl) _ _]
    exact (yields_status "unlink" _).after _
  | mkdir mode =>
    simp only [PathOperation.perform, hosted]
    generalize hostPath path = name
    rw [Program.run_call_bind, show host.answer (.mkdir name mode) m = _ from
      settle_eq_settled (.mkdir mode) (fun _ => rfl) _ _]
    exact (yields_status "mkdir" _).after _
  | chdir =>
    simp only [PathOperation.perform, hosted]
    generalize hostPath path = name
    rw [Program.run_call_bind, show host.answer (.chdir name) m = _ from
      settle_eq_settled .chdir (fun _ => rfl) _ _]
    exact (yields_status "chdir" _).after _

/-! ## Machines in different directories -/

/-- Only `chdir` changes the directory. -/
theorem cwd_of_attempt {n : Nat} {after : Machine} (other : op ≠ .chdir)
    (made : op.attempt m name = .ok (n, after)) : after.cwd = m.cwd := by
  cases op with
  | openFile flags mode =>
    obtain ⟨-, place, tree, -, -, -, rfl⟩ := eq_of_openFile made
    rfl
  | unlink =>
    obtain ⟨place, tree, -, -, -, rfl⟩ := eq_of_unlink made
    rfl
  | mkdir mode =>
    obtain ⟨place, tree, -, -, -, rfl⟩ := eq_of_mkdir made
    rfl
  | chdir => exact absurd rfl other

/-- Where two names lead from two directories to one place, a machine in the one directory does
what the machine in the other does. A change of the directory then leads to that place from both. -/
theorem attempt_relocated (calls : CallCounts)
    (same : (m.relocated cwd calls).place near = m.place far) (op : PathOperation) :
    op.attempt (m.relocated cwd calls) near =
      (op.attempt m far).map fun (n, after) =>
        (n, after.relocated (if op = .chdir then after.cwd else cwd) calls) := by
  cases op with
  | openFile flags mode =>
    simp only [PathOperation.attempt, openFile]
    rw [same]
    split
    · rfl
    cases m.place far with
    | error e => rfl
    | ok place =>
      show (m.openTree place flags mode >>= _) = (m.openTree place flags mode >>= _).map _
      cases m.openTree place flags mode <;> rfl
  | unlink =>
    simp only [PathOperation.attempt, unlink]
    rw [same]
    cases m.place far with
    | error e => rfl
    | ok place =>
      show (m.tree.remove place >>= _) = (m.tree.remove place >>= _).map _
      cases m.tree.remove place <;> rfl
  | mkdir mode =>
    simp only [PathOperation.attempt, mkdir]
    rw [same]
    cases m.place far with
    | error e => rfl
    | ok place =>
      show (m.tree.createDirectory place mode >>= _) =
        (m.tree.createDirectory place mode >>= _).map _
      cases m.tree.createDirectory place mode <;> rfl
  | chdir =>
    simp only [PathOperation.attempt, chdir]
    rw [same]
    cases m.place far with
    | error e => rfl
    | ok place =>
      simp only [bind, Except.bind]
      rw [show (m.relocated cwd calls).tree = m.tree from rfl]
      cases m.tree.get? place with
      | none => rfl
      | some node => cases node <;> rfl

/-- Where two paths lead from two directories to one place, an operation does the same there. -/
theorem sameDoing_relocated {below : String}
    (same : (m.relocated cwd calls).place (hostPath below) = m.place (hostPath path))
    (op : PathOperation) :
    SameDoing op m cwd ((op.perform below).run host (m.relocated cwd calls))
      ((op.perform path).run host m) := by
  obtain ⟨nearReturned, nearLeft⟩ := yields_perform op below (m.relocated cwd calls)
  obtain ⟨farReturned, farLeft⟩ := yields_perform op path m
  generalize hostPath below = nearName at same nearReturned nearLeft
  generalize hostPath path = farName at same farReturned farLeft
  have attempts := attempt_relocated (m := m.counted (op.request farName))
    (calls.add (op.request nearName)) same op
  have counted : (m.relocated cwd calls).counted (op.request nearName) =
    (m.counted (op.request farName)).relocated cwd (calls.add (op.request nearName)) := rfl
  rw [counted, attempts] at nearReturned nearLeft
  cases made : op.attempt (m.counted (op.request farName)) farName with
  | error e =>
    rw [made] at nearReturned nearLeft farReturned farLeft
    refine ⟨nearReturned.trans farReturned.symm, ?_, ?_, ?_⟩
    · rw [nearLeft, farLeft]
      rfl
    · rintro - ⟨value, returned⟩
      exact nomatch farReturned.symm.trans returned
    · rintro -
      rw [nearLeft, farLeft]
      exact ⟨rfl, rfl⟩
  | ok answer =>
    obtain ⟨n, after⟩ := answer
    simp only [made, Except.map] at nearReturned nearLeft farReturned farLeft
    by_cases reports : op.answer n < 0
    · -- Only an open answers a negative number where it takes effect.
      have other : op ≠ .chdir := by
        rintro rfl
        exact absurd reports (Int.not_lt.2 (Int.natCast_nonneg n))
      rw [(told_concluded_of_reports reports).1] at nearReturned farReturned
      rw [(told_concluded_of_reports reports).2] at nearLeft farLeft
      refine ⟨nearReturned.trans farReturned.symm, ?_, fun changes => absurd changes other, ?_⟩
      · rw [nearLeft, farLeft]
        rfl
      · rintro -
        have stays := cwd_of_attempt other made
        rw [nearLeft, farLeft]
        exact ⟨if_neg other, stays⟩
    · rw [(told_concluded_of_passes reports).1] at nearReturned farReturned
      rw [(told_concluded_of_passes reports).2] at nearLeft farLeft
      refine ⟨nearReturned.trans farReturned.symm, ?_, ?_, ?_⟩
      · rw [nearLeft, farLeft]
        rfl
      · rintro changes -
        rw [nearLeft, farLeft]
        exact if_pos changes
      · rintro (other | ⟨e, returned⟩)
        · have stays := cwd_of_attempt other made
          rw [nearLeft, farLeft]
          exact ⟨if_neg other, stays⟩
        · exact nomatch farReturned.symm.trans returned

/-! ## Changes of the directory -/

/-- A change of the directory succeeds where the path leads to a directory, and it moves there. -/
theorem yields_chdir (noNul : '\x00' ∉ path.toList) (resolved : m.resolve path = some place)
    (directory : m.tree.isDirectory place = true) :
    Yields ((hosted.chdir path).run host m) (.ok ())
      (m.relocated place (m.calls.add (.chdir (hostPath path)))) := by
  have answer := perform_chdir ((place_hostPath_eq_ok_iff noNul).2 resolved) directory
  simp only [hosted]
  generalize hostPath path = name at answer ⊢
  rw [Program.run_call_bind, show host.answer (.chdir name) m = _ from answer]
  exact ⟨rfl, rfl⟩

/-- A `chdir` that returned led to a directory. -/
theorem exists_of_returned_chdir (noNul : '\x00' ∉ path.toList)
    (returned : ((hosted.chdir path).run host m).outcome = .returned (.ok ())) :
    ∃ place, m.resolve path = some place ∧ m.tree.isDirectory place = true := by
  have given := (yields_perform .chdir path m).1.symm.trans returned
  cases made : (m.counted (.chdir (hostPath path))).chdir (hostPath path) with
  | error e =>
    simp only [PathOperation.attempt, PathOperation.request, made] at given
    exact nomatch given
  | ok answer =>
    obtain ⟨place, mode, resolved, directory, -, -⟩ := eq_of_chdir made
    have leads := (place_hostPath_eq_ok_iff noNul).1 resolved
    exact ⟨place, leads, Tree.isDirectory_iff.2 ⟨mode, directory⟩⟩

/-- A chain of changes goes on where the first of them leads. -/
theorem run_chdirs_cons (rest : List (Program (Except Error Unit))) (noNul : '\x00' ∉ dir.toList)
    (resolved : m.resolve dir = some place) (directory : m.tree.isDirectory place = true) :
    ∃ calls,
      ((Program.inOrder (hosted.chdir dir :: rest)).run host m).outcome =
          ((Program.inOrder rest).run host (m.relocated place calls)).outcome ∧
        ((Program.inOrder (hosted.chdir dir :: rest)).run host m).state =
          ((Program.inOrder rest).run host (m.relocated place calls)).state := by
  obtain ⟨entered, moved⟩ := yields_chdir noNul resolved directory
  rw [Program.run_inOrder_cons rest entered, moved]
  simp only [Run.after]
  exact ⟨_, rfl, rfl⟩

/-- A chain of changes that all succeed begins with one that does. -/
theorem exists_of_returned_chdirs_cons {rest : List (Program (Except Error Unit))}
    (noNul : '\x00' ∉ dir.toList)
    (returned : ((Program.inOrder (hosted.chdir dir :: rest)).run host m).outcome =
      .returned (.ok ())) :
    ∃ place calls, m.resolve dir = some place ∧ m.tree.isDirectory place = true ∧
      ((Program.inOrder rest).run host (m.relocated place calls)).outcome = .returned (.ok ()) ∧
      ((Program.inOrder (hosted.chdir dir :: rest)).run host m).state =
        ((Program.inOrder rest).run host (m.relocated place calls)).state := by
  have entered := Program.succeeds_of_inOrder_cons returned
  obtain ⟨place, resolved, directory⟩ := exists_of_returned_chdir noNul entered
  obtain ⟨calls, outcome, left⟩ := run_chdirs_cons rest noNul resolved directory
  exact ⟨place, calls, resolved, directory, outcome.symm.trans returned, left⟩

/-- A path that resolves is not empty. -/
theorem ne_empty_of_resolve (resolved : m.resolve path = some place) : path ≠ "" := by
  intro empty
  rw [resolve, Path.resolve_eq_none_iff.2 empty] at resolved
  exact nomatch resolved

/-- Changes that all succeed lead where the joined path leads, and move only the directory. -/
theorem exists_of_returned_chdirs (first : String) (rest : List String)
    (noNul : ∀ dir ∈ first :: rest, '\x00' ∉ dir.toList)
    (relative : ∀ dir ∈ rest, ¬ IsAbsolute dir)
    (returned : ((Program.inOrder ((first :: rest).map hosted.chdir)).run host m).outcome =
      .returned (.ok ())) :
    ∃ place calls, m.resolve ("/".intercalate (first :: rest)) = some place ∧
      m.tree.isDirectory place = true ∧
      ((Program.inOrder ((first :: rest).map hosted.chdir)).run host m).state =
        m.relocated place calls := by
  -- The rest of the chain starts from the machine that the first change has moved.
  induction rest generalizing first m with
  | nil =>
    obtain ⟨place, calls, resolved, directory, -, left⟩ :=
      exists_of_returned_chdirs_cons (noNul first List.mem_cons_self) returned
    rw [String.intercalate_singleton]
    exact ⟨place, calls, resolved, directory, left⟩
  | cons next rest ih =>
    obtain ⟨dir, calls, resolved, -, further, left⟩ :=
      exists_of_returned_chdirs_cons (noNul first List.mem_cons_self) returned
    have noNul := fun dir later => noNul dir (List.mem_cons_of_mem _ later)
    obtain ⟨_, _, named, -⟩ :=
      exists_of_returned_chdirs_cons (noNul next List.mem_cons_self) further
    obtain ⟨place, calls, leads, there, last⟩ := ih next noNul
      (fun dir later => relative dir (List.mem_cons_of_mem _ later)) further
    refine ⟨place, calls, ?_, there, left.trans last⟩
    obtain ⟨joined, fromHere⟩ := Path.relative_intercalate (ne_empty_of_resolve named)
      (relative next List.mem_cons_self) rest
    have below := Path.resolve_below m.cwd (ne_empty_of_resolve resolved) fromHere joined
    rw [show Path.resolve m.cwd first = some dir from resolved, Option.bind_some] at below
    rw [String.intercalate_cons_cons]
    exact below.symm.trans leads

/-! ## Relative paths -/

/-- A relative path names from a directory the place that the path below the directory names. -/
theorem place_relocated {below : String} (noNul : '\x00' ∉ dir.toList)
    (resolved : m.resolve dir = some place) (belowNul : '\x00' ∉ below.toList)
    (named : below ≠ "") (relative : ¬ IsAbsolute below) :
    (m.relocated place calls).place (hostPath below) =
      m.place (hostPath (dir ++ "/" ++ below)) := by
  have composed := Path.resolve_below m.cwd (ne_empty_of_resolve resolved) relative named
  rw [show Path.resolve m.cwd dir = some place from resolved, Option.bind_some] at composed
  have joinedNul : '\x00' ∉ (dir ++ "/" ++ below).toList := by
    rw [Path.toList_below, List.mem_append, List.mem_cons]
    rintro (within | slash | later)
    · exact noNul within
    · exact absurd slash (by decide)
    · exact belowNul later
  cases leads : Path.resolve place below with
  | none => exact absurd (Path.resolve_eq_none_iff.1 leads) named
  | some target =>
    have near : (m.relocated place calls).place (hostPath below) = .ok target :=
      (place_hostPath_eq_ok_iff belowNul).2 leads
    have far : m.place (hostPath (dir ++ "/" ++ below)) = .ok target :=
      (place_hostPath_eq_ok_iff joinedNul).2 (composed.symm.trans leads)
    rw [near, far]

/-- **Relative paths compose with changes of the directory.** Resolving a relative path from where
another path leads is resolving the two as one path. So an operation on a relative path, after a
change of the directory that has succeeded, does what it does on the path below that directory
without the change; and changes that all succeed one after the other are one change along the
joined path. -/
theorem relative_paths_compose (m : Machine) :
    (∀ cwd dir below, dir ≠ "" → below ≠ "" → ¬ IsAbsolute below →
      (Path.resolve cwd dir).bind (Path.resolve · below) =
        Path.resolve cwd (dir ++ "/" ++ below)) ∧
    (∀ dir, '\x00' ∉ dir.toList →
      let entered := (hosted.chdir dir).run host m
      entered.outcome = .returned (.ok ()) →
      ∀ below, '\x00' ∉ below.toList → below ≠ "" → ¬ IsAbsolute below →
      ∀ op : PathOperation,
        SameDoing op m entered.state.cwd ((op.perform below).run host entered.state)
          ((op.perform (dir ++ "/" ++ below)).run host m)) ∧
    ∀ first rest, (∀ dir ∈ first :: rest, '\x00' ∉ dir.toList) →
      (∀ dir ∈ rest, ¬ IsAbsolute dir) →
      let chain := (Program.inOrder ((first :: rest).map hosted.chdir)).run host m
      let once := (hosted.chdir ("/".intercalate (first :: rest))).run host m
      chain.outcome = .returned (.ok ()) →
      once.outcome = .returned (.ok ()) ∧
        chain.state = { once.state with calls := chain.state.calls } := by
  refine ⟨fun cwd dir below nonempty named relative =>
    Path.resolve_below cwd nonempty relative named, ?_, ?_⟩
  · intro dir noNul entered returned below belowNul named relative op
    obtain ⟨place, resolved, directory⟩ := exists_of_returned_chdir noNul returned
    have moved := (yields_chdir noNul resolved directory).2
    simp only [entered, moved]
    exact sameDoing_relocated (place_relocated noNul resolved belowNul named relative) op
  · intro first rest noNul relative chain once returned
    obtain ⟨place, calls, resolved, directory, last⟩ :=
      exists_of_returned_chdirs first rest noNul relative returned
    obtain ⟨succeeds, left⟩ := yields_chdir (Path.notMem_intercalate (by decide) noNul) resolved
      directory
    refine ⟨succeeds, ?_⟩
    simp only [chain, once, last, left]
    rfl

/-- The directory is entered by a path that ends in a slash, and left again by the relative path; in
the chain the second change goes down and up again. -/
theorem relative_paths_compose_climbing :
    let m := initial.after [.call (.mkdir ⟨Utf8.encode "a"⟩ 0o755),
      .call (.mkdir ⟨Utf8.encode "a/b"⟩ 0o755)]
    let entered := (hosted.chdir "a/").run host m
    let near := ((PathOperation.mkdir 0o700).perform "b/../../c").run host entered.state
    let chain := (Program.inOrder (["a/", "b/..", "b"].map hosted.chdir)).run host m
    let once := (hosted.chdir "a//b/../b").run host m
    entered.outcome = .returned (.ok ()) ∧
      SameDoing (.mkdir 0o700) m entered.state.cwd near
        (((PathOperation.mkdir 0o700).perform "a//b/../../c").run host m) ∧
      near.state.tree.isDirectory "/c" = true ∧ near.state.cwd = "/a" ∧
      chain.outcome = .returned (.ok ()) ∧ once.outcome = .returned (.ok ()) ∧
      chain.state.cwd = "/a/b" := by
  intro m entered near chain once
  have resolved : m.resolve "a/" = some "/a" := by decide
  have directory : m.tree.isDirectory "/a" = true := by decide
  have deeper : m.tree.isDirectory "/a/b" = true := by decide
  have made : near.state.tree.isDirectory "/c" = true := by decide
  clear_value m
  obtain ⟨-, composed, chained⟩ := relative_paths_compose m
  have enters := yields_chdir (by decide) resolved directory
  have relative : ∀ path ∈ ["b/../../c", "b/..", "b"], ¬ IsAbsolute path := by
    simp [IsAbsolute]
  have same := composed "a/" (by decide) enters.1 "b/../../c" (by decide) (by decide)
    (relative _ (by decide)) (.mkdir 0o700)
  have stays : near.state.cwd = "/a" :=
    (same.stayed (.inl (by decide))).1.trans (congrArg cwd enters.2)
  obtain ⟨calls, entering, entered⟩ :=
    run_chdirs_cons (["b/..", "b"].map hosted.chdir) (by decide) resolved directory
  obtain ⟨calls, remaining, remained⟩ := run_chdirs_cons (m := m.relocated "/a" calls)
    (["b"].map hosted.chdir) (by decide)
    (show Path.resolve "/a" "b/.." = some "/a" by decide) directory
  obtain ⟨calls, descending, descended⟩ := run_chdirs_cons (m := m.relocated "/a" calls) []
    (by decide) (show Path.resolve "/a" "b" = some "/a/b" by decide) deeper
  have returned : chain.outcome = .returned (.ok ()) :=
    entering.trans (remaining.trans descending)
  have there : chain.state.cwd = "/a/b" :=
    congrArg cwd (entered.trans (remained.trans descended))
  obtain ⟨succeeds, -⟩ := chained "a/" ["b/..", "b"] (by decide)
    (fun dir later => relative dir (List.mem_cons_of_mem _ later)) returned
  exact ⟨enters.1, same, made, stays, returned, succeeds, there⟩

/-- A change that fails leaves each machine in its own directory. -/
theorem failed_change_stays :
    let m := initial.after [.call (.mkdir ⟨Utf8.encode "a"⟩ 0o755)]
    let entered := (hosted.chdir "a").run host m
    let near := (hosted.chdir "missing").run host entered.state
    let far := (hosted.chdir "a/missing").run host m
    build [] = .ok (initial, []) ∧ entered.outcome = .returned (.ok ()) ∧
      near.state.cwd = "/a" ∧ far.state.cwd = "/" ∧ near.state.cwd ≠ far.state.cwd := by
  intro m entered near far
  have resolved : m.resolve "a" = some "/a" := by decide
  have enters := yields_chdir (by decide) resolved (by decide)
  have nearThere : near.state.cwd = "/a" := by decide
  have farThere : far.state.cwd = "/" := by decide
  have differ : near.state.cwd ≠ far.state.cwd := by
    rw [nearThere, farThere]
    decide
  exact ⟨build_of_follow_empty rfl, enters.1, nearThere, farThere, differ⟩

end Machine

end Hostcall
