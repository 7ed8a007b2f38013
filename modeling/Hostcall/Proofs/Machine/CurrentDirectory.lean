import Hostcall.Proofs.Facade.WriteAll
import Hostcall.Proofs.Machine.Build
import Hostcall.Text.Utf8.WithoutNul

/-!
# The current directory

The path of the current directory has to cross to an applet and back, as bytes that end at the first
NUL, are read as UTF-8 whatever they are, and are resolved. A machine is located when its current
directory is a directory of the tree by a normal path without NUL (`Located`), and such a path comes
back from the crossing as it was (`place_hostPath`). Setups start located machines, and every turn
keeps them located, since a path from the host's side is cut before its first NUL. Directories are
never removed, so a path that was once the current directory can be changed to for ever after
(`cwd_stays_returnable`).
-/

namespace Hostcall

open Hostcall.Path (Normal)

namespace Machine

variable {m n : Machine} {path : String}

/-- Resolving makes up no NUL. -/
theorem noNul_of_resolve {cwd place : String} (seen : '\x00' ∉ cwd.toList)
    (named : '\x00' ∉ path.toList) (resolved : Path.resolve cwd path = some place) :
    '\x00' ∉ place.toList := by
  intro nul
  rcases Path.mem_of_mem_resolve resolved nul with slash | nul | nul
  · exact absurd slash (by decide)
  · exact seen nul
  · exact named nul

/-- A path from the host's side ends before its first NUL. -/
theorem noNul_of_place {name : CString} (seen : '\x00' ∉ m.cwd.toList)
    (resolved : m.place name = .ok path) : '\x00' ∉ path.toList :=
  noNul_of_resolve seen (Utf8.nul_notMem_decode (Bytes.zero_notMem_beforeNul _))
    (place_eq_ok_iff.1 resolved)

/-- A path without NUL names on the host's side what it names on this one. -/
theorem place_hostPath_eq_ok_iff {place : String} (noNul : '\x00' ∉ path.toList) :
    m.place (Facade.hostPath path) = .ok place ↔ m.resolve path = some place := by
  have whole : (Facade.hostPath path).hostView = Utf8.encode path :=
    (CString.hostView_eq _).trans (Utf8.beforeNul_encode_of_notMem noNul)
  rw [place_eq_ok_iff, whole, Utf8.decode_encode]

/-- A normal path without NUL names itself, from every current directory. -/
theorem place_hostPath (normal : Normal path) (noNul : '\x00' ∉ path.toList) (m : Machine) :
    m.place (Facade.hostPath path) = .ok path :=
  (place_hostPath_eq_ok_iff noNul).2 (Path.resolve_of_normal normal m.cwd)

/-- The current directory is a place in the tree, and its path has no NUL. -/
structure Located (m : Machine) : Prop extends Grounded m where
  noNul : '\x00' ∉ m.cwd.toList

/-- A turn leaves the program in a directory whose text it can be given. -/
theorem Located.turn (h : m.Located) (turn : Turn) : (m.turn turn).Located := by
  refine ⟨h.toGrounded.turn turn, ?_⟩
  rcases m.turn_cases turn with ⟨request, reply, succeeded⟩ | kept
  · rcases succeeded.cwd with same | ⟨-, name, resolved⟩
    · exact same ▸ h.noNul
    · exact noNul_of_place (m := m.counted request) h.noNul resolved
  · exact kept.cwd ▸ h.noNul

/-- So does a run. -/
theorem Located.after (h : m.Located) (turns : List Turn) : (m.after turns).Located :=
  after_of_turn (fun _ turn h => h.turn turn) h turns

end Machine

namespace Setup

variable {s u : Setup}

/-- Only the step that names the current directory changes it. -/
theorem step_cwd {step : SetupStep} (taken : s.step step = .ok u) :
    u.cwd = s.cwd ∨ ∃ path, step = .cwd path ∧ u.cwd = (Path.resolve "/" path).getD "/" := by
  cases step with
  | cwd path => exact .inr ⟨path, rfl, Except.ok.inj taken ▸ rfl⟩
  | directory path =>
    simp only [Setup.step] at taken
    split at taken <;> obtain rfl := Except.ok.inj taken
    · exact .inl (withTree_cwd _ _ _ _)
    · exact .inl rfl
  | file path data =>
    simp only [Setup.step] at taken
    split at taken <;> obtain rfl := Except.ok.inj taken
    · exact .inl (withTree_cwd _ _ _ _)
    · exact .inl rfl
  | stdin data => exact .inl (Except.ok.inj taken ▸ rfl)
  | writeCap count => exact .inl (Except.ok.inj taken ▸ rfl)
  | stalled => exact .inl (Except.ok.inj taken ▸ rfl)
  | snapshot text =>
    obtain ⟨tree, -, taken⟩ := ok_of_bind taken
    exact .inl (Except.ok.inj taken ▸ rfl)

theorem noNul_getD_resolve {path : String} (named : '\x00' ∉ path.toList) :
    '\x00' ∉ ((Path.resolve "/" path).getD "/").toList := by
  cases resolved : Path.resolve "/" path with
  | none => decide
  | some place => exact Machine.noNul_of_resolve (by decide) named resolved

/-- Steps that name directories without a NUL set none with one. -/
theorem noNul_follow {steps : List SetupStep} (noNul : '\x00' ∉ s.cwd.toList)
    (named : ∀ path, SetupStep.cwd path ∈ steps → '\x00' ∉ path.toList)
    (followed : s.follow steps = .ok u) : '\x00' ∉ u.cwd.toList := by
  induction steps generalizing s with
  | nil => exact Except.ok.inj followed ▸ noNul
  | cons step steps ih =>
    unfold Setup.follow at followed
    split at followed
    · rename_i next taken
      refine ih ?_ (fun path later => named path (List.mem_cons_of_mem _ later)) followed
      rcases step_cwd taken with same | ⟨path, rfl, given⟩
      · exact same ▸ noNul
      · exact given ▸ noNul_getD_resolve (named path List.mem_cons_self)
    · contradiction

end Setup

namespace Machine

variable {m : Machine} {path : String} {buffer : Bytes} {steps : List SetupStep}
  {warnings : List LogEntry}

/-- A setup that names no current directory with a NUL starts a located machine. -/
theorem located_of_build (built : build steps = .ok (m, warnings))
    (named : ∀ path, SetupStep.cwd path ∈ steps → '\x00' ∉ path.toList) : m.Located := by
  refine ⟨grounded_of_build built, ?_⟩
  obtain ⟨s, followed, started⟩ := exists_follow_of_build built
  have noNul := Setup.noNul_follow (by decide) named followed
  obtain rfl : s.start.1 = m := congrArg Prod.fst started
  rcases s.start_cwd with root | ⟨same, -⟩
  · rw [root]
    decide
  · exact same ▸ noNul

/-- What an applet gets for a buffer in the directory `path`: the path, with a NUL behind it at the
front of the buffer, or that the result does not fit. -/
def cwdResult (path : String) (buffer : Bytes) : Except Error String × Bytes :=
  let raw := Utf8.encode path
  if raw.length + 1 ≤ buffer.length then (.ok path, raw ++ 0 :: buffer.drop (raw.length + 1))
  else (.error (.host ⟨SysError.resultRange.code⟩), buffer)

/-- Into a buffer with room, `getcwd` stores the path and its NUL, or fails with `ERANGE`. -/
theorem perform_getcwd (room : buffer ≠ []) :
    m.perform (.getcwd buffer) =
      if (Utf8.encode m.cwd).length + 1 ≤ buffer.length then
        ((some (Bytes.beforeNul (Bytes.overlay buffer (Utf8.encode m.cwd ++ [0]))),
          Bytes.overlay buffer (Utf8.encode m.cwd ++ [0])), m.counted (.getcwd buffer))
      else ((none, buffer), (m.counted (.getcwd buffer)).failed .resultRange) := by
  have positive : buffer.length ≠ 0 := fun empty => room (List.length_eq_zero_iff.1 empty)
  have length : (Utf8.encode m.cwd ++ [0]).length = (Utf8.encode m.cwd).length + 1 :=
    List.length_append
  simp only [perform, respond, getcwd, length, if_neg positive]
  by_cases fits : (Utf8.encode m.cwd).length + 1 ≤ buffer.length
  · rw [if_pos fits, if_neg (Nat.not_lt.2 fits)]
    rfl
  · rw [if_neg fits, if_pos (Nat.not_le.1 fits)]
    rfl

/-- What the facade makes of it. -/
theorem outcome_getcwd (noNul : '\x00' ∉ m.cwd.toList) (room : buffer ≠ []) :
    ((Facade.hosted.getcwd buffer).run host m).outcome = .returned (cwdResult m.cwd buffer) := by
  have answer : host.answer (.getcwd buffer) m = _ := perform_getcwd room
  simp only [Facade.hosted, if_neg room]
  rw [Program.run_call_bind, answer]
  unfold cwdResult
  by_cases fits : (Utf8.encode m.cwd).length + 1 ≤ buffer.length
  · simp only [if_pos fits]
    rw [Bytes.overlay_of_length_eq (Bytes.length_overlay _ _), Bytes.overlay_append_zero fits,
      Bytes.beforeNul_append_zero (Utf8.zero_notMem_encode noNul), Utf8.decode_encode]
    rfl
  · simp only [if_neg fits]
    rw [Bytes.overlay_of_length_eq rfl]
    rfl

/-- Changing to a directory is changing the text and nothing else. -/
theorem perform_chdir {name : CString} (resolved : m.place name = .ok path)
    (directory : m.tree.isDirectory path = true) :
    m.perform (.chdir name) = ((0 : Int), { m.counted (.chdir name) with cwd := path }) := by
  obtain ⟨mode, found⟩ := Tree.isDirectory_iff.1 directory
  have changed : (m.counted (.chdir name)).chdir name =
      .ok (0, { m.counted (.chdir name) with cwd := path }) := by
    rw [chdir, show (m.counted (.chdir name)).place name = .ok path from resolved]
    simp only [bind, Except.bind]
    rw [show (m.counted (.chdir name)).tree.get? path = _ from found]
    rfl
  show (m.counted (.chdir name)).settle ((m.counted (.chdir name)).chdir name) = _
  rw [changed]
  rfl

/-- Every directory can be changed to by a normal path without NUL. -/
theorem returned_chdir (normal : Normal path) (noNul : '\x00' ∉ path.toList)
    (directory : m.tree.isDirectory path = true) :
    ((Facade.hosted.chdir path).run host m).outcome = .returned (.ok ()) ∧
      ((Facade.hosted.chdir path).run host m).state.cwd = path := by
  have answer := perform_chdir (place_hostPath normal noNul m) directory
  simp only [Facade.hosted]
  generalize Facade.hostPath path = name at answer ⊢
  rw [Program.run_call_bind, show host.answer (.chdir name) m = _ from answer]
  exact ⟨rfl, rfl⟩

/-- Asking after changing to a directory gives the path by which it was named. -/
theorem returned_getcwd_chdir (normal : Normal path) (noNul : '\x00' ∉ path.toList)
    (directory : m.tree.isDirectory path = true)
    (fits : (Utf8.encode path).length + 1 ≤ buffer.length) :
    ((Facade.hosted.getcwd buffer).run host
        ((Facade.hosted.chdir path).run host m).state).outcome =
      .returned (.ok path,
        Utf8.encode path ++ 0 :: buffer.drop ((Utf8.encode path).length + 1)) := by
  obtain ⟨-, there⟩ := returned_chdir normal noNul directory
  generalize ((Facade.hosted.chdir path).run host m).state = back at there ⊢
  subst there
  rw [outcome_getcwd noNul (List.ne_nil_of_length_pos (by omega)), cwdResult]
  exact congrArg _ (if_pos fits)

/-- The path that is given is the one the host has. -/
theorem eq_of_cwdResult {given : String} {filled : Bytes}
    (result : cwdResult path buffer = (.ok given, filled)) : given = path := by
  simp only [cwdResult] at result
  split at result
  · exact (Except.ok.inj (Prod.mk.inj result).1).symm
  · exact nomatch (Prod.mk.inj result).1

/-- **The current directory can always be returned to.** After any turns of a machine from a setup
the current directory is a directory by a normal path without NUL, and asking for it gives that path
if and only if the buffer has room for it and a NUL. A path that was once given can be changed to
after any further turns, and asking gives it again. -/
theorem cwd_stays_returnable (built : build steps = .ok (m, warnings))
    (named : ∀ path, SetupStep.cwd path ∈ steps → '\x00' ∉ path.toList) (turns : List Turn) :
    let s := m.after turns
    (Normal s.cwd ∧ '\x00' ∉ s.cwd.toList ∧ s.tree.isDirectory s.cwd = true) ∧
    (∀ buffer, buffer ≠ [] →
      ((Facade.hosted.getcwd buffer).run host s).outcome = .returned (cwdResult s.cwd buffer)) ∧
    ∀ buffer path filled,
      ((Facade.hosted.getcwd buffer).run host s).outcome = .returned (.ok path, filled) →
      ∀ later,
        let u := ((Facade.hosted.getcwd buffer).run host s).state.after later
        let back := (Facade.hosted.chdir path).run host u
        back.outcome = .returned (.ok ()) ∧
        ∀ scratch, (Utf8.encode path).length + 1 ≤ scratch.length →
          ((Facade.hosted.getcwd scratch).run host back.state).outcome =
            .returned (.ok path,
              Utf8.encode path ++ 0 :: scratch.drop ((Utf8.encode path).length + 1)) := by
  intro s
  have located : s.Located := (located_of_build built named).after turns
  refine ⟨⟨located.cwd, located.noNul, located.directory⟩,
    fun buffer => outcome_getcwd located.noNul, ?_⟩
  intro buffer path filled given later u back
  have room : buffer ≠ [] := by
    rintro rfl
    exact nomatch (Prod.mk.inj (Outcome.returned.inj given)).1
  rw [outcome_getcwd located.noNul room] at given
  obtain rfl : path = s.cwd := eq_of_cwdResult (Outcome.returned.inj given)
  have directory : u.tree.isDirectory s.cwd = true := by
    obtain ⟨asking, asked⟩ := exists_after_run (Facade.hosted.getcwd buffer) s
    simp only [u, asked, ← after_append]
    exact (s.edits_after _).isDirectory located.directory
  exact ⟨(returned_chdir located.cwd located.noNul directory).1,
    fun scratch => returned_getcwd_chdir located.cwd located.noNul directory⟩

/-- The directory is entered by a path that spells it otherwise than it is given back. -/
theorem cwd_stays_returnable_below_root :
    let turns : List Turn := [.call (.mkdir ⟨Utf8.encode "d"⟩ 0o755),
      .call (.chdir ⟨Utf8.encode ".//d/."⟩)]
    let asked := (Facade.hosted.getcwd [7, 7, 7, 7]).run host (initial.after turns)
    build [.cwd "d/.."] = .ok (initial, []) ∧
      (∀ path, SetupStep.cwd path ∈ [.cwd "d/.."] → '\x00' ∉ path.toList) ∧
      asked.outcome = .returned (.ok "/d", [47, 100, 0, 7]) ∧
      ∀ later, ((Facade.hosted.chdir "/d").run host (asked.state.after later)).outcome =
        .returned (.ok ()) := by
  intro turns asked
  have built : build [.cwd "d/.."] = .ok (initial, []) := by
    apply build_of_follow_empty
    have place : Path.resolve "/" "d/.." = some "/" := by decide
    simp [Setup.follow, Setup.step, place]
  have named : ∀ path, SetupStep.cwd path ∈ [.cwd "d/.."] → '\x00' ∉ path.toList := by
    simp
  obtain ⟨-, asking, returning⟩ := cwd_stays_returnable built named turns
  have there : (initial.after turns).cwd = "/d" := by decide
  have given := asking [7, 7, 7, 7] (by decide)
  rw [there] at given
  exact ⟨built, named, given, fun later => (returning _ _ _ given later).1⟩

end Machine

end Hostcall
