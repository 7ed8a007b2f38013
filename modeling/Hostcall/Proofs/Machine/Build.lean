import Hostcall.Machine.Setup
import Hostcall.Proofs.Machine.Turns

/-!
# Machines from a setup

A step of a setup that is no snapshot takes the tree through edits, whether it succeeds or is left
out with a warning, and it cannot fail (`exists_step`); a snapshot puts a canonical tree in the
place of the old one. A setup therefore always has a canonical tree and a normal path as current
directory (`Setup.Canonical`), and the machine that it starts is grounded (`grounded_of_build`).
Without snapshots the tree of the machine is proper and stays so over all turns
(`tree_stays_proper`).
-/

namespace Hostcall

open Hostcall.Path (Normal)
open Hostcall.Tree (Edits)

/-- Whether a step puts the tree of a snapshot in the place of the old one. -/
def SetupStep.isSnapshot : SetupStep → Bool
  | .snapshot _ => true
  | _ => false

namespace Setup

variable {s u : Setup} {steps : List SetupStep}

/-- The tree has no node by two names, and the current directory is written in the same form. -/
structure Canonical (s : Setup) : Prop where
  tree : s.tree.Canonical
  cwd : Normal s.cwd

theorem canonical_empty : ({} : Setup).Canonical :=
  ⟨Tree.proper_rootOnly.toCanonical, Path.normal_root⟩

@[simp] theorem withTree_tree (s : Setup) (what path : String)
    (made : Except SysError Unit × Tree) : (s.withTree what path made).tree = made.2 := by
  obtain ⟨result, tree⟩ := made
  cases result <;> rfl

@[simp] theorem withTree_cwd (s : Setup) (what path : String)
    (made : Except SysError Unit × Tree) : (s.withTree what path made).cwd = s.cwd := by
  obtain ⟨result, tree⟩ := made
  cases result <;> rfl

/-- Whatever a step names stands for a normal path, the root where it names nothing. -/
theorem normal_getD_resolve (path : String) : Normal ((Path.resolve "/" path).getD "/") := by
  cases h : Path.resolve "/" path with
  | none => exact Path.normal_root
  | some place => exact Path.normal_of_resolve h

/-- Only a snapshot can fail to be taken. -/
theorem exists_step (s : Setup) {step : SetupStep} (plain : step.isSnapshot = false) :
    ∃ u, s.step step = .ok u := by
  cases step with
  | snapshot text => contradiction
  | directory path =>
    simp only [Setup.step]
    split <;> exact ⟨_, rfl⟩
  | file path data =>
    simp only [Setup.step]
    split <;> exact ⟨_, rfl⟩
  | cwd path => exact ⟨_, rfl⟩
  | stdin data => exact ⟨_, rfl⟩
  | writeCap count => exact ⟨_, rfl⟩
  | stalled => exact ⟨_, rfl⟩

/-- A step makes edits, or it is a snapshot and the tree is the one that was read. -/
theorem step_cases {step : SetupStep} (canonical : s.Canonical) (h : s.step step = .ok u) :
    Normal u.cwd ∧ (Edits s.tree u.tree ∨
      ∃ text, step = .snapshot text ∧ Snapshot.read text = .ok u.tree) := by
  cases step with
  | directory path =>
    simp only [Setup.step] at h
    split at h
    · rename_i place hplace
      obtain rfl := Except.ok.inj h
      rw [withTree_cwd, withTree_tree]
      exact ⟨canonical.cwd, .inl (Tree.edits_createDirs _ _ (Path.normal_of_resolve hplace))⟩
    · exact Except.ok.inj h ▸ ⟨canonical.cwd, .inl .refl⟩
  | file path data =>
    simp only [Setup.step] at h
    split at h
    · rename_i place hplace
      obtain rfl := Except.ok.inj h
      rw [withTree_cwd, withTree_tree]
      exact ⟨canonical.cwd,
        .inl (Tree.edits_putFile canonical.tree (Path.normal_of_resolve hplace) data)⟩
    · exact Except.ok.inj h ▸ ⟨canonical.cwd, .inl .refl⟩
  | cwd path =>
    obtain rfl := Except.ok.inj h
    exact ⟨normal_getD_resolve path, .inl .refl⟩
  | stdin data =>
    obtain rfl := Except.ok.inj h
    exact ⟨canonical.cwd, .inl .refl⟩
  | writeCap count =>
    obtain rfl := Except.ok.inj h
    exact ⟨canonical.cwd, .inl .refl⟩
  | stalled =>
    obtain rfl := Except.ok.inj h
    exact ⟨canonical.cwd, .inl .refl⟩
  | snapshot text =>
    obtain ⟨tree, htree, h⟩ := ok_of_bind h
    obtain rfl := Except.ok.inj h
    exact ⟨canonical.cwd, .inr ⟨text, rfl, htree⟩⟩

/-- Whatever a snapshot says, the tree read from it is canonical. -/
theorem canonical_of_read {text : String} {t : Tree} (h : Snapshot.read text = .ok t) :
    t.Canonical := by
  unfold Snapshot.read at h
  split at h
  · exact Except.ok.inj h ▸ Tree.canonical_ofEntries _
  · contradiction

/-- Each step of the setup keeps it canonical. -/
theorem Canonical.step {step : SetupStep} (canonical : s.Canonical) (h : s.step step = .ok u) :
    u.Canonical := by
  obtain ⟨cwd, edits | ⟨text, -, hread⟩⟩ := step_cases canonical h
  · exact ⟨edits.canonical canonical.tree, cwd⟩
  · exact ⟨canonical_of_read hread, cwd⟩

/-- So do the steps together. -/
theorem Canonical.follow (canonical : s.Canonical) (h : s.follow steps = .ok u) : u.Canonical := by
  induction steps generalizing s with
  | nil => exact Except.ok.inj h ▸ canonical
  | cons step steps ih =>
    unfold Setup.follow at h
    split at h
    · rename_i next hstep
      exact ih (canonical.step hstep) h
    · contradiction

/-- Steps without a snapshot are all taken, and make edits. -/
theorem exists_follow (canonical : s.Canonical)
    (plain : ∀ step ∈ steps, step.isSnapshot = false) :
    ∃ u, s.follow steps = .ok u ∧ Edits s.tree u.tree := by
  induction steps generalizing s with
  | nil => exact ⟨s, rfl, .refl⟩
  | cons step steps ih =>
    have hplain := plain step List.mem_cons_self
    obtain ⟨next, hstep⟩ := exists_step s hplain
    obtain ⟨u, hfollow, hedits⟩ := ih (canonical.step hstep) fun other ho =>
      plain other (List.mem_cons_of_mem _ ho)
    refine ⟨u, by simp only [Setup.follow, hstep, hfollow], ?_⟩
    obtain ⟨-, edits | ⟨text, rfl, -⟩⟩ := step_cases canonical hstep
    · exact edits.trans hedits
    · contradiction

theorem start_tree (s : Setup) : s.start.1.tree = (s.tree.createDirs s.cwd).2 := by
  unfold start
  rcases s.tree.createDirs s.cwd with ⟨made, tree⟩
  cases made <;> rfl

/-- The machine starts in the root, or in the directory it was set to, which is there. -/
theorem start_cwd (s : Setup) :
    s.start.1.cwd = "/" ∨ s.start.1.cwd = s.cwd ∧ s.start.1.tree.isDirectory s.cwd = true := by
  rcases hdirs : s.tree.createDirs s.cwd with ⟨made, tree⟩
  cases made with
  | error e => simp [start, hdirs]
  | ok => simp [start, hdirs, Tree.isDirectory_of_createDirs hdirs]

/-- A machine starts in a directory of its tree. -/
theorem Canonical.start (canonical : s.Canonical) : s.start.1.Grounded := by
  have htree : s.start.1.tree.Canonical := by
    rw [start_tree]
    exact (Tree.edits_createDirs _ _ canonical.cwd).canonical canonical.tree
  rcases s.start_cwd with hcwd | ⟨hcwd, hdir⟩
  · exact ⟨htree, hcwd ▸ Path.normal_root, hcwd ▸ htree.root⟩
  · exact ⟨htree, hcwd ▸ canonical.cwd, hcwd ▸ hdir⟩

end Setup

namespace Machine

variable {m : Machine} {warnings : List LogEntry} {steps : List SetupStep}

/-- A build that succeeds has followed its steps and started. -/
theorem exists_follow_of_build (h : build steps = .ok (m, warnings)) :
    ∃ s, Setup.follow {} steps = .ok s ∧ s.start = (m, warnings) := by
  unfold build at h
  cases hs : Setup.follow {} steps with
  | error e => simp [hs, bind, Except.bind] at h
  | ok s => exact ⟨s, rfl, by simpa [hs, bind, Except.bind, pure, Except.pure] using h⟩

/-- Every machine that a setup starts is grounded, whatever snapshots it was set up from. -/
theorem grounded_of_build (h : build steps = .ok (m, warnings)) : m.Grounded := by
  obtain ⟨s, hfollow, hstart⟩ := exists_follow_of_build h
  have hgrounded := (Setup.canonical_empty.follow hfollow).start
  rwa [hstart] at hgrounded

/-- Steps that can be followed can be built. -/
theorem build_of_follow {s : Setup} (h : Setup.follow {} steps = .ok s) :
    build steps = .ok s.start := by
  simp [build, h, bind, Except.bind, pure, Except.pure]

/-- A setup that leaves everything as it is starts the machine with nothing set. -/
theorem build_of_follow_empty (h : Setup.follow {} steps = .ok {}) :
    build steps = .ok (initial, []) := by
  have root : Tree.rootOnly.createDirs "/" = (.ok (), Tree.rootOnly) :=
    Tree.createDirs_of_isDirectory (by decide)
  rw [build_of_follow h, Setup.start, root]
  rfl

/-- A setup without snapshots starts a machine, whose tree was made by edits. -/
theorem exists_build (steps : List SetupStep)
    (plain : ∀ step ∈ steps, step.isSnapshot = false) :
    ∃ m warnings, build steps = .ok (m, warnings) ∧ Edits .rootOnly m.tree := by
  obtain ⟨s, hfollow, hedits⟩ := Setup.exists_follow Setup.canonical_empty plain
  have hcwd := (Setup.canonical_empty.follow hfollow).cwd
  have hstart : Edits s.tree s.start.1.tree := by
    rw [Setup.start_tree]
    exact Tree.edits_createDirs s.tree s.cwd hcwd
  exact ⟨s.start.1, s.start.2, build_of_follow hfollow, hedits.trans hstart⟩

/-- Without a snapshot, what is built is proper. -/
theorem proper_of_build (plain : ∀ step ∈ steps, step.isSnapshot = false)
    (h : build steps = .ok (m, warnings)) : m.tree.Proper := by
  obtain ⟨started, said, hbuild, hedits⟩ := exists_build steps plain
  obtain ⟨rfl, -⟩ := Prod.mk.inj (Except.ok.inj (hbuild.symm.trans h))
  exact hedits.proper Tree.proper_rootOnly

/-- **The tree stays a tree.** A setup without snapshots starts a machine, and the tree of the
machine is proper after any turns; its files have nothing below them. -/
theorem tree_stays_proper (steps : List SetupStep)
    (plain : ∀ step ∈ steps, step.isSnapshot = false) :
    ∃ m warnings, build steps = .ok (m, warnings) ∧ ∀ turns, (m.after turns).tree.Proper ∧
      ∀ path data mode, (m.after turns).tree.get? path = some (.file data mode) →
        ∀ q, (m.after turns).tree.contains q → Path.parent? q ≠ some path := by
  obtain ⟨m, warnings, hbuild, hedits⟩ := exists_build steps plain
  refine ⟨m, warnings, hbuild, ?_⟩
  intro turns
  have hedits : Edits .rootOnly (m.after turns).tree := hedits.trans (m.edits_after turns)
  have hproper : (m.after turns).tree.Proper := hedits.proper Tree.proper_rootOnly
  constructor
  · exact hproper
  · intro path data mode hfile q hq
    exact hproper.parent?_ne_of_file hfile hq

/-- The steps that fail here are left out: a file is no directory, and the root is no file. -/
theorem tree_stays_proper_with_failing_steps :
    ∃ m warnings, build [.file "/a" [1], .directory "/a/b", .file "/" [], .cwd "a/c"] =
        .ok (m, warnings) ∧
      ∀ turns, (m.after turns).tree.Proper ∧
        ∀ path data mode, (m.after turns).tree.get? path = some (.file data mode) →
          ∀ q, (m.after turns).tree.contains q → Path.parent? q ≠ some path :=
  tree_stays_proper [.file "/a" [1], .directory "/a/b", .file "/" [], .cwd "a/c"] (by decide)

end Machine

end Hostcall
