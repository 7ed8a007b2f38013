import Hostcall.Proofs.Machine.Build
import Hostcall.Proofs.Snapshot.RoundTrip

/-!
# Snapshots of machines

However a machine was set up, from snapshots or not, and whatever was done with it since, its
snapshot brings its tree back, node for node (`snapshot_brings_back`): its tree is canonical, and
canonical trees are read back. A machine set up from the snapshot in the same current directory
answers every question about paths alike.
-/

namespace Hostcall.Machine

variable {m n : Machine} {warnings : List LogEntry} {steps : List SetupStep}

/-- Loading what was rendered sets the tree it was rendered from. -/
theorem step_render (h : n.tree.Canonical) (s : Setup) :
    s.step (.snapshot (Snapshot.render n.tree)) = .ok { s with tree := n.tree } := by
  simp only [Setup.step, Snapshot.read_render h, bind, Except.bind, pure, Except.pure]

/-- A machine set up from the snapshot of another one has its tree and its current directory. -/
theorem Grounded.build_render (h : n.Grounded) :
    ∃ again, build [.snapshot (Snapshot.render n.tree), .cwd n.cwd] = .ok (again, []) ∧
      again.tree = n.tree ∧ again.cwd = n.cwd := by
  let s : Setup := { tree := n.tree, cwd := n.cwd }
  have hcwd : ({ tree := n.tree } : Setup).step (.cwd n.cwd) = .ok s := by
    simp only [Setup.step, Path.resolve_of_normal h.cwd, Option.getD_some, s]
  have hfollow : Setup.follow {} [.snapshot (Snapshot.render n.tree), .cwd n.cwd] = .ok s := by
    simp only [Setup.follow, step_render h.tree, hcwd]
  have hdirs : n.tree.createDirs n.cwd = (.ok (), n.tree) :=
    Tree.createDirs_of_isDirectory h.directory
  have hlog : s.start.2 = [] := by simp only [Setup.start, s, hdirs]
  refine ⟨s.start.1, (build_of_follow hfollow).trans (congrArg Except.ok (Prod.ext rfl hlog)), ?_⟩
  simp only [Setup.start, s, hdirs, and_self]

/-- **A snapshot brings the tree back.** The text is read, and taken by a setup, as the very tree it
was made from, and the machine set up from it finds the same files and modes by the same paths. -/
theorem snapshot_brings_back (h : build steps = .ok (m, warnings)) (turns : List Turn) :
    Snapshot.read (Snapshot.render (m.after turns).tree) = .ok (m.after turns).tree ∧
    (∀ s : Setup, s.step (.snapshot (Snapshot.render (m.after turns).tree)) =
      .ok { s with tree := (m.after turns).tree }) ∧
    ∃ again, build [.snapshot (Snapshot.render (m.after turns).tree), .cwd (m.after turns).cwd] =
        .ok (again, []) ∧
      Snapshot.render again.tree = Snapshot.render (m.after turns).tree ∧
      ∀ path, again.contents? path = (m.after turns).contents? path ∧
        again.leadsTo path = (m.after turns).leadsTo path ∧
        again.mode? path = (m.after turns).mode? path := by
  have grounded := (grounded_of_build h).after turns
  obtain ⟨again, hbuild, htree, hcwd⟩ := grounded.build_render
  refine ⟨Snapshot.read_render grounded.tree, step_render grounded.tree, again, hbuild, ?_, ?_⟩
  · rw [htree]
  · intro path
    simp only [contents?, leadsTo, mode?, resolve, htree, hcwd, and_self]

/-- A name may hold quotes, backslashes and control characters. -/
theorem snapshot_brings_back_odd_name :
    ∃ m warnings, build [.file "/\"\\\x00\n" [0, 255], .cwd "/d"] = .ok (m, warnings) ∧
      Snapshot.read (Snapshot.render (m.after [.call (.unlink ⟨[47]⟩)]).tree) =
        .ok (m.after [.call (.unlink ⟨[47]⟩)]).tree := by
  obtain ⟨m, warnings, h, -⟩ := exists_build [.file "/\"\\\x00\n" [0, 255], .cwd "/d"] (by decide)
  exact ⟨m, warnings, h, (snapshot_brings_back h [.call (.unlink ⟨[47]⟩)]).1⟩

end Hostcall.Machine
