import Hostcall.Program
import Hostcall.Proofs.Machine.Respond
import Hostcall.Proofs.Tree.Operations

/-!
# Machines turn by turn

A turn is anything that is done with a machine once it is there: a call with any arguments, a call
that ends an applet, and what the owner of the machine does between applets. Only a call that
succeeds changes more than records (`turn_cases`). A turn takes the tree through edits and nothing
else (`edits_turn`), and moves the current directory to a directory only; so does any sequence of
turns (`edits_after`), and a machine stays grounded (`Grounded.after`). What a program leaves behind
is the machine after some turns (`exists_after_runUpTo`).
-/

namespace Hostcall

/-- One thing that is done with a machine. -/
inductive Turn where
  | call (request : Request)
  | stop (reason : Stop)
  | resetCalls
  | takeStdout
  | takeStderr

namespace Machine

open Hostcall.Path (Normal)
open Hostcall.Tree (Edits)

variable {m n : Machine} {path : String}

/-- The machine after one turn. -/
def turn (m : Machine) : Turn → Machine
  | .call request => (host.answer request m).2
  | .stop reason => host.stop reason m
  | .resetCalls => m.resetCalls
  | .takeStdout => m.takeStdout.2
  | .takeStderr => m.takeStderr.2

/-- The machine after some turns. -/
def after (m : Machine) (turns : List Turn) : Machine := turns.foldl turn m

/-- One machine has the tree, the descriptors, the current directory and the input of another. -/
structure Keeps (m n : Machine) : Prop where
  tree : n.tree = m.tree
  files : n.files = m.files
  cwd : n.cwd = m.cwd
  stdin : n.stdin = m.stdin
  stdinPosition : n.stdinPosition = m.stdinPosition

/-- The current directory is a place in the tree, and the tree has no node by two names. -/
structure Grounded (m : Machine) : Prop where
  tree : m.tree.Canonical
  cwd : Normal m.cwd
  directory : m.tree.isDirectory m.cwd

/-- A turn is a call that succeeds, or it changes at most the register, the counts and the
outputs. -/
theorem turn_cases (m : Machine) (turn : Turn) :
    (∃ request reply, Succeeded (m.counted request) request reply (m.turn turn)) ∨
      m.Keeps (m.turn turn) := by
  cases turn with
  | call request =>
    rcases m.perform_cases request with ⟨e, he⟩ | succeeded
    · exact .inr (show m.Keeps (m.perform request).2 from he ▸ ⟨rfl, rfl, rfl, rfl, rfl⟩)
    · exact .inl ⟨request, _, succeeded⟩
  | stop => exact .inr ⟨rfl, rfl, rfl, rfl, rfl⟩
  | resetCalls => exact .inr ⟨rfl, rfl, rfl, rfl, rfl⟩
  | takeStdout => exact .inr ⟨rfl, rfl, rfl, rfl, rfl⟩
  | takeStderr => exact .inr ⟨rfl, rfl, rfl, rfl, rfl⟩

/-- The place of a name is what its text resolves to. -/
theorem place_eq_ok_iff {name : CString} :
    m.place name = .ok path ↔ m.resolve (Utf8.decode name.hostView) = some path := by
  unfold place
  cases m.resolve (Utf8.decode name.hostView) <;> simp

/-- Places are normal paths. -/
theorem normal_of_place {path : CString} {place : String} (h : m.place path = .ok place) :
    Normal place :=
  Path.normal_of_resolve (place_eq_ok_iff.1 h)

/-- Opening finds a file, which it empties or leaves as it is, or it adds an empty one where there
is nothing. -/
theorem openTree_cases {flags : OpenFlags} {mode : Mode} {tree : Tree}
    (opened : m.openTree path flags mode = .ok tree) :
    (∃ data bits, m.tree.get? path = some (.file data bits) ∧
      (flags.creates && flags.excludes) = false ∧
      tree = if flags.truncates && flags.writes then m.tree.put path (.file .empty bits)
        else m.tree) ∨
    m.tree.get? path = none ∧ flags.creates = true ∧ m.tree.createFile path mode = .ok tree := by
  unfold openTree at opened
  split at opened
  · contradiction
  · rename_i data bits file
    split at opened
    · contradiction
    rename_i shared
    refine .inl ⟨data, bits, file, Bool.eq_false_iff.2 shared, ?_⟩
    split at opened
    · rename_i empties
      obtain ⟨data', bits', file', rfl⟩ := Tree.truncate_eq_ok opened
      obtain ⟨-, rfl⟩ := Node.file.inj (Option.some.inj (file.symm.trans file'))
      rw [if_pos empties]
    · rename_i keeps
      rw [if_neg keeps]
      exact (Except.ok.inj opened).symm
  · rename_i absent
    split at opened
    · rename_i creates
      exact .inr ⟨absent, creates, opened⟩
    · contradiction

/-- Opening what is not there, with the flag to create it, creates it. -/
theorem openTree_of_absent {flags : OpenFlags} {mode : Mode} (absent : m.tree.get? path = none)
    (creates : flags.creates = true) :
    m.openTree path flags mode = m.tree.createFile path mode := by
  simp [openTree, absent, creates]

/-- Under a directory an empty file is added where there is nothing. -/
theorem openTree_of_above {flags : OpenFlags} {mode bits : Mode} {parent : String}
    (absent : m.tree.get? path = none) (creates : flags.creates = true)
    (above : Path.parent? path = some parent)
    (directory : m.tree.get? parent = some (.directory bits)) :
    m.openTree path flags mode = .ok (m.tree.put path (.file .empty mode)) := by
  rw [openTree_of_absent absent creates, Tree.createFile, Tree.create, Tree.createUnder, above,
    Tree.contains_eq_false_iff.2 absent, Option.bind_some, directory]
  rfl

/-- Opening edits the tree as its operations do. -/
theorem edits_of_openTree {flags : OpenFlags} {mode : Mode} {tree : Tree} (normal : Normal path)
    (h : m.openTree path flags mode = .ok tree) : Edits m.tree tree := by
  rcases openTree_cases h with ⟨data, bits, file, -, rfl⟩ | ⟨-, -, created⟩
  · split
    · exact .single (.rewrite .empty file)
    · exact .refl
  · exact .single (Tree.edit_of_create normal created)

/-- So does every call that succeeds. -/
theorem Succeeded.edits {request : Request} {reply : request.Reply}
    (h : Succeeded m request reply n) : Edits m.tree n.tree := by
  cases h with
  | write wrote =>
    cases wrote with
    | stalled => exact .refl
    | stdout => exact .refl
    | stderr => exact .refl
    | file entry runs writes written => exact .single (Tree.edit_of_writeAt written)
  | read read => cases read <;> exact .refl
  | openFile access resolved opened => exact edits_of_openTree (normal_of_place resolved) opened
  | close => exact .refl
  | unlink resolved removed => exact .single (Tree.edit_of_remove removed)
  | mkdir resolved created => exact .single (Tree.edit_of_create (normal_of_place resolved) created)
  | chdir => exact .refl
  | getcwd => exact .refl
  | lseek => exact .refl
  | errno => exact .refl
  | strerror => exact .refl
  | sleep => rw [later_tree]
  | usleep => rw [later_tree]

/-- The current directory is left only for another one that a path names. -/
theorem Succeeded.cwd {request : Request} {reply : request.Reply}
    (h : Succeeded m request reply n) :
    n.cwd = m.cwd ∨ n.tree.isDirectory n.cwd = true ∧ ∃ name, m.place name = .ok n.cwd := by
  cases h with
  | chdir resolved directory =>
    exact .inr ⟨Tree.isDirectory_iff.2 ⟨_, directory⟩, _, resolved⟩
  | write wrote => cases wrote <;> exact .inl rfl
  | read read => cases read <;> exact .inl rfl
  | openFile => exact .inl rfl
  | close => exact .inl rfl
  | unlink => exact .inl rfl
  | mkdir => exact .inl rfl
  | getcwd => exact .inl rfl
  | lseek => exact .inl rfl
  | errno => exact .inl rfl
  | strerror => exact .inl rfl
  | sleep seconds => exact .inl (later_cwd m _)
  | usleep => exact .inl (later_cwd m _)

/-- So does a turn. -/
theorem edits_turn (m : Machine) (turn : Turn) : Edits m.tree (m.turn turn).tree := by
  rcases m.turn_cases turn with ⟨request, reply, succeeded⟩ | kept
  · exact succeeded.edits
  · exact kept.tree.symm ▸ .refl

/-- A turn keeps the program in a directory of the tree. -/
theorem Grounded.turn (h : m.Grounded) (turn : Turn) : (m.turn turn).Grounded := by
  have edits := m.edits_turn turn
  have tree := edits.canonical h.tree
  have stays (hcwd : (m.turn turn).cwd = m.cwd) : (m.turn turn).Grounded :=
    ⟨tree, hcwd.symm ▸ h.cwd, hcwd.symm ▸ edits.isDirectory h.directory⟩
  rcases m.turn_cases turn with ⟨request, reply, succeeded⟩ | kept
  · rcases succeeded.cwd with hcwd | ⟨directory, name, resolved⟩
    · exact stays hcwd
    · exact ⟨tree, normal_of_place resolved, directory⟩
  · exact stays kept.cwd

@[simp] theorem after_nil (m : Machine) : m.after [] = m := rfl

@[simp] theorem after_cons (m : Machine) (turn : Turn) (turns : List Turn) :
    m.after (turn :: turns) = (m.turn turn).after turns := rfl

theorem after_append (m : Machine) (before later : List Turn) :
    m.after (before ++ later) = (m.after before).after later := by
  simp only [after, List.foldl_append]

/-- How often something happens in turns, by the machine before each of them. -/
def tally (happens : Machine → Turn → Bool) (m : Machine) : List Turn → Nat
  | [] => 0
  | turn :: turns => (happens m turn).toNat + tally happens (m.turn turn) turns

/-- What never happens in a run does not happen in its first turn nor after it. -/
theorem tally_cons_eq_zero {happens : Machine → Turn → Bool} {turn : Turn} {turns : List Turn} :
    m.tally happens (turn :: turns) = 0 ↔
      happens m turn = false ∧ (m.turn turn).tally happens turns = 0 := by
  rw [tally, Nat.add_eq_zero_iff, Bool.toNat_eq_zero]

theorem tally_append (happens : Machine → Turn → Bool) (m : Machine) (before later : List Turn) :
    m.tally happens (before ++ later) =
      m.tally happens before + (m.after before).tally happens later := by
  induction before generalizing m with
  | nil => exact (Nat.zero_add _).symm
  | cons turn before ih => rw [List.cons_append, tally, ih, tally, Nat.add_assoc, after_cons]

/-- What every turn keeps holds after any turns. -/
theorem after_of_turn {P : Machine → Prop} (kept : ∀ m turn, P m → P (m.turn turn)) (h : P m)
    (turns : List Turn) : P (m.after turns) := by
  induction turns generalizing m with
  | nil => exact h
  | cons turn turns ih => exact ih (kept m turn h)

/-- A run edits the tree edit by edit. -/
theorem edits_after (m : Machine) (turns : List Turn) : Edits m.tree (m.after turns).tree :=
  after_of_turn (P := fun n => Edits m.tree n.tree)
    (fun n turn edits => edits.trans (n.edits_turn turn)) .refl turns

/-- A run keeps the program in a directory of the tree. -/
theorem Grounded.after (h : m.Grounded) (turns : List Turn) : (m.after turns).Grounded :=
  after_of_turn (fun _ turn h => h.turn turn) h turns

/-- However a program ends, and wherever its calls break off, it has taken the machine through turns
only. -/
theorem exists_after_runUpTo {α : Type} (breaks : Request → Machine → Bool) (p : Program α)
    (m : Machine) : ∃ turns, (p.runUpTo breaks host m).state = m.after turns := by
  induction p generalizing m with
  | done a => exact ⟨[], rfl⟩
  | ask request next ih =>
    rw [Program.runUpTo]
    split
    · exact ⟨[.call request], rfl⟩
    · obtain ⟨turns, hturns⟩ := ih (host.answer request m).1 (host.answer request m).2
      exact ⟨.call request :: turns, hturns⟩
  | note entry next ih => exact ih m
  | stop reason => exact ⟨[.stop reason], rfl⟩
  | crash cause => exact ⟨[], rfl⟩

/-- Whatever a program does to a machine is a series of turns. -/
theorem exists_after_run {α : Type} (p : Program α) (m : Machine) :
    ∃ turns, (p.run host m).state = m.after turns := by
  rw [← Program.runUpTo_never]
  exact exists_after_runUpTo _ p m

end Machine

end Hostcall
