import Hostcall.Proofs.Machine.Failure
import Hostcall.Proofs.Machine.Removed

/-!
# What a call does to the places of a tree

A call without effect leaves the tree alone. A call that takes effect concerns the node at one path
at most: a write the file of its descriptor, and a call that opens, makes a directory or removes the
place that its name resolves to (`Treats`). No call takes a directory away or changes the kind or
the mode of what is there, so a node keeps both until it is removed (`node_after`).
-/

namespace Hostcall

/-- Whether a call that takes effect has found, added or removed the node at the place it names. -/
def Request.handlesPlace : Request → Bool
  | .openFile .. => true
  | .mkdir .. => true
  | .unlink .. => true
  | _ => false

namespace Machine

variable {m n : Machine} {path : String} {request : Request} {node : Node} {turn : Turn}
  {turns : List Turn}

/-- Whether a name from the host's side leads to a place. -/
def leads (m : Machine) (name : CString) (path : String) : Bool :=
  m.resolve (Utf8.decode name.hostView) == some path

/-- A name leads to the place it is resolved to. -/
theorem leads_iff {name : CString} : m.leads name path = true ↔ m.place name = .ok path := by
  rw [place_eq_ok_iff, leads, beq_iff_eq]

/-- How a call that takes effect treats the node at one path: what it finds there and what it leaves. -/
inductive Treats (m : Machine) : Request → String → Option Node → Option Node → Prop where
  | written {fd : Fd} {data : Bytes} {path : String} {position : Nat} {flags : OpenFlags}
      (entry : m.entry? fd = some (.file path position flags)) (old new : Contents) (mode : Mode) :
      Treats m (.write fd data) path (some (.file old mode)) (some (.file new mode))
  | found {name : CString} {flags : OpenFlags} {asked : Mode} {path : String}
      (resolved : m.place name = .ok path) (keeps : (flags.truncates && flags.writes) = false)
      (data : Contents) (mode : Mode) :
      Treats m (.openFile name flags asked) path (some (.file data mode)) (some (.file data mode))
  | emptied {name : CString} {flags : OpenFlags} {asked : Mode} {path : String}
      (resolved : m.place name = .ok path) (truncates : flags.truncates = true)
      (writes : flags.writes = true) (data : Contents) (mode : Mode) :
      Treats m (.openFile name flags asked) path (some (.file data mode)) (some (.file .empty mode))
  | created {name : CString} {flags : OpenFlags} {asked : Mode} {path : String}
      (resolved : m.place name = .ok path) (creates : flags.creates = true) :
      Treats m (.openFile name flags asked) path none (some (.file .empty asked))
  | made {name : CString} {asked : Mode} {path : String} (resolved : m.place name = .ok path) :
      Treats m (.mkdir name asked) path none (some (.directory asked))
  | removed {name : CString} {path : String} (resolved : m.place name = .ok path)
      (data : Contents) (mode : Mode) :
      Treats m (.unlink name) path (some (.file data mode)) none

/-- Whether a turn is a call that removes the file at a place. -/
def removes (path : String) (m : Machine) : Turn → Bool
  | .call (.unlink name) => m.leads name path && decide (0 ≤ (m.perform (.unlink name)).1)
  | _ => false

/-- A node that is put in the place of another, or where there was none, leaves all others alone. -/
theorem treats_of_put {before : Option Node} (treats : m.Treats request path before (some node))
    (was : m.tree.get? path = before) (put : n.tree = m.tree.put path node) :
    ∃ path, m.Treats request path (m.tree.get? path) (n.tree.get? path) ∧
      ∀ q, q ≠ path → n.tree.get? q = m.tree.get? q := by
  rw [put]
  refine ⟨path, ?_, ?_⟩
  · rw [was, Tree.get?_put, if_pos rfl]
    exact treats
  · intro q different
    rw [Tree.get?_put, if_neg (Ne.symm different)]

/-- A count treats nothing otherwise. -/
theorem Treats.of_counted {counted : Request} {before after : Option Node}
    (h : (m.counted counted).Treats request path before after) :
    m.Treats request path before after := by
  cases h with
  | written entry old new mode => exact .written (m := m) entry old new mode
  | found resolved keeps data mode => exact .found (m := m) resolved keeps data mode
  | emptied resolved truncates writes data mode =>
    exact .emptied (m := m) resolved truncates writes data mode
  | created resolved creates => exact .created (m := m) resolved creates
  | made resolved => exact .made (m := m) resolved
  | removed resolved data mode => exact .removed (m := m) resolved data mode

/-- A call that takes effect treats the node at one path, or it handles no place and changes nothing. -/
theorem Succeeded.treats {reply : request.Reply} (h : Succeeded m request reply n) :
    (∃ path, m.Treats request path (m.tree.get? path) (n.tree.get? path) ∧
      ∀ q, q ≠ path → n.tree.get? q = m.tree.get? q) ∨
    request.handlesPlace = false ∧ n.tree = m.tree := by
  cases h with
  | write wrote =>
    cases wrote with
    | stalled => exact .inr ⟨rfl, rfl⟩
    | stdout => exact .inr ⟨rfl, rfl⟩
    | stderr => exact .inr ⟨rfl, rfl⟩
    | file entry runs writes written =>
      obtain ⟨old, mode, file, -, rfl⟩ := Tree.writeAt_eq_ok written
      exact .inl (treats_of_put (.written entry old _ mode) file rfl)
  | read read => cases read <;> exact .inr ⟨rfl, rfl⟩
  | @openFile name flags asked place tree access resolved opened =>
    rcases openTree_cases opened with ⟨data, mode, file, -, rfl⟩ | ⟨absent, creates, created⟩
    · split
      · rename_i empties
        obtain ⟨truncates, writes⟩ := Bool.and_eq_true_iff.1 empties
        exact .inl (treats_of_put (.emptied resolved truncates writes data mode) file rfl)
      · rename_i keeps
        refine .inl ⟨place, ?_, fun _ _ => rfl⟩
        rw [file]
        exact .found resolved (Bool.eq_false_iff.2 keeps) data mode
    · obtain ⟨-, -, rfl⟩ := Tree.createUnder_eq_ok created
      exact .inl (treats_of_put (.created resolved creates) absent rfl)
  | mkdir resolved created =>
    obtain ⟨absent, -, rfl⟩ := Tree.createUnder_eq_ok created
    exact .inl (treats_of_put (.made resolved) (Tree.contains_eq_false_iff.1 absent) rfl)
  | @unlink name place tree resolved removed =>
    obtain ⟨data, mode, file, rfl⟩ := Tree.remove_eq_ok removed
    refine .inl ⟨place, ?_, ?_⟩
    · rw [Tree.get?_drop, if_pos rfl, file]
      exact .removed resolved data mode
    · intro q different
      rw [Tree.get?_drop, if_neg (Ne.symm different)]
  | close => exact .inr ⟨rfl, rfl⟩
  | chdir => exact .inr ⟨rfl, rfl⟩
  | getcwd => exact .inr ⟨rfl, rfl⟩
  | lseek => exact .inr ⟨rfl, rfl⟩
  | errno => exact .inr ⟨rfl, rfl⟩
  | strerror => exact .inr ⟨rfl, rfl⟩
  | sleep => exact .inr ⟨rfl, later_tree m _⟩
  | usleep => exact .inr ⟨rfl, later_tree m _⟩

/-- A call without effect leaves the tree alone, and any other treats the node at one path. -/
theorem perform_treats (m : Machine) (request : Request) :
    (¬ m.TakesEffect request ∧ (m.perform request).2.tree = m.tree) ∨
    (m.TakesEffect request ∧
      ((∃ path,
        m.Treats request path (m.tree.get? path) ((m.perform request).2.tree.get? path) ∧
          ∀ q, q ≠ path → (m.perform request).2.tree.get? q = m.tree.get? q) ∨
        request.handlesPlace = false ∧ (m.perform request).2.tree = m.tree)) := by
  rcases m.takesEffect_cases request with ⟨none, -, -, e, failed⟩ | ⟨effect, succeeded⟩
  · rw [failed]
    exact .inl ⟨none, rfl⟩
  · refine .inr ⟨effect, ?_⟩
    rcases succeeded.treats with ⟨path, treats, others⟩ | untouched
    · exact .inl ⟨path, treats.of_counted, others⟩
    · exact .inr untouched

/-- A node that a call treats keeps its kind and its mode, unless the call removes it; and it is no
directory. -/
theorem Treats.keeps {after : Option Node} (h : m.Treats request path (some node) after) :
    node.isDirectory = false ∧
      ((∃ later, after = some later ∧ later.isDirectory = node.isDirectory ∧
        later.mode = node.mode) ∨
      ∃ name, request = .unlink name ∧ m.place name = .ok path) := by
  cases h with
  | written entry old new mode => exact ⟨rfl, .inl ⟨_, rfl, rfl, rfl⟩⟩
  | found resolved keeps data mode => exact ⟨rfl, .inl ⟨_, rfl, rfl, rfl⟩⟩
  | emptied resolved truncates writes data mode => exact ⟨rfl, .inl ⟨_, rfl, rfl, rfl⟩⟩
  | removed resolved data mode => exact ⟨rfl, .inr ⟨_, rfl, resolved⟩⟩

/-- A node is there after a turn, of the same kind and with the same mode, unless it is a file that
the turn removes. -/
theorem node_turn (there : m.tree.get? path = some node)
    (kept : node.isDirectory = true ∨ m.removes path turn = false) :
    ∃ later, (m.turn turn).tree.get? path = some later ∧
      later.isDirectory = node.isDirectory ∧ later.mode = node.mode := by
  have unchanged (same : (m.turn turn).tree.get? path = m.tree.get? path) :
      ∃ later, (m.turn turn).tree.get? path = some later ∧
        later.isDirectory = node.isDirectory ∧ later.mode = node.mode :=
    ⟨node, same.trans there, rfl, rfl⟩
  cases turn with
  | call request =>
    rcases m.perform_treats request with
      ⟨-, same⟩ | ⟨effect, ⟨place, treats, others⟩ | ⟨-, same⟩⟩
    · exact unchanged (congrArg (Tree.get? · path) same)
    · by_cases here : path = place
      · subst here
        rw [there] at treats
        obtain ⟨file, keeps | ⟨name, rfl, resolved⟩⟩ := treats.keeps
        · exact keeps
        · -- The call removes the file, which neither case of the hypothesis allows.
          rcases kept with directory | stays
          · rw [file] at directory
            contradiction
          · have done : 0 ≤ (m.perform (.unlink name)).1 := Int.not_lt.1 (effect.not_fails trivial)
            simp [removes, leads_iff.2 resolved, done] at stays
      · exact unchanged (others path here)
    · exact unchanged (congrArg (Tree.get? · path) same)
  | stop => exact unchanged rfl
  | resetCalls => exact unchanged rfl
  | takeStdout => exact unchanged rfl
  | takeStderr => exact unchanged rfl

/-- A node keeps its kind and its mode as long as it is not removed, and a directory is never
removed. -/
theorem node_after (there : m.tree.get? path = some node)
    (kept : node.isDirectory = true ∨ m.tally (removes path) turns = 0) :
    ∃ later, (m.after turns).tree.get? path = some later ∧
      later.isDirectory = node.isDirectory ∧ later.mode = node.mode := by
  induction turns generalizing m node with
  | nil => exact ⟨node, there, rfl, rfl⟩
  | cons turn turns ih =>
    have first : node.isDirectory = true ∨ m.removes path turn = false :=
      kept.imp_right fun none => (tally_cons_eq_zero.1 none).1
    obtain ⟨next, nextThere, kind, mode⟩ := node_turn there first
    have rest : next.isDirectory = true ∨ (m.turn turn).tally (removes path) turns = 0 :=
      kept.imp kind.trans fun none => (tally_cons_eq_zero.1 none).2
    obtain ⟨later, laterThere, kind', mode'⟩ := ih nextThere rest
    exact ⟨later, laterThere, kind'.trans kind, mode'.trans mode⟩

/-- **A call touches no node but the one that it names, and kinds and modes are stable.** A call
without effect changes no node; any other treats one path at most, and always one if it opens, makes
a directory or removes. Where the number of a new descriptor fits, the calls with an effect are
those that do not fail. Over any turns a directory stays, and whatever is at a path keeps its kind
and its mode until it is removed. -/
theorem call_touches_named_node (m : Machine) :
    (∀ request : Request,
      (¬ m.TakesEffect request → (m.perform request).2.tree = m.tree) ∧
      (m.TakesEffect request →
        (∃ path,
          m.Treats request path (m.tree.get? path) ((m.perform request).2.tree.get? path) ∧
            ∀ q, q ≠ path → (m.perform request).2.tree.get? q = m.tree.get? q) ∨
        request.handlesPlace = false ∧ (m.perform request).2.tree = m.tree) ∧
      (m.Numbered request → (m.TakesEffect request ↔ ¬ request.Fails (m.perform request).1))) ∧
    ∀ path node, m.tree.get? path = some node → ∀ turns,
      node.isDirectory = true ∨ m.tally (removes path) turns = 0 →
        ∃ later, (m.after turns).tree.get? path = some later ∧
          later.isDirectory = node.isDirectory ∧ later.mode = node.mode := by
  refine ⟨?_, fun path node there turns kept => node_after there kept⟩
  intro request
  rcases m.perform_treats request with ⟨none, same⟩ | ⟨effect, treated⟩
  · exact ⟨fun _ => same, fun effect => absurd effect none, takesEffect_iff⟩
  · exact ⟨fun none => absurd effect none, fun _ => treated, takesEffect_iff⟩

end Machine

end Hostcall
