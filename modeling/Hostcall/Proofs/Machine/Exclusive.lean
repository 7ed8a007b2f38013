import Hostcall.Proofs.Machine.Places

/-!
# Exclusive creation

A file that is opened with the flags to create it and to open none that is there is new: there was
nothing at its place before (`absent_of_createsExclusively`). Whatever is at a place stays there
until it is removed, so between two removals one such call succeeds at most, whatever names and
current directories the calls use (`exclusive_creation_once`).
-/

namespace Hostcall.Machine

variable {m : Machine} {path : String} {node : Node} {turns : List Turn}

/-- Whether a turn is a call that creates the file at a place and would not have opened one that was
there. -/
def createsExclusively (path : String) (m : Machine) : Turn → Bool
  | .call (.openFile name flags mode) =>
    flags.creates && flags.excludes && m.leads name path &&
      decide (0 ≤ (m.perform (.openFile name flags mode)).1)
  | _ => false

/-- A turn that creates exclusively is an open with both flags that was answered with a number. -/
theorem exists_of_createsExclusively {turn : Turn} (h : m.createsExclusively path turn = true) :
    ∃ name flags mode, turn = .call (.openFile name flags mode) ∧ flags.creates = true ∧
      flags.excludes = true ∧ m.place name = .ok path ∧
      0 ≤ (m.perform (.openFile name flags mode)).1 := by
  unfold createsExclusively at h
  split at h
  · rename_i name flags mode
    simp only [Bool.and_eq_true, decide_eq_true_eq] at h
    obtain ⟨⟨⟨creates, excludes⟩, leads⟩, done⟩ := h
    exact ⟨name, flags, mode, rfl, creates, excludes, leads_iff.1 leads, done⟩
  · contradiction

/-- An exclusive open finds nothing at its path and makes an empty file. -/
theorem openTree_exclusive {flags : OpenFlags} {mode : Mode} {tree : Tree}
    (creates : flags.creates = true) (excludes : flags.excludes = true)
    (opened : m.openTree path flags mode = .ok tree) :
    m.tree.get? path = none ∧ tree = m.tree.put path (.file .empty mode) := by
  rcases openTree_cases opened with ⟨data, bits, -, shared, -⟩ | ⟨absent, -, created⟩
  · rw [creates, excludes] at shared
    contradiction
  · exact ⟨absent, (Tree.createUnder_eq_ok created).2.2⟩

theorem perform_exclusive {name : CString} {flags : OpenFlags} {mode : Mode}
    (creates : flags.creates = true) (excludes : flags.excludes = true)
    (resolved : m.place name = .ok path)
    (done : 0 ≤ (m.perform (.openFile name flags mode)).1) :
    m.tree.get? path = none ∧
      (m.perform (.openFile name flags mode)).2.tree = m.tree.put path (.file .empty mode) := by
  rcases m.perform_openFile_cases name flags mode with
    ⟨e, answer⟩ | ⟨place, tree, resolved', opened, answer⟩
  · rw [answer] at done
    contradiction
  · obtain rfl : path = place := Except.ok.inj (resolved.symm.trans resolved')
    obtain ⟨absent, rfl⟩ := openTree_exclusive creates excludes opened
    rw [answer]
    exact ⟨absent, rfl⟩

/-- There was nothing at the place, and then there is an empty file with the mode asked for. -/
theorem absent_of_createsExclusively {name : CString} {flags : OpenFlags} {mode : Mode}
    (h : m.createsExclusively path (.call (.openFile name flags mode)) = true) :
    m.tree.get? path = none ∧
      (m.perform (.openFile name flags mode)).2.tree.get? path = some (.file .empty mode) := by
  obtain ⟨_, _, _, same, creates, excludes, resolved, done⟩ := exists_of_createsExclusively h
  cases same
  obtain ⟨absent, put⟩ := perform_exclusive creates excludes resolved done
  refine ⟨absent, ?_⟩
  rw [put, Tree.get?_put, if_pos rfl]

/-- Where there is something, nothing is created until it is removed. -/
theorem tally_createsExclusively_of_present (there : m.tree.get? path = some node)
    (kept : m.tally (removes path) turns = 0) :
    m.tally (createsExclusively path) turns = 0 := by
  induction turns generalizing m node with
  | nil => rfl
  | cons turn turns ih =>
    obtain ⟨first, rest⟩ := tally_cons_eq_zero.1 kept
    obtain ⟨later, thereLater, -⟩ := node_turn there (.inr first)
    refine tally_cons_eq_zero.2 ⟨?_, ih thereLater rest⟩
    apply Bool.eq_false_iff.2
    intro creates
    obtain ⟨_, _, _, rfl, -⟩ := exists_of_createsExclusively creates
    rw [(absent_of_createsExclusively creates).1] at there
    contradiction

/-- Without a removal in between, one of them succeeds at most. -/
theorem tally_createsExclusively_le_one (kept : m.tally (removes path) turns = 0) :
    m.tally (createsExclusively path) turns ≤ 1 := by
  induction turns generalizing m with
  | nil => exact Nat.zero_le 1
  | cons turn turns ih =>
    obtain ⟨-, rest⟩ := tally_cons_eq_zero.1 kept
    rw [tally]
    cases creates : m.createsExclusively path turn with
    | false => simpa using ih rest
    | true =>
      -- The file that the call creates is in the way of all later ones.
      obtain ⟨_, _, _, rfl, -⟩ := exists_of_createsExclusively creates
      have none := tally_createsExclusively_of_present (absent_of_createsExclusively creates).2 rest
      exact Nat.le_of_eq (congrArg (1 + ·) none)

/-- **Exclusive creation is exclusive.** In turns of any machine in which the file at a place is not
removed, one call that creates it exclusively succeeds at most, by whatever name and from whatever
directory; and it succeeds only where there was nothing, and leaves an empty file with the mode
asked for. -/
theorem exclusive_creation_once (m : Machine) (path : String) :
    (∀ turns, m.tally (removes path) turns = 0 →
      m.tally (createsExclusively path) turns ≤ 1) ∧
    ∀ name flags mode, m.createsExclusively path (.call (.openFile name flags mode)) = true →
      m.tree.get? path = none ∧
        (m.perform (.openFile name flags mode)).2.tree.get? path = some (.file .empty mode) :=
  ⟨fun _ kept => tally_createsExclusively_le_one kept,
    fun _ _ _ created => absent_of_createsExclusively created⟩

/-- A lock that was taken is not taken again by another name, whether or not its descriptor was
closed; and it was taken where nothing was. -/
theorem exclusive_creation_once_lock :
    let flags := OpenFlags.writeOnly ||| OpenFlags.create ||| OpenFlags.exclusive
    let taking (name : String) : Turn := .call (.openFile ⟨Utf8.encode name⟩ flags 0o600)
    let turns : List Turn := [taking "/lock", .call (.close ⟨3⟩), taking "./a/../lock"]
    initial.tally (removes "/lock") turns = 0 ∧
      initial.tally (createsExclusively "/lock") turns ≤ 1 ∧
      initial.createsExclusively "/lock" (taking "/lock") = true ∧
      initial.tree.get? "/lock" = none ∧
      (initial.turn (taking "/lock")).tree.get? "/lock" = some (.file .empty 0o600) := by
  intro flags taking turns
  obtain ⟨once, creation⟩ := exclusive_creation_once initial "/lock"
  have kept : initial.tally (removes "/lock") turns = 0 := by decide
  have created : initial.createsExclusively "/lock" (taking "/lock") = true := by decide
  obtain ⟨absent, empty⟩ := creation ⟨Utf8.encode "/lock"⟩ flags 0o600 created
  exact ⟨kept, once turns kept, created, absent, empty⟩

end Hostcall.Machine
