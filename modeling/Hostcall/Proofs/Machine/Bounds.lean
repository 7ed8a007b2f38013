import Hostcall.Proofs.Machine.AppendOnly
import Hostcall.Proofs.Machine.Entries

/-!
# Bounds that hold throughout

In every machine that turns lead to, the input was read no further than to its end, no position is
larger than a seek allows, and no file is larger than a limit that holds for the files there at
first and for files that grow (`Within.after`). The count of the calls grows by one a turn at most
(`total_after`).
-/

namespace Hostcall

namespace SlotTable

theorem mem_of_get?_ofList {α : Type} {key : Nat} {entries : List α} {a : α}
    (h : (ofList entries).get? key = some a) : a ∈ entries := by
  have slot : (entries.map some)[key]? = some (some a) := Option.join_eq_some_iff.1 h
  obtain ⟨b, hb, same⟩ := List.mem_map.1 (List.mem_of_getElem? slot)
  exact Option.some.inj same ▸ hb

end SlotTable

namespace CallCounts

/-- How often a call was made. -/
def of (c : CallCounts) : Request → Nat
  | .write .. => c.write
  | .read .. => c.read
  | .openFile .. => c.openFile
  | .close .. => c.close
  | .unlink .. => c.unlink
  | .mkdir .. => c.mkdir
  | .chdir .. => c.chdir
  | .getcwd .. => c.getcwd
  | .lseek .. => c.lseek
  | .errno => c.errno
  | .strerror .. => c.strerror
  | .sleep .. => c.sleep
  | .usleep .. => c.usleep

/-- How often any call was made. -/
def total (c : CallCounts) : Nat :=
  c.write + c.read + c.openFile + c.close + c.unlink + c.mkdir + c.chdir + c.getcwd + c.lseek +
    c.errno + c.strerror + c.sleep + c.usleep + c.exit + c.abort

/-- The count of one operation is part of the total. -/
theorem of_le_total (c : CallCounts) (request : Request) : c.of request ≤ c.total := by
  unfold total
  cases request <;> simp only [of] <;> omega

/-- A call adds one to the total, whichever it is. -/
theorem total_add (c : CallCounts) (request : Request) :
    (c.add request).total = c.total + 1 := by
  unfold total
  cases request <;> simp only [add] <;> omega

/-- So does a call that does not come back. -/
theorem total_addStop (c : CallCounts) (reason : Stop) :
    (c.addStop reason).total = c.total + 1 := by
  unfold total
  cases reason <;> simp only [addStop] <;> omega

end CallCounts

namespace Machine

variable {m n : Machine} {request : Request} {limit : Nat}

/-- The bounds of a machine whose files are no larger than a limit. -/
structure Within (limit : Nat) (m : Machine) : Prop where
  input : m.stdinPosition ≤ m.stdin.length
  position : ∀ fd path position flags, m.entry? fd = some (.file path position flags) →
    (position : Int) ≤ maxPosition
  size : ∀ path c, m.tree.contents? path = some c → c.size ≤ limit

@[simp] theorem later_stdin (m : Machine) (micros : Nat) : (m.later micros).stdin = m.stdin := rfl

@[simp] theorem later_stdinPosition (m : Machine) (micros : Nat) :
    (m.later micros).stdinPosition = m.stdinPosition := rfl

@[simp] theorem later_calls (m : Machine) (micros : Nat) : (m.later micros).calls = m.calls := rfl

/-- What is supplied on stdin is fixed when the machine is built. -/
theorem Succeeded.stdin {reply : request.Reply} (h : Succeeded m request reply n) :
    n.stdin = m.stdin := by
  cases h with
  | write wrote => cases wrote <;> rfl
  | read read => cases read <;> rfl
  | openFile => rfl
  | close => rfl
  | unlink => rfl
  | mkdir => rfl
  | chdir => rfl
  | getcwd => rfl
  | lseek => rfl
  | errno => rfl
  | strerror => rfl
  | sleep => rw [later_stdin]
  | usleep => rw [later_stdin]

/-- A read of stdin stops at its end, and nothing else moves there. -/
theorem Succeeded.input {reply : request.Reply} (h : Succeeded m request reply n)
    (input : m.stdinPosition ≤ m.stdin.length) : n.stdinPosition ≤ n.stdin.length := by
  cases h with
  | write wrote => cases wrote <;> exact input
  | read read =>
    cases read with
    | stdin =>
      show m.stdinPosition + ((m.stdin.drop m.stdinPosition).take _).length ≤ m.stdin.length
      rw [List.length_take, List.length_drop]
      omega
    | file => exact input
  | openFile => exact input
  | close => exact input
  | unlink => exact input
  | mkdir => exact input
  | chdir => exact input
  | getcwd => exact input
  | lseek => exact input
  | errno => exact input
  | strerror => exact input
  | sleep => rwa [later_stdin, later_stdinPosition]
  | usleep => rwa [later_stdin, later_stdinPosition]

/-- A file grows by a write only, and no further than to the largest size that a file can have. -/
theorem Succeeded.size {reply : request.Reply} (h : Succeeded m request reply n)
    (least : Tree.maxFileSize ≤ limit)
    (size : ∀ path c, m.tree.contents? path = some c → c.size ≤ limit) {path : String}
    {c : Contents} (file : n.tree.contents? path = some c) : c.size ≤ limit := by
  cases h with
  | write wrote =>
    cases wrote with
    | stalled => exact size path c file
    | stdout => exact size path c file
    | stderr => exact size path c file
    | @file place position flags tree entry runs writes written =>
      -- Only here a file grows, and a write past the largest size was refused.
      obtain ⟨old, mode, found, room, rfl⟩ := Tree.writeAt_eq_ok written
      rw [movedTo_tree, Tree.contents?_put_file] at file
      split at file
      · have held := size place old (by simp [Tree.contents?, found])
        rw [← Option.some.inj file, Contents.size_splice]
        omega
      · exact size path c file
  | read read => cases read <;> exact size path c file
  | openFile access resolved opened =>
    rcases openTree_eq_ok opened with ⟨data, mode, -, rfl | ⟨-, -, rfl⟩⟩ | ⟨-, -, rfl⟩
    · exact size path c file
    · rw [Tree.contents?_put_file] at file
      split at file
      · rw [← Option.some.inj file]
        exact Nat.zero_le _
      · exact size path c file
    · rw [Tree.contents?_put_file] at file
      split at file
      · rw [← Option.some.inj file]
        exact Nat.zero_le _
      · exact size path c file
  | unlink resolved removed =>
    obtain ⟨data, mode, -, rfl⟩ := Tree.remove_eq_ok removed
    rw [Tree.contents?_drop] at file
    split at file
    · contradiction
    · exact size path c file
  | mkdir resolved created =>
    obtain ⟨absent, -, rfl⟩ := Tree.createUnder_eq_ok created
    rw [Tree.contents?_put_directory] at file
    split at file
    · contradiction
    · exact size path c file
  | close => exact size path c file
  | chdir => exact size path c file
  | getcwd => exact size path c file
  | lseek => exact size path c file
  | errno => exact size path c file
  | strerror => exact size path c file
  | sleep => exact size path c (by rwa [later_tree] at file)
  | usleep => exact size path c (by rwa [later_tree] at file)

/-- A call that succeeds keeps the bounds, if files that grow stay below the limit and positions
within files are positions that a seek allows. -/
theorem Succeeded.within {reply : request.Reply} (h : Succeeded m request reply n)
    (least : Tree.maxFileSize ≤ limit) (most : (limit : Int) ≤ maxPosition)
    (within : m.Within limit) : n.Within limit where
  input := h.input within.input
  position := by
    intro fd path position flags entry
    rcases h.entry_cases entry with old | ⟨_, _, _, new, attained⟩
    · exact within.position fd path position flags old
    · obtain ⟨rfl, rfl, rfl⟩ := OpenFile.file.inj new
      rcases attained with allowed | ⟨path, c, file, inside⟩
      · exact allowed
      · have held := within.size path c file
        omega
  size := fun _ _ file => h.size least within.size file

/-- A count has no part in the bounds. -/
theorem Within.counted (h : m.Within limit) (request : Request) :
    (m.counted request).Within limit :=
  ⟨h.input, h.position, h.size⟩

/-- What keeps tree, descriptors and input keeps the bounds. -/
theorem Keeps.within (kept : m.Keeps n) (within : m.Within limit) : n.Within limit where
  input := by
    rw [kept.stdin, kept.stdinPosition]
    exact within.input
  position := by
    unfold entry?
    rw [kept.files]
    exact within.position
  size := by
    rw [kept.tree]
    exact within.size

/-- The bounds survive a turn. -/
theorem Within.turn (h : m.Within limit) (least : Tree.maxFileSize ≤ limit)
    (most : (limit : Int) ≤ maxPosition) (turn : Turn) : (m.turn turn).Within limit := by
  rcases m.turn_cases turn with ⟨request, reply, succeeded⟩ | kept
  · exact succeeded.within least most (h.counted request)
  · exact kept.within h

/-- So they survive any run. -/
theorem Within.after (h : m.Within limit) (least : Tree.maxFileSize ≤ limit)
    (most : (limit : Int) ≤ maxPosition) (turns : List Turn) : (m.after turns).Within limit :=
  after_of_turn (fun _ turn h => h.turn least most turn) h turns

theorem stdin_turn (m : Machine) (turn : Turn) : (m.turn turn).stdin = m.stdin := by
  rcases m.turn_cases turn with ⟨request, reply, succeeded⟩ | kept
  · exact succeeded.stdin
  · exact kept.stdin

theorem stdin_after (m : Machine) (turns : List Turn) : (m.after turns).stdin = m.stdin :=
  after_of_turn (P := fun n => n.stdin = m.stdin)
    (fun n turn same => (n.stdin_turn turn).trans same) rfl turns

/-- A machine starts with nothing read and no call made. -/
theorem unused_of_build {steps : List SetupStep} {warnings : List LogEntry}
    (h : build steps = .ok (m, warnings)) : m.stdinPosition = 0 ∧ m.calls = {} := by
  obtain ⟨s, -, hstart⟩ := exists_follow_of_build h
  have unused : s.start.1.stdinPosition = 0 ∧ s.start.1.calls = {} := by
    unfold Setup.start
    dsimp only
    split <;> exact ⟨rfl, rfl⟩
  rwa [hstart] at unused

/-- A machine that was built is within any limit that its files respect. -/
theorem within_of_build {steps : List SetupStep} {warnings : List LogEntry}
    (h : build steps = .ok (m, warnings))
    (size : ∀ path c, m.tree.contents? path = some c → c.size ≤ limit) : m.Within limit where
  input := by
    rw [(unused_of_build h).1]
    exact Nat.zero_le _
  position := by
    intro fd path position flags entry
    have standard := (entry?_eq_some.1 entry).2
    rw [files_of_build h] at standard
    exact absurd (SlotTable.mem_of_get?_ofList standard) (by simp)
  size := size

theorem Succeeded.calls {reply : request.Reply} (h : Succeeded m request reply n) :
    n.calls = m.calls := by
  cases h with
  | write wrote => cases wrote <;> rfl
  | read read => cases read <;> rfl
  | openFile => rfl
  | close => rfl
  | unlink => rfl
  | mkdir => rfl
  | chdir => rfl
  | getcwd => rfl
  | lseek => rfl
  | errno => rfl
  | strerror => rfl
  | sleep => rw [later_calls]
  | usleep => rw [later_calls]

theorem calls_perform (m : Machine) (request : Request) :
    (m.perform request).2.calls = m.calls.add request := by
  rcases m.perform_cases request with ⟨e, he⟩ | succeeded
  · rw [he]
    rfl
  · exact succeeded.calls

/-- A turn makes one call at most. -/
theorem total_turn (m : Machine) (turn : Turn) :
    (m.turn turn).calls.total ≤ m.calls.total + 1 := by
  cases turn with
  | call request =>
    have counted : (m.perform request).2.calls.total = m.calls.total + 1 := by
      rw [calls_perform, CallCounts.total_add]
    exact Nat.le_of_eq counted
  | stop reason => exact Nat.le_of_eq (m.calls.total_addStop reason)
  | resetCalls => exact Nat.zero_le _
  | takeStdout => exact Nat.le_succ _
  | takeStderr => exact Nat.le_succ _

/-- As many calls more were counted as there were turns, at most. -/
theorem total_after (m : Machine) (turns : List Turn) :
    (m.after turns).calls.total ≤ m.calls.total + turns.length := by
  induction turns generalizing m with
  | nil => exact Nat.le_refl _
  | cons turn turns ih =>
    have step := m.total_turn turn
    have rest := ih (m.turn turn)
    rw [List.length_cons]
    exact Nat.le_trans rest (by omega)

end Machine

end Hostcall
