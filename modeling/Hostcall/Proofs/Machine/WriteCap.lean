import Hostcall.Proofs.Machine.Pieces

/-!
# The cap on writes

The cap is a setting that only writes read: a call that does not write does the same under any cap
(`perform_recapped`), and a write under a cap is a write of the first bytes (`write_recapped`). The
count of writes is recapped with it, because that is what the cap changes in the end.
-/

namespace Hostcall

/-- Whether a call writes. -/
def Request.isWrite : Request → Bool
  | .write .. => true
  | _ => false

namespace Machine

variable {m : Machine}

/-- The machine with another cap and another count of writes. -/
def recapped (m : Machine) (cap : Option Nat) (writes : Nat) : Machine :=
  { m with writeCap := cap, calls := { m.calls with write := writes } }

/-- The answer of a call, and the machine after it with another cap and count. -/
def recap {α : Type} (cap : Option Nat) (writes : Nat) (answer : α × Machine) : α × Machine :=
  (answer.1, answer.2.recapped cap writes)

section

variable (m : Machine) (cap : Option Nat) (writes : Nat)

@[simp] theorem recapped_tree : (m.recapped cap writes).tree = m.tree := rfl

@[simp] theorem recapped_stalled : (m.recapped cap writes).stalled = m.stalled := rfl

@[simp] theorem entry?_recapped (fd : Fd) :
    entry? (m.recapped cap writes) fd = m.entry? fd := rfl

@[simp] theorem getcwd_recapped (length : Nat) :
    (m.recapped cap writes).getcwd length = m.getcwd length := rfl

@[simp] theorem seekBase?_recapped (path : String) (position : Nat) (whence : Int) :
    (m.recapped cap writes).seekBase? path position whence = m.seekBase? path position whence := rfl

theorem recap_bind {α β : Type} (x : Except SysError α) {f g : α → Except SysError (β × Machine)}
    (same : ∀ a, f a = (g a).map (recap cap writes)) :
    (x >>= f) = (x >>= g).map (recap cap writes) := by
  cases x with
  | error e => rfl
  | ok a => exact same a

/-- Settling takes no notice of the cap. -/
theorem settle_recapped (x : Except SysError (Nat × Machine)) :
    (m.recapped cap writes).settle (x.map (recap cap writes)) = recap cap writes (m.settle x) := by
  cases x <;> rfl

theorem read_recapped (fd : Fd) (count : Nat) :
    (m.recapped cap writes).read fd count = (m.read fd count).map (recap cap writes) := by
  unfold read
  rw [entry?_recapped]
  cases m.entry? fd with
  | none => rfl
  | some file =>
    cases file with
    | stdin => rfl
    | stdout => rfl
    | stderr => rfl
    | file path position flags =>
      dsimp only
      split <;> rfl

theorem openFile_recapped (path : CString) (flags : OpenFlags) (mode : Mode) :
    (m.recapped cap writes).openFile path flags mode =
      (m.openFile path flags mode).map (recap cap writes) := by
  unfold openFile
  split
  · rfl
  · exact recap_bind cap writes (m.place path) fun place =>
      recap_bind cap writes (m.openTree place flags mode) fun tree => rfl

theorem close_recapped (fd : Fd) :
    (m.recapped cap writes).close fd = (m.close fd).map (recap cap writes) := by
  unfold close
  rw [entry?_recapped]
  cases m.entry? fd <;> rfl

theorem unlink_recapped (path : CString) :
    (m.recapped cap writes).unlink path = (m.unlink path).map (recap cap writes) :=
  recap_bind cap writes (m.place path) fun place =>
    recap_bind cap writes (m.tree.remove place) fun _ => rfl

theorem mkdir_recapped (path : CString) (mode : Mode) :
    (m.recapped cap writes).mkdir path mode = (m.mkdir path mode).map (recap cap writes) :=
  recap_bind cap writes (m.place path) fun place =>
    recap_bind cap writes (m.tree.createDirectory place mode) fun _ => rfl

theorem chdir_recapped (path : CString) :
    (m.recapped cap writes).chdir path = (m.chdir path).map (recap cap writes) := by
  refine recap_bind cap writes (m.place path) fun place => ?_
  simp only [recapped_tree]
  split <;> rfl

theorem later_recapped (micros : Nat) :
    (m.recapped cap writes).later micros = (m.later micros).recapped cap writes := rfl

theorem usleep_recapped (micros : Nat) :
    (m.recapped cap writes).usleep micros = (m.usleep micros).map (recap cap writes) := by
  unfold usleep
  split <;> rfl

theorem lseek_recapped (fd : Fd) (offset whence : Int) :
    (m.recapped cap writes).lseek fd offset whence =
      (m.lseek fd offset whence).map (recap cap writes) := by
  cases hentry : m.entry? fd with
  | none => simp [lseek, hentry, Except.map]
  | some file =>
    cases file with
    | stdin => simp [lseek, hentry, Except.map]
    | stdout => simp [lseek, hentry, Except.map]
    | stderr => simp [lseek, hentry, Except.map]
    | file path position flags =>
      rw [lseek_eq hentry, lseek_eq (by rw [entry?_recapped, hentry]), seekBase?_recapped]
      split
      · rfl
      · split
        · rfl
        · split <;> rfl

/-- Only a write takes notice of the cap. -/
theorem respond_recapped {request : Request} (other : request.isWrite = false) :
    (m.recapped cap writes).respond request = recap cap writes (m.respond request) := by
  cases request with
  | write => contradiction
  | read fd buffer =>
    simp only [respond, read_recapped]
    cases m.read fd buffer.length <;> rfl
  | openFile path flags mode =>
    simp only [respond, openFile_recapped]
    cases m.openFile path flags mode <;> rfl
  | close fd => simp only [respond, close_recapped, settle_recapped]
  | unlink path => simp only [respond, unlink_recapped, settle_recapped]
  | mkdir path mode => simp only [respond, mkdir_recapped, settle_recapped]
  | chdir path => simp only [respond, chdir_recapped, settle_recapped]
  | getcwd buffer =>
    simp only [respond, getcwd_recapped]
    cases m.getcwd buffer.length <;> rfl
  | lseek fd offset whence =>
    simp only [respond, lseek_recapped]
    cases m.lseek fd offset whence <;> rfl
  | errno => rfl
  | strerror code => rfl
  | sleep seconds =>
    -- Not by `rfl`, which would have the kernel multiply out the microseconds.
    exact congrArg (Prod.mk 0) (later_recapped m cap writes _)
  | usleep micros => simp only [respond, usleep_recapped, settle_recapped]

/-- Only a write is counted otherwise. -/
theorem counted_recapped {request : Request} (other : request.isWrite = false) :
    (m.recapped cap writes).counted request = (m.counted request).recapped cap writes := by
  cases request with
  | write => contradiction
  | _ => rfl

/-- A call that does not write does the same under any cap. -/
theorem perform_recapped {request : Request} (other : request.isWrite = false) :
    (m.recapped cap writes).perform request = recap cap writes (m.perform request) := by
  show ((m.recapped cap writes).counted request).respond request = _
  rw [counted_recapped _ _ _ other, respond_recapped _ _ _ other]
  rfl

end

/-- A machine without a cap is its own copy without one. -/
theorem recapped_self (free : m.writeCap = none) : m.recapped none m.calls.write = m := by
  rw [← free]
  rfl

/-- A call that is no write sets no cap. -/
theorem writeCap_perform (free : m.writeCap = none) {request : Request}
    (other : request.isWrite = false) : (m.perform request).2.writeCap = none := by
  have same := perform_recapped m none m.calls.write other
  rw [recapped_self free] at same
  rw [same]
  rfl

/-- Once a chunk is cut, it is delivered the same with and without the cap. -/
theorem deliver_recapped (m : Machine) (cap : Option Nat) (writes : Nat) (fd : Fd) (chunk : Bytes)
    (file : OpenFile) :
    (m.recapped cap writes).deliver fd chunk file =
      (m.deliver fd chunk file).map (recap cap writes) := by
  cases file with
  | stdin => rfl
  | stdout => rfl
  | stderr => rfl
  | file path position flags =>
    rw [deliver_file, deliver_file]
    split
    · exact recap_bind cap writes (m.tree.writeAt path (m.writeStart path position flags) chunk)
        fun _ => rfl
    · rfl

/-- A write under a cap is a write of the first bytes. -/
theorem write_recapped (free : m.writeCap = none) (cap : Option Nat) (writes : Nat) (fd : Fd)
    (data : Bytes) :
    (m.recapped cap writes).write fd data =
      (m.write fd ((m.recapped cap writes).capped data)).map (recap cap writes) := by
  rcases m.entry?_cases fd with refuses | ⟨file, entry, output⟩
  · rw [write_eq_error (m := m.recapped cap writes) refuses, write_eq_error refuses]
    rfl
  · rw [write_eq (m := m.recapped cap writes) entry output, write_eq entry output,
      recapped_stalled, deliver_recapped, capped_of_free free]
    split <;> rfl

/-- So a write under a cap is a free write of the chunk that the cap leaves. -/
theorem perform_write_recapped (free : m.writeCap = none) (cap : Option Nat) (writes : Nat)
    (fd : Fd) (data : Bytes) :
    (m.recapped cap writes).perform (.write fd data) =
      recap cap (writes + 1) (m.settle (m.write fd ((m.recapped cap writes).capped data))) := by
  show (m.recapped cap (writes + 1)).settle ((m.recapped cap (writes + 1)).write fd data) = _
  rw [write_recapped free, settle_recapped]
  rfl

end Machine

end Hostcall
