import Hostcall.Proofs.Machine.Descriptor
import Hostcall.Proofs.Machine.Respond
import Hostcall.Proofs.Tree.WriteAt

/-!
# What an access reaches through its descriptor

Reading, writing and seeking go through a descriptor and see no more of the machine than what the
descriptor leads to (`Machine.reach`): a stream with what was read or written so far, or a position
and the node at a path. Nor do they change more. Each of the three is a function of what is reached
and of the settings (`Reach.answer`), whose result is put back in its place (`Machine.leave`); all
else that an access does is that it is counted, and that a failure goes to the error register
(`perform_access`).
-/

namespace Hostcall

/-- A call that goes through a descriptor and leaves the descriptor open. -/
inductive Access where
  | write (fd : Fd) (data : Bytes)
  | read (fd : Fd) (buffer : Bytes)
  | lseek (fd : Fd) (offset whence : Int)
deriving DecidableEq

namespace Access

/-- The access as a call. -/
def request : Access → Request
  | write fd data => .write fd data
  | read fd buffer => .read fd buffer
  | lseek fd offset whence => .lseek fd offset whence

/-- The descriptor that is used. -/
def fd : Access → Fd
  | write fd _ => fd
  | read fd _ => fd
  | lseek fd _ _ => fd

end Access

/-- Where a descriptor leads to. -/
inductive Site where
  | stdin
  | stdout
  | stderr
  | file (path : String)
deriving DecidableEq

/-- The site of an entry of the descriptor table. -/
def OpenFile.site : OpenFile → Site
  | .stdin => .stdin
  | .stdout => .stdout
  | .stderr => .stderr
  | .file path _ _ => .file path

/-- What a descriptor leads to, with all that an access can see of it. -/
inductive Reach where
  | nowhere
  | stdin (position : Nat)
  | stdout (written : Contents)
  | stderr (written : Contents)
  | file (path : String) (position : Nat) (flags : OpenFlags) (node : Option Node)

/-- What is set about a machine before it starts, and never changes. -/
structure Settings where
  input : Bytes
  writeCap : Option Nat
  stalled : Bool

/-- The bytes that one write takes at most. -/
def Settings.capped (s : Settings) (data : Bytes) : Bytes :=
  match s.writeCap with
  | some cap => data.take cap
  | none => data

/-- What a node holds, if it is a file. -/
def Node.contents? : Node → Option Contents
  | .file data _ => some data
  | .directory _ => none

namespace Reach

/-- The site that is reached. -/
def site? : Reach → Option Site
  | nowhere => none
  | stdin _ => some .stdin
  | stdout _ => some .stdout
  | stderr _ => some .stderr
  | file path _ _ _ => some (.file path)

/-- Reads at most `count` bytes. -/
def read (s : Settings) (count : Nat) : Reach → Except SysError (Bytes × Reach)
  | stdin position =>
    let data := (s.input.drop position).take count
    .ok (data, stdin (position + data.length))
  | file path position flags node =>
    if flags.reads then
      let data := ((node.bind Node.contents?).map fun c => c.slice position count).getD []
      .ok (data, file path (position + data.length) flags node)
    else .error .badDescriptor
  | _ => .error .badDescriptor

/-- Where a write to a file begins. -/
def startOf (flags : OpenFlags) (position : Nat) (old : Contents) : Nat :=
  if flags.appends then old.size else position

/-- Writes bytes. -/
def write (s : Settings) (data : Bytes) : Reach → Except SysError (Nat × Reach)
  | stdout written =>
    if s.stalled then .ok (0, stdout written)
    else .ok ((s.capped data).length, stdout (written.append (s.capped data)))
  | stderr written =>
    if s.stalled then .ok (0, stderr written)
    else .ok ((s.capped data).length, stderr (written.append (s.capped data)))
  | file path position flags node =>
    if s.stalled then .ok (0, file path position flags node)
    else if flags.writes then
      match node with
      | some (.file old mode) =>
        if startOf flags position old + (s.capped data).length ≤ Tree.maxFileSize then
          .ok ((s.capped data).length,
            file path (startOf flags position old + (s.capped data).length) flags
              (some (.file (old.splice (startOf flags position old) (s.capped data)) mode)))
        else .error .fileTooLarge
      | _ => .error .inputOutput
    else .error .badDescriptor
  | _ => .error .badDescriptor

/-- What a seek counts from. -/
def base? (whence : Int) (position : Nat) (node : Option Node) : Option Nat :=
  (Whence.ofCode? whence).map fun
    | .start => 0
    | .current => position
    | .finish => ((node.bind Node.contents?).map Contents.size).getD 0

/-- Moves the position. -/
def lseek (offset whence : Int) : Reach → Except SysError (Int × Reach)
  | nowhere => .error .badDescriptor
  | file path position flags node =>
    match base? whence position node with
    | none => .error .invalidArgument
    | some base =>
      if Machine.maxPosition < base + offset then .error .valueOverflow
      else if base + offset < 0 then .error .invalidArgument
      else .ok (base + offset, file path (base + offset).toNat flags node)
  | _ => .error .illegalSeek

/-- The answer to an access, and what is reached afterwards. -/
def answer (s : Settings) (reach : Reach) : (a : Access) → a.request.Reply × Reach
  | .write _ data =>
    match reach.write s data with
    | .ok (count, after) => ((count : Int), after)
    | .error _ => ((-1 : Int), reach)
  | .read _ buffer =>
    match reach.read s buffer.length with
    | .ok (data, after) => (((data.length : Int), Bytes.overlay buffer data), after)
    | .error _ => (((-1 : Int), buffer), reach)
  | .lseek _ offset whence =>
    match reach.lseek offset whence with
    | .ok (target, after) => (target, after)
    | .error _ => ((-1 : Int), reach)

variable {s : Settings} {reach after : Reach} {data : Bytes} {count : Nat}

/-- A read stays at its site. -/
theorem site?_of_read (h : reach.read s count = .ok (data, after)) :
    after.site? = reach.site? := by
  cases reach with
  | nowhere => contradiction
  | stdin position => exact (Prod.mk.inj (Except.ok.inj h)).2 ▸ rfl
  | stdout written => contradiction
  | stderr written => contradiction
  | file path position flags node =>
    simp only [read] at h
    split at h
    · exact (Prod.mk.inj (Except.ok.inj h)).2 ▸ rfl
    · contradiction

/-- So does a write. -/
theorem site?_of_write (h : reach.write s data = .ok (count, after)) :
    after.site? = reach.site? := by
  cases reach with
  | nowhere => contradiction
  | stdin position => contradiction
  | stdout written =>
    simp only [write] at h
    split at h <;> exact (Prod.mk.inj (Except.ok.inj h)).2 ▸ rfl
  | stderr written =>
    simp only [write] at h
    split at h <;> exact (Prod.mk.inj (Except.ok.inj h)).2 ▸ rfl
  | file path position flags node =>
    simp only [write] at h
    split at h
    · exact (Prod.mk.inj (Except.ok.inj h)).2 ▸ rfl
    split at h
    · split at h
      · split at h
        · exact (Prod.mk.inj (Except.ok.inj h)).2 ▸ rfl
        · contradiction
      · contradiction
    · contradiction

/-- So does a seek. -/
theorem site?_of_lseek {offset whence target : Int}
    (h : reach.lseek offset whence = .ok (target, after)) : after.site? = reach.site? := by
  cases reach with
  | nowhere => contradiction
  | stdin position => contradiction
  | stdout written => contradiction
  | stderr written => contradiction
  | file path position flags node =>
    simp only [lseek] at h
    split at h
    · contradiction
    split at h
    · contradiction
    split at h
    · contradiction
    · exact (Prod.mk.inj (Except.ok.inj h)).2 ▸ rfl

@[simp] theorem site?_answer (s : Settings) (reach : Reach) (a : Access) :
    (reach.answer s a).2.site? = reach.site? := by
  cases a with
  | write fd data =>
    simp only [answer]
    split
    · rename_i h
      exact site?_of_write h
    · rfl
  | read fd buffer =>
    simp only [answer]
    split
    · rename_i h
      exact site?_of_read h
    · rfl
  | lseek fd offset whence =>
    simp only [answer]
    split
    · rename_i h
      exact site?_of_lseek h
    · rfl

end Reach

/-- An update by what is there already changes nothing. -/
theorem SlotTable.update_self {α : Type} {t : SlotTable α} {key : Nat} {a : α}
    (h : t.get? key = some a) : t.update key a = t := by
  have here : t.slots[key]? = some (some a) := Option.join_eq_some_iff.1 h
  have same : t.slots.set key (some a) = t.slots := by
    apply List.ext_getElem?
    intro other
    rw [List.getElem?_set]
    split
    · rename_i e
      subst e
      rw [here, if_pos (lt_length_of_get? h)]
    · rfl
  simp [update, h, same]

namespace Tree

/-- The tree with a node at a path, if one is given. -/
def restore (t : Tree) (path : String) : Option Node → Tree
  | some node => t.put path node
  | none => t

theorem contents?_eq_bind (t : Tree) (path : String) :
    t.contents? path = (t.get? path).bind Node.contents? := by
  unfold contents?
  cases t.get? path with
  | none => rfl
  | some node => cases node <;> rfl

/-- Nor does it to put back at a path what stands there. -/
theorem restore_get? (t : Tree) (path : String) : t.restore path (t.get? path) = t := by
  cases h : t.get? path with
  | none => rfl
  | some node =>
    apply ext_get?
    intro q
    rw [restore, get?_put]
    split
    · rename_i e
      rw [← e, h]
    · rfl

end Tree

namespace Machine

variable {m : Machine} {fd : Fd} {path : String} {position : Nat} {flags : OpenFlags}

/-- The settings of a machine. -/
def settings (m : Machine) : Settings := ⟨m.stdin, m.writeCap, m.stalled⟩

/-- What a descriptor leads to. -/
def reach (m : Machine) (fd : Fd) : Reach :=
  match m.entry? fd with
  | none => .nowhere
  | some .stdin => .stdin m.stdinPosition
  | some .stdout => .stdout m.stdout
  | some .stderr => .stderr m.stderr
  | some (.file path position flags) => .file path position flags (m.tree.get? path)

/-- The machine after what a descriptor leads to was changed. -/
def leave (m : Machine) (fd : Fd) : Reach → Machine
  | .nowhere => m
  | .stdin position => { m with stdinPosition := position }
  | .stdout written => { m with stdout := written }
  | .stderr written => { m with stderr := written }
  | .file path position flags node =>
    { m with tree := m.tree.restore path node }.movedTo fd path position flags

/-- The site of a reach is that of the entry. -/
theorem site?_reach (m : Machine) (fd : Fd) :
    (m.reach fd).site? = (m.entry? fd).map OpenFile.site := by
  unfold reach
  cases m.entry? fd with
  | none => rfl
  | some file => cases file <;> rfl

/-- The reach of a descriptor over a file is its entry and the node at its path. -/
theorem reach_file (entry : m.entry? fd = some (.file path position flags)) :
    m.reach fd = .file path position flags (m.tree.get? path) := by
  rw [reach, entry]

/-- Where the node was not changed, a position was moved and nothing else. -/
theorem leave_file (m : Machine) (fd : Fd) (path : String) (position : Nat) (flags : OpenFlags) :
    m.leave fd (.file path position flags (m.tree.get? path)) =
      m.movedTo fd path position flags := by
  rw [leave, Tree.restore_get?]

/-- What is put back as it was found makes no difference. -/
theorem leave_reach (m : Machine) (fd : Fd) : m.leave fd (m.reach fd) = m := by
  cases entry : m.entry? fd with
  | none => rw [reach, entry]; rfl
  | some file =>
    cases file with
    | stdin => rw [reach, entry]; rfl
    | stdout => rw [reach, entry]; rfl
    | stderr => rw [reach, entry]; rfl
    | file path position flags =>
      rw [reach_file entry, leave_file, movedTo, SlotTable.update_self (entry?_eq_some.1 entry).2]

/-- An answer, with the machine after what a descriptor leads to was changed. -/
def leaving {α : Type} (m : Machine) (fd : Fd) (x : Except SysError (α × Reach)) :
    Except SysError (α × Machine) :=
  x.map fun done => (done.1, m.leave fd done.2)

theorem leaving_ok {α : Type} (m : Machine) (fd : Fd) (a : α) (after : Reach) :
    m.leaving fd (.ok (a, after)) = .ok (a, m.leave fd after) := rfl

theorem leaving_error {α : Type} (m : Machine) (fd : Fd) (e : SysError) :
    m.leaving fd (.error e : Except SysError (α × Reach)) = .error e := rfl

/-- A read needs no more of the machine than the reach of its descriptor. -/
theorem read_eq_reach (m : Machine) (fd : Fd) (count : Nat) :
    m.read fd count = m.leaving fd ((m.reach fd).read m.settings count) := by
  cases entry : m.entry? fd with
  | none => rw [read, reach, entry]; rfl
  | some file =>
    cases file with
    | stdin => rw [read, reach, entry]; rfl
    | stdout => rw [read, reach, entry]; rfl
    | stderr => rw [read, reach, entry]; rfl
    | file path position flags =>
      have data : m.tree.readAt path position count =
          (((m.tree.get? path).bind Node.contents?).map fun c => c.slice position count).getD [] := by
        rw [Tree.readAt, Tree.contents?_eq_bind]
        cases (m.tree.get? path).bind Node.contents? <;> rfl
      rw [read, entry, reach_file entry]
      simp only [Reach.read, ← data, apply_ite (m.leaving fd), leaving_ok, leaving_error, leave_file]

/-- Nor does a write. -/
theorem write_eq_reach (m : Machine) (fd : Fd) (data : Bytes) :
    m.write fd data = m.leaving fd ((m.reach fd).write m.settings data) := by
  have stalled : m.settings.stalled = m.stalled := rfl
  have capped : m.settings.capped data = m.capped data := rfl
  cases entry : m.entry? fd with
  | none => rw [write, reach, entry]; rfl
  | some file =>
    cases file with
    | stdin => rw [write, reach, entry]; rfl
    | stdout =>
      rw [write, reach, entry]
      simp only [Reach.write, stalled, capped, apply_ite (m.leaving fd), leaving_ok]
      rfl
    | stderr =>
      rw [write, reach, entry]
      simp only [Reach.write, stalled, capped, apply_ite (m.leaving fd), leaving_ok]
      rfl
    | file path position flags =>
      rw [write, entry, reach_file entry]
      simp only [Reach.write, deliver, stalled, capped, apply_ite (m.leaving fd), leaving_ok,
        leaving_error, leave_file]
      split
      · rw [← leave_file, ← reach_file entry, leave_reach]
      split
      · cases found : m.tree.get? path with
        | none =>
          simp only [Tree.writeAt, found]
          rfl
        | some node =>
          cases node with
          | directory mode =>
            simp only [Tree.writeAt, found]
            rfl
          | file old mode =>
            have start : m.writeStart path position flags = Reach.startOf flags position old := by
              rw [writeStart, Tree.endOf, Tree.contents?_eq_bind, found]
              rfl
            simp only [Tree.writeAt, found, start, apply_ite (m.leaving fd), leaving_ok,
              leaving_error]
            split
            · rfl
            · rfl
      · rfl

/-- Nor does a seek. -/
theorem lseek_eq_reach (m : Machine) (fd : Fd) (offset whence : Int) :
    m.lseek fd offset whence = m.leaving fd ((m.reach fd).lseek offset whence) := by
  cases entry : m.entry? fd with
  | none => rw [lseek, reach, entry]; rfl
  | some file =>
    cases file with
    | stdin => rw [lseek, reach, entry]; rfl
    | stdout => rw [lseek, reach, entry]; rfl
    | stderr => rw [lseek, reach, entry]; rfl
    | file path position flags =>
      have base : m.seekBase? path position whence =
          Reach.base? whence position (m.tree.get? path) := by
        have size : m.tree.endOf path =
            (((m.tree.get? path).bind Node.contents?).map Contents.size).getD 0 := by
          rw [Tree.endOf, Tree.contents?_eq_bind]
        unfold seekBase? Reach.base?
        cases Whence.ofCode? whence with
        | none => rfl
        | some origin =>
          cases origin with
          | start => rfl
          | current => rfl
          | finish => exact congrArg some size
      rw [lseek_eq entry, base, reach_file entry, Reach.lseek]
      cases Reach.base? whence position (m.tree.get? path) with
      | none => rfl
      | some base =>
        simp only [apply_ite (m.leaving fd), leaving_ok, leaving_error, leave_file]

/-- The machine with its error register cleared. -/
def quiet (m : Machine) : Machine := { m with errno := 0 }

/-- The machine after an access, but for the error register. -/
def accessed (m : Machine) (a : Access) : Machine :=
  (m.counted a.request).leave a.fd ((m.reach a.fd).answer m.settings a).2

theorem quiet_leave (m : Machine) (fd : Fd) (reach : Reach) :
    (m.leave fd reach).quiet = m.quiet.leave fd reach := by
  cases reach <;> rfl

theorem quiet_accessed (m : Machine) (a : Access) : (m.accessed a).quiet = m.quiet.accessed a :=
  quiet_leave _ _ _

/-- So an access is answered from the reach, and leaves the machine as the reach says. -/
theorem respond_access (m : Machine) (a : Access) :
    (m.respond a.request).1 = ((m.reach a.fd).answer m.settings a).1 ∧
      (m.respond a.request).2.quiet =
        (m.leave a.fd ((m.reach a.fd).answer m.settings a).2).quiet := by
  cases a with
  | write fd data =>
    simp only [respond, Access.request, Access.fd, write_eq_reach, Reach.answer]
    cases (m.reach fd).write m.settings data with
    | ok done => exact ⟨rfl, rfl⟩
    | error e => exact ⟨rfl, by rw [leave_reach]; rfl⟩
  | read fd buffer =>
    simp only [respond, Access.request, Access.fd, read_eq_reach, Reach.answer]
    cases (m.reach fd).read m.settings buffer.length with
    | ok done => exact ⟨rfl, rfl⟩
    | error e => exact ⟨rfl, by rw [leave_reach]; rfl⟩
  | lseek fd offset whence =>
    simp only [respond, Access.request, Access.fd, lseek_eq_reach, Reach.answer]
    cases (m.reach fd).lseek offset whence with
    | ok done => exact ⟨rfl, rfl⟩
    | error e => exact ⟨rfl, by rw [leave_reach]; rfl⟩

/-- An access is answered from the settings and what its descriptor leads to, and changes no more
than that and the error register. -/
theorem perform_access (m : Machine) (a : Access) :
    (m.perform a.request).1 = ((m.reach a.fd).answer m.settings a).1 ∧
      (m.perform a.request).2.quiet = m.quiet.accessed a := by
  rw [← quiet_accessed]
  exact (m.counted a.request).respond_access a

end Machine

end Hostcall
