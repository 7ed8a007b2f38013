import Hostcall.Except
import Hostcall.Machine.Perform

/-!
# What a call does

A call fails for a reason, and then it changes the error register and nothing else; or it takes
effect, and `Succeeded` says all that happened: under which conditions, with which answer and to
which machine it led. There is no third case (`respond_cases`). A call that takes effect reports a
success, unless it opens a file under a number that does not fit (`Succeeded.not_fails`). Statements
about machines are read off these, and no call is unfolded again.
-/

namespace Hostcall

/-- Whether an answer reports a failure: a negative number, or no path. Three calls never fail. -/
def Request.Fails : (request : Request) → request.Reply → Prop
  | .write .., n => n < 0
  | .read .., (n, _) => n < 0
  | .openFile .., n => n < 0
  | .close .., n => n < 0
  | .unlink .., n => n < 0
  | .mkdir .., n => n < 0
  | .chdir .., n => n < 0
  | .getcwd .., (path, _) => path = none
  | .lseek .., n => n < 0
  | .errno, _ => False
  | .strerror .., _ => False
  | .sleep .., _ => False
  | .usleep .., n => n < 0

/-- Whether the caller's buffer, if the call has one, came back as it was. -/
def Request.KeepsBuffer : (request : Request) → request.Reply → Prop
  | .read _ buffer, (_, filled) => filled = buffer
  | .getcwd buffer, (_, filled) => filled = buffer
  | _, _ => True

namespace Machine

variable {m after : Machine} {fd : Fd} {count : Nat}

/-! ## Single calls -/

@[simp] theorem later_tree (m : Machine) (micros : Nat) : (m.later micros).tree = m.tree := rfl

@[simp] theorem later_cwd (m : Machine) (micros : Nat) : (m.later micros).cwd = m.cwd := rfl

@[simp] theorem later_files (m : Machine) (micros : Nat) : (m.later micros).files = m.files := rfl

@[simp] theorem entry?_later (m : Machine) (micros : Nat) (fd : Fd) :
    entry? (m.later micros) fd = m.entry? fd := rfl

@[simp] theorem later_errno (m : Machine) (micros : Nat) : (m.later micros).errno = m.errno := rfl

/-- A write that succeeds, with the number of bytes taken and the machine after it. -/
inductive Wrote (m : Machine) (fd : Fd) (data : Bytes) : Nat → Machine → Prop where
  | stalled {file : OpenFile} (entry : m.entry? fd = some file) (input : file ≠ .stdin)
      (stall : m.stalled = true) : Wrote m fd data 0 m
  | stdout (entry : m.entry? fd = some .stdout) (runs : m.stalled = false) :
      Wrote m fd data (m.capped data).length { m with stdout := m.stdout.append (m.capped data) }
  | stderr (entry : m.entry? fd = some .stderr) (runs : m.stalled = false) :
      Wrote m fd data (m.capped data).length { m with stderr := m.stderr.append (m.capped data) }
  | file {path : String} {position : Nat} {flags : OpenFlags} {tree : Tree}
      (entry : m.entry? fd = some (.file path position flags)) (runs : m.stalled = false)
      (writes : flags.writes = true)
      (written : m.tree.writeAt path (m.writeStart path position flags) (m.capped data) =
        .ok tree) :
      Wrote m fd data (m.capped data).length
        ({ m with tree }.movedTo fd path
          (m.writeStart path position flags + (m.capped data).length) flags)

/-- A write that succeeds went to a stream or a file, or stalled. -/
theorem wrote_of_write {data : Bytes} (h : m.write fd data = .ok (count, after)) :
    Wrote m fd data count after := by
  unfold write at h
  split at h
  · contradiction
  · contradiction
  rename_i file hinput hentry
  split at h
  · rename_i hstall
    obtain ⟨rfl, rfl⟩ := Prod.mk.inj (Except.ok.inj h)
    exact .stalled hentry hinput hstall
  rename_i hruns
  have hruns : m.stalled = false := Bool.eq_false_iff.2 hruns
  cases file with
  | stdin => contradiction
  | stdout =>
    obtain ⟨rfl, rfl⟩ := Prod.mk.inj (Except.ok.inj h)
    exact .stdout hentry hruns
  | stderr =>
    obtain ⟨rfl, rfl⟩ := Prod.mk.inj (Except.ok.inj h)
    exact .stderr hentry hruns
  | file path position flags =>
    simp only [deliver] at h
    split at h
    · rename_i hwrites
      obtain ⟨tree, htree, h⟩ := ok_of_bind h
      obtain ⟨rfl, rfl⟩ := Prod.mk.inj (Except.ok.inj h)
      exact .file hentry hruns hwrites htree
    · contradiction

/-- A read that succeeds, with the bytes read and the machine after it. -/
inductive WasRead (m : Machine) (fd : Fd) (count : Nat) : Bytes → Machine → Prop where
  | stdin (entry : m.entry? fd = some .stdin) :
      WasRead m fd count ((m.stdin.drop m.stdinPosition).take count)
        { m with
          stdinPosition := m.stdinPosition + ((m.stdin.drop m.stdinPosition).take count).length }
  | file {path : String} {position : Nat} {flags : OpenFlags}
      (entry : m.entry? fd = some (.file path position flags)) (reads : flags.reads = true) :
      WasRead m fd count (m.tree.readAt path position count)
        (m.movedTo fd path (position + (m.tree.readAt path position count).length) flags)

/-- A read that succeeds came from stdin or a file. -/
theorem wasRead_of_read {data : Bytes} (h : m.read fd count = .ok (data, after)) :
    WasRead m fd count data after := by
  unfold read at h
  split at h
  · rename_i hentry
    obtain ⟨rfl, rfl⟩ := Prod.mk.inj (Except.ok.inj h)
    exact .stdin hentry
  · rename_i path position flags hentry
    split at h
    · rename_i hreads
      obtain ⟨rfl, rfl⟩ := Prod.mk.inj (Except.ok.inj h)
      exact .file hentry hreads
    · contradiction
  · contradiction

/-- An open that succeeds has opened in the tree and added an entry. -/
theorem eq_of_openFile {path : CString} {flags : OpenFlags} {mode : Mode}
    (h : m.openFile path flags mode = .ok (count, after)) :
    flags.access ≠ ⟨OpenFlags.accessMask⟩ ∧ ∃ place tree, m.place path = .ok place ∧
      m.openTree place flags mode = .ok tree ∧
      count = (m.files.insert (.file place 0 flags)).1 ∧
      after = { m with tree, files := (m.files.insert (.file place 0 flags)).2 } := by
  unfold openFile at h
  split at h
  · contradiction
  rename_i haccess
  obtain ⟨place, hplace, h⟩ := ok_of_bind h
  obtain ⟨tree, htree, h⟩ := ok_of_bind h
  obtain ⟨rfl, rfl⟩ := Prod.mk.inj (Except.ok.inj h)
  exact ⟨haccess, place, tree, hplace, htree, rfl, rfl⟩

/-- A close that succeeds has taken an entry out. -/
theorem eq_of_close (h : m.close fd = .ok (count, after)) :
    (∃ file, m.entry? fd = some file) ∧ count = 0 ∧
      after = { m with files := m.files.erase fd.number.toNat } := by
  unfold close at h
  split at h
  · contradiction
  · rename_i file hentry
    obtain ⟨rfl, rfl⟩ := Prod.mk.inj (Except.ok.inj h)
    exact ⟨⟨file, hentry⟩, rfl, rfl⟩

/-- A removal that succeeds has changed the tree and nothing else. -/
theorem eq_of_unlink {path : CString} (h : m.unlink path = .ok (count, after)) :
    ∃ place tree, m.place path = .ok place ∧ m.tree.remove place = .ok tree ∧ count = 0 ∧
      after = { m with tree } := by
  obtain ⟨place, hplace, h⟩ := ok_of_bind h
  obtain ⟨tree, htree, h⟩ := ok_of_bind h
  obtain ⟨rfl, rfl⟩ := Prod.mk.inj (Except.ok.inj h)
  exact ⟨place, tree, hplace, htree, rfl, rfl⟩

/-- So has a new directory. -/
theorem eq_of_mkdir {path : CString} {mode : Mode} (h : m.mkdir path mode = .ok (count, after)) :
    ∃ place tree, m.place path = .ok place ∧ m.tree.createDirectory place mode = .ok tree ∧
      count = 0 ∧ after = { m with tree } := by
  obtain ⟨place, hplace, h⟩ := ok_of_bind h
  obtain ⟨tree, htree, h⟩ := ok_of_bind h
  obtain ⟨rfl, rfl⟩ := Prod.mk.inj (Except.ok.inj h)
  exact ⟨place, tree, hplace, htree, rfl, rfl⟩

/-- A change of directory that succeeds has changed the text and nothing else. -/
theorem eq_of_chdir {path : CString} (h : m.chdir path = .ok (count, after)) :
    ∃ place mode, m.place path = .ok place ∧ m.tree.get? place = some (.directory mode) ∧
      count = 0 ∧ after = { m with cwd := place } := by
  obtain ⟨place, hplace, h⟩ := ok_of_bind h
  split at h
  · rename_i mode hmode
    obtain ⟨rfl, rfl⟩ := Prod.mk.inj (Except.ok.inj h)
    exact ⟨place, mode, hplace, hmode, rfl, rfl⟩
  · contradiction
  · contradiction

/-- What a seek counts from, on a descriptor of a file. -/
def seekBase? (m : Machine) (path : String) (position : Nat) (whence : Int) : Option Nat :=
  (Whence.ofCode? whence).map fun
    | .start => 0
    | .current => position
    | .finish => m.tree.endOf path

/-- A seek in a file, with the order in which its failures are looked for. -/
theorem lseek_eq {path : String} {position : Nat} {flags : OpenFlags}
    (entry : m.entry? fd = some (.file path position flags)) (offset whence : Int) :
    m.lseek fd offset whence =
      match m.seekBase? path position whence with
      | none => .error .invalidArgument
      | some base =>
        if maxPosition < base + offset then .error .valueOverflow
        else if base + offset < 0 then .error .invalidArgument
        else .ok (base + offset, m.movedTo fd path (base + offset).toNat flags) := by
  unfold lseek seekBase?
  rw [entry]
  cases Whence.ofCode? whence with
  | none => rfl
  | some w =>
    cases w <;>
    · simp only [Option.map_some, pure, Except.pure, bind, Except.bind]
      split
      · rfl
      · split <;> rfl

/-- A seek that succeeds has moved one descriptor to the exact sum. -/
theorem eq_of_lseek {offset whence target : Int}
    (h : m.lseek fd offset whence = .ok (target, after)) :
    ∃ path position flags base, m.entry? fd = some (.file path position flags) ∧
      m.seekBase? path position whence = some base ∧ target = base + offset ∧ 0 ≤ target ∧
      target ≤ maxPosition ∧ after = m.movedTo fd path target.toNat flags := by
  cases hentry : m.entry? fd with
  | none => simp [lseek, hentry] at h
  | some file =>
    cases file with
    | stdin => simp [lseek, hentry] at h
    | stdout => simp [lseek, hentry] at h
    | stderr => simp [lseek, hentry] at h
    | file path position flags =>
      rw [lseek_eq hentry] at h
      split at h
      · contradiction
      rename_i base hbase
      split at h
      · contradiction
      rename_i hmax
      split at h
      · contradiction
      rename_i hmin
      obtain ⟨rfl, rfl⟩ := Prod.mk.inj (Except.ok.inj h)
      exact ⟨path, position, flags, base, rfl, hbase, rfl, Int.not_lt.1 hmin, Int.not_lt.1 hmax,
        rfl⟩

/-- A short sleep that succeeds has moved the clock and nothing else. -/
theorem eq_of_usleep {micros : Nat} (h : m.usleep micros = .ok (count, after)) :
    micros < 1000000 ∧ count = 0 ∧ after = m.later micros := by
  unfold usleep at h
  split at h
  · contradiction
  · rename_i hshort
    obtain ⟨rfl, rfl⟩ := Prod.mk.inj (Except.ok.inj h)
    exact ⟨Nat.not_le.1 hshort, rfl, rfl⟩

/-- A path that is given had room in the buffer. -/
theorem eq_of_getcwd {length : Nat} {path : Bytes} (h : m.getcwd length = .ok path) :
    0 < length ∧ (Utf8.encode m.cwd).length < length ∧ path = Utf8.encode m.cwd ++ [0] := by
  unfold getcwd at h
  dsimp only at h
  split at h
  · contradiction
  rename_i hlength
  split at h
  · contradiction
  rename_i hroom
  rw [List.length_append, List.length_singleton] at hroom
  exact ⟨by omega, by omega, (Except.ok.inj h).symm⟩

/-! ## Any call -/

/-- The machine that has counted a call and not answered it yet. -/
def counted (m : Machine) (request : Request) : Machine :=
  { m with calls := m.calls.add request }

@[simp] theorem counted_stalled (m : Machine) (request : Request) :
    (m.counted request).stalled = m.stalled := rfl

theorem perform_write (m : Machine) (fd : Fd) (data : Bytes) :
    m.perform (.write fd data) =
      (m.counted (.write fd data)).settle ((m.counted (.write fd data)).write fd data) := rfl

theorem perform_close (m : Machine) (fd : Fd) :
    m.perform (.close fd) =
      match m.entry? fd with
      | none => ((-1 : Int), (m.counted (.close fd)).failed .badDescriptor)
      | some _ =>
        ((0 : Int), { m.counted (.close fd) with files := m.files.erase fd.number.toNat }) := by
  show (m.counted (.close fd)).settle ((m.counted (.close fd)).close fd) = _
  rw [close, show entry? (m.counted (.close fd)) fd = m.entry? fd from rfl]
  cases m.entry? fd <;> rfl

/-- What the tree allows is opened under the next key. -/
theorem openFile_of_openTree {name : CString} {flags : OpenFlags} {mode : Mode} {path : String}
    {tree : Tree} (access : flags.access ≠ ⟨OpenFlags.accessMask⟩) (named : m.place name = .ok path)
    (opened : m.openTree path flags mode = .ok tree) :
    m.openFile name flags mode =
      .ok (m.files.next, { m with tree, files := (m.files.insert (.file path 0 flags)).2 }) := by
  rw [openFile, if_neg access, named]
  show (m.openTree path flags mode >>= _) = _
  rw [opened, ← SlotTable.insert_fst m.files (.file path 0 flags)]
  rfl

/-- The answer to such an open is the key, cast. -/
theorem perform_openFile_of_openTree {name : CString} {flags : OpenFlags} {mode : Mode}
    {path : String} {tree : Tree} (access : flags.access ≠ ⟨OpenFlags.accessMask⟩)
    (named : m.place name = .ok path) (opened : m.openTree path flags mode = .ok tree) :
    m.perform (.openFile name flags mode) =
      (CInt.ofNat m.files.next,
        { m.counted (.openFile name flags mode) with
          tree, files := (m.files.insert (.file path 0 flags)).2 }) := by
  let counted := m.counted (.openFile name flags mode)
  have added := openFile_of_openTree (m := counted) access named opened
  show counted.respond (.openFile name flags mode) = _
  rw [respond, added]
  rfl

/-- An open fails for a reason, or it adds a descriptor of the place that its name resolves to. -/
theorem perform_openFile_cases (m : Machine) (name : CString) (flags : OpenFlags) (mode : Mode) :
    (∃ e, m.perform (.openFile name flags mode) =
      ((-1 : Int), (m.counted (.openFile name flags mode)).failed e)) ∨
    ∃ place tree, m.place name = .ok place ∧ m.openTree place flags mode = .ok tree ∧
      m.perform (.openFile name flags mode) =
        (CInt.ofNat (m.files.insert (.file place 0 flags)).1,
          { m.counted (.openFile name flags mode) with
            tree, files := (m.files.insert (.file place 0 flags)).2 }) := by
  let counted := m.counted (.openFile name flags mode)
  show (∃ e, counted.respond (.openFile name flags mode) = ((-1 : Int), counted.failed e)) ∨
    ∃ place tree, m.place name = .ok place ∧ m.openTree place flags mode = .ok tree ∧
      counted.respond (.openFile name flags mode) = _
  simp only [respond]
  cases result : counted.openFile name flags mode with
  | error e => exact .inl ⟨e, rfl⟩
  | ok answer =>
    obtain ⟨key, after⟩ := answer
    obtain ⟨-, place, tree, resolved, opened, rfl, rfl⟩ := eq_of_openFile result
    exact .inr ⟨place, tree, resolved, opened, rfl⟩

/-- A write that took something succeeded, with its answer as the number of bytes. -/
theorem exists_wrote_of_taken {data : Bytes} {n : Int}
    (answer : m.perform (.write fd data) = (n, after)) (taken : 0 < n) :
    ∃ count : Nat, n = count ∧ Wrote (m.counted (.write fd data)) fd data count after := by
  rw [perform_write] at answer
  cases written : (m.counted (.write fd data)).write fd data with
  | error e =>
    rw [written] at answer
    obtain ⟨rfl, rfl⟩ := Prod.mk.inj answer
    contradiction
  | ok pair =>
    obtain ⟨count, after⟩ := pair
    rw [written] at answer
    obtain ⟨rfl, rfl⟩ := Prod.mk.inj answer
    exact ⟨count, rfl, wrote_of_write written⟩

/-- A call that takes effect, with its answer and the machine after it. -/
inductive Succeeded (m : Machine) : (request : Request) → request.Reply → Machine → Prop where
  | write {fd : Fd} {data : Bytes} {count : Nat} {after : Machine}
      (wrote : Wrote m fd data count after) : Succeeded m (.write fd data) (count : Int) after
  | read {fd : Fd} {buffer data : Bytes} {after : Machine}
      (read : WasRead m fd buffer.length data after) :
      Succeeded m (.read fd buffer) ((data.length : Int), Bytes.overlay buffer data) after
  | openFile {path : CString} {flags : OpenFlags} {mode : Mode} {place : String} {tree : Tree}
      (access : flags.access ≠ ⟨OpenFlags.accessMask⟩) (resolved : m.place path = .ok place)
      (opened : m.openTree place flags mode = .ok tree) :
      Succeeded m (.openFile path flags mode) (CInt.ofNat (m.files.insert (.file place 0 flags)).1)
        { m with tree, files := (m.files.insert (.file place 0 flags)).2 }
  | close {fd : Fd} {file : OpenFile} (entry : m.entry? fd = some file) :
      Succeeded m (.close fd) (0 : Int) { m with files := m.files.erase fd.number.toNat }
  | unlink {path : CString} {place : String} {tree : Tree} (resolved : m.place path = .ok place)
      (removed : m.tree.remove place = .ok tree) :
      Succeeded m (.unlink path) (0 : Int) { m with tree }
  | mkdir {path : CString} {mode : Mode} {place : String} {tree : Tree}
      (resolved : m.place path = .ok place)
      (created : m.tree.createDirectory place mode = .ok tree) :
      Succeeded m (.mkdir path mode) (0 : Int) { m with tree }
  | chdir {path : CString} {place : String} {mode : Mode} (resolved : m.place path = .ok place)
      (directory : m.tree.get? place = some (.directory mode)) :
      Succeeded m (.chdir path) (0 : Int) { m with cwd := place }
  | getcwd {buffer : Bytes} (room : (Utf8.encode m.cwd).length < buffer.length) :
      Succeeded m (.getcwd buffer)
        (some (Bytes.beforeNul (Bytes.overlay buffer (Utf8.encode m.cwd ++ [0]))),
          Bytes.overlay buffer (Utf8.encode m.cwd ++ [0])) m
  | lseek {fd : Fd} {offset whence : Int} {path : String} {position base : Nat} {flags : OpenFlags}
      (entry : m.entry? fd = some (.file path position flags))
      (origin : m.seekBase? path position whence = some base) (min : 0 ≤ base + offset)
      (max : base + offset ≤ maxPosition) :
      Succeeded m (.lseek fd offset whence) (base + offset)
        (m.movedTo fd path (base + offset).toNat flags)
  | errno : Succeeded m .errno m.errno m
  | strerror (code : Int) :
      Succeeded m (.strerror code) ((SysError.ofCode? code).map fun e => Utf8.encode e.text) m
  | sleep (seconds : Nat) : Succeeded m (.sleep seconds) (0 : Nat) (m.later (seconds * 1000000))
  | usleep {micros : Nat} (short : micros < 1000000) :
      Succeeded m (.usleep micros) (0 : Int) (m.later micros)

/-- Whether the number fits that a call would give to a new descriptor. -/
def Numbered (m : Machine) : Request → Prop
  | .openFile .. => m.files.next < CInt.bound
  | _ => True

/-- What takes effect is reported as a success, with the number of a descriptor that fits. -/
theorem Succeeded.not_fails {request : Request} {reply : request.Reply}
    (h : Succeeded m request reply after) (numbered : m.Numbered request) :
    ¬ request.Fails reply := by
  cases h with
  | write => exact Int.not_lt.2 (Int.natCast_nonneg _)
  | read => exact Int.not_lt.2 (Int.natCast_nonneg _)
  | openFile =>
    rw [SlotTable.insert_fst, CInt.ofNat_eq numbered]
    exact Int.not_lt.2 (Int.natCast_nonneg _)
  | getcwd => exact Option.some_ne_none _
  | lseek entry origin min max => exact Int.not_lt.2 min
  | close => exact Int.lt_irrefl 0
  | unlink => exact Int.lt_irrefl 0
  | mkdir => exact Int.lt_irrefl 0
  | chdir => exact Int.lt_irrefl 0
  | usleep => exact Int.lt_irrefl 0
  | errno => exact id
  | strerror => exact id
  | sleep => exact id

/-- An answer is a failure, which only the register shows, or what the call came to. -/
theorem settle_cases {x : Except SysError (Nat × Machine)} {P : Int → Machine → Prop}
    (success : ∀ n after, x = .ok (n, after) → P n after) :
    ((m.settle x).1 < 0 ∧ ∃ e, (m.settle x).2 = m.failed e) ∨
      P (m.settle x).1 (m.settle x).2 := by
  cases x with
  | error e => exact .inl ⟨show (-1 : Int) < 0 by decide, e, rfl⟩
  | ok answer =>
    obtain ⟨n, after⟩ := answer
    exact .inr (success n after rfl)

/-- A call fails for a reason and keeps the caller's buffer, or it takes effect. -/
theorem respond_cases (m : Machine) (request : Request) :
    (request.Fails (m.respond request).1 ∧ request.KeepsBuffer (m.respond request).1 ∧
      ∃ e, (m.respond request).2 = m.failed e) ∨
    Succeeded m request (m.respond request).1 (m.respond request).2 := by
  -- Most calls are settled alike. The others answer with more than a number.
  have settled {x : Except SysError (Nat × Machine)} {P : Int → Machine → Prop}
      (success : ∀ n after, x = .ok (n, after) → P n after) :
      ((m.settle x).1 < 0 ∧ True ∧ ∃ e, (m.settle x).2 = m.failed e) ∨
        P (m.settle x).1 (m.settle x).2 :=
    (settle_cases success).imp (fun h => ⟨h.1, trivial, h.2⟩) id
  cases request with
  | write fd data => exact settled fun n after h => .write (wrote_of_write h)
  | openFile path flags mode =>
    simp only [respond]
    split
    · rename_i key after result
      obtain ⟨access, place, tree, resolved, opened, rfl, rfl⟩ := eq_of_openFile result
      exact .inr (.openFile access resolved opened)
    · rename_i e result
      exact .inl ⟨show (-1 : Int) < 0 by decide, trivial, e, rfl⟩
  | close fd =>
    apply settled
    intro n after h
    obtain ⟨⟨file, entry⟩, rfl, rfl⟩ := eq_of_close h
    exact .close entry
  | unlink path =>
    apply settled
    intro n after h
    obtain ⟨place, tree, resolved, removed, rfl, rfl⟩ := eq_of_unlink h
    exact .unlink resolved removed
  | mkdir path mode =>
    apply settled
    intro n after h
    obtain ⟨place, tree, resolved, created, rfl, rfl⟩ := eq_of_mkdir h
    exact .mkdir resolved created
  | chdir path =>
    apply settled
    intro n after h
    obtain ⟨place, mode, resolved, directory, rfl, rfl⟩ := eq_of_chdir h
    exact .chdir resolved directory
  | usleep micros =>
    apply settled
    intro n after h
    obtain ⟨short, rfl, rfl⟩ := eq_of_usleep h
    exact .usleep short
  | errno => exact .inr .errno
  | strerror code => exact .inr (.strerror code)
  | sleep seconds => exact .inr (.sleep seconds)
  | read fd buffer =>
    simp only [respond]
    split
    · rename_i data after hread
      exact .inr (.read (wasRead_of_read hread))
    · rename_i e hread
      exact .inl ⟨show (-1 : Int) < 0 by decide, rfl, e, rfl⟩
  | getcwd buffer =>
    simp only [respond]
    split
    · rename_i path hpath
      obtain ⟨-, room, rfl⟩ := eq_of_getcwd hpath
      exact .inr (.getcwd room)
    · rename_i e hpath
      exact .inl ⟨rfl, rfl, e, rfl⟩
  | lseek fd offset whence =>
    simp only [respond]
    split
    · rename_i n after hseek
      obtain ⟨path, position, flags, base, entry, origin, rfl, min, max, rfl⟩ := eq_of_lseek hseek
      exact .inr (.lseek entry origin min max)
    · rename_i e hseek
      exact .inl ⟨show (-1 : Int) < 0 by decide, trivial, e, rfl⟩

/-- Whether a call takes effect: it reports a success, or it has opened a file all the same. -/
def TakesEffect (m : Machine) (request : Request) : Prop :=
  ¬ request.Fails (m.perform request).1 ∨ (m.perform request).2.files ≠ m.files

/-- An open that succeeds changes the table. -/
theorem Succeeded.files_ne {path : CString} {flags : OpenFlags} {mode : Mode} {n : Int}
    (h : Succeeded m (.openFile path flags mode) n after) : after.files ≠ m.files := by
  cases h
  exact SlotTable.insert_ne _ _

/-- A call that takes no effect has failed for a reason and kept the caller's buffer. -/
theorem takesEffect_cases (m : Machine) (request : Request) :
    (¬ m.TakesEffect request ∧ request.Fails (m.perform request).1 ∧
      request.KeepsBuffer (m.perform request).1 ∧
      ∃ e, (m.perform request).2 = (m.counted request).failed e) ∨
    (m.TakesEffect request ∧
      Succeeded (m.counted request) request (m.perform request).1 (m.perform request).2) := by
  rcases respond_cases (m.counted request) request with ⟨fails, buffer, e, failed⟩ | succeeded
  · have failed : (m.perform request).2 = (m.counted request).failed e := failed
    refine .inl ⟨?_, fails, buffer, e, failed⟩
    rintro (passes | changed)
    · exact passes fails
    · rw [failed] at changed
      exact changed rfl
  · refine .inr ⟨?_, succeeded⟩
    cases request with
    | openFile path flags mode => exact .inr succeeded.files_ne
    | _ => exact .inl (succeeded.not_fails trivial)

/-- An open takes effect exactly when the host opens, whatever number it is answered with. -/
theorem takesEffect_openFile_iff (m : Machine) (name : CString) (flags : OpenFlags) (mode : Mode) :
    m.TakesEffect (.openFile name flags mode) ↔
      ∃ answer, (m.counted (.openFile name flags mode)).openFile name flags mode = .ok answer := by
  have answered : m.perform (.openFile name flags mode) =
      (m.counted (.openFile name flags mode)).respond (.openFile name flags mode) := rfl
  rw [TakesEffect, answered]
  simp only [respond]
  cases opened : (m.counted (.openFile name flags mode)).openFile name flags mode with
  | error e => simp [Request.Fails, failed, counted]
  | ok answer =>
    obtain ⟨key, after⟩ := answer
    obtain ⟨-, place, tree, -, -, -, rfl⟩ := eq_of_openFile opened
    exact iff_of_true (.inr (SlotTable.insert_ne _ _)) ⟨_, rfl⟩

/-- After a call the machine has counted it, and then it has failed for a reason, or the call took
effect. -/
theorem perform_cases (m : Machine) (request : Request) :
    (∃ e, (m.perform request).2 = (m.counted request).failed e) ∨
      Succeeded (m.counted request) request (m.perform request).1 (m.perform request).2 := by
  rcases respond_cases (m.counted request) request with ⟨-, -, e, he⟩ | h
  · exact .inl ⟨e, he⟩
  · exact .inr h

end Machine

end Hostcall
