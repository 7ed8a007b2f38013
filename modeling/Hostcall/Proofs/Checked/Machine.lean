import Hostcall.Proofs.Checked.Tree
import Hostcall.Proofs.Machine.Bounds

/-!
# The calls in machine words

The calls that go by descriptors, paths and buffers once more, with every offset, size and index
computed in machine words (`perform`). Each gives what it gives without words, as long as the bounds
of the machine hold (`write_eq`, `read_eq`, …).
-/

namespace Hostcall.Checked

variable {m : Machine}

/-- The machine that has counted a call. -/
def counted (m : Machine) (request : Request) : Checked Machine :=
  (add (m.calls.of request) 1).map fun _ => m.counted request

/-- The place that a path names. -/
def place (m : Machine) (path : CString) : Checked String := do
  let view ← beforeNul path.bytes
  match m.resolve (Utf8.decode view) with
  | some path => return path
  | none => refuse .notFound

/-- Moves the position of a descriptor, if it is one of a file. -/
def setPosition (m : Machine) (fd : Fd) (position : Nat) : Checked Machine := do
  let key ← unsigned fd.number
  match m.files.get? key with
  | some (.file path _ flags) =>
    return { m with files := m.files.update key (.file path position flags) }
  | _ => return m

/-- Where a write to a file begins. -/
def writeStart (m : Machine) (path : String) (position : Nat) (flags : OpenFlags) : Checked Nat :=
  if flags.appends then word (m.tree.endOf path) else .ok position

/-- The bytes that one write takes at most. -/
def capped (m : Machine) (data : Bytes) : Checked Bytes :=
  match m.writeCap with
  | some cap => slice data 0 (min data.length cap)
  | none => .ok data

/-- Writes bytes to what a descriptor stands for. -/
def deliver (m : Machine) (fd : Fd) (chunk : Bytes) : OpenFile → Checked (Int × Machine)
  | .stdin => refuse .badDescriptor
  | .stdout => do
    return (← signed chunk.length, { m with stdout := m.stdout.append chunk })
  | .stderr => do
    return (← signed chunk.length, { m with stderr := m.stderr.append chunk })
  | .file path position flags =>
    if flags.writes then do
      let start ← writeStart m path position flags
      let tree ← writeAt m.tree path start chunk
      let stop ← add start (← word chunk.length)
      let after ← setPosition { m with tree } fd stop
      return (← signed chunk.length, after)
    else refuse .badDescriptor

/-- Writes to a descriptor. -/
def write (m : Machine) (fd : Fd) (data : Bytes) : Checked (Int × Machine) :=
  match m.entry? fd with
  | none => refuse .badDescriptor
  | some .stdin => refuse .badDescriptor
  | some file =>
    if m.stalled then .ok (0, m)
    else do
      let chunk ← capped m data
      deliver m fd chunk file

/-- Reads from a descriptor into a buffer. -/
def read (m : Machine) (fd : Fd) (buffer : Bytes) : Checked ((Int × Bytes) × Machine) :=
  match m.entry? fd with
  | some .stdin => do
    let left ← sub m.stdin.length m.stdinPosition
    let count := min left buffer.length
    let stop ← add m.stdinPosition count
    let data ← slice m.stdin m.stdinPosition stop
    let buffer ← copyInto buffer 0 count data
    return ((← signed count, buffer), { m with stdinPosition := stop })
  | some (.file path position flags) =>
    if flags.reads then do
      let (count, buffer) ← readAt m.tree path position buffer
      let stop ← add position (← word count)
      let m ← setPosition m fd stop
      return ((← signed count, buffer), m)
    else refuse .badDescriptor
  | _ => refuse .badDescriptor

/-- The tree after a file was opened. -/
def openTree (m : Machine) (path : String) (flags : OpenFlags) (mode : Mode) : Checked Tree :=
  match m.tree.get? path with
  | some (.directory _) => refuse .isDirectory
  | some (.file ..) =>
    if flags.creates && flags.excludes then refuse .alreadyExists
    else if flags.truncates && flags.writes then permitted (m.tree.truncate path)
    else .ok m.tree
  | none => if flags.creates then create m.tree path (.file .empty mode) else refuse .notFound

/-- Opens a file. -/
def openFile (m : Machine) (path : CString) (flags : OpenFlags) (mode : Mode) :
    Checked (Int × Machine) :=
  if flags.access = ⟨OpenFlags.accessMask⟩ then refuse .invalidArgument
  else do
    let path ← place m path
    let tree ← openTree m path flags mode
    let (key, files) := m.files.insert (.file path 0 flags)
    return (← descriptor key, { m with tree, files })

/-- Closes a descriptor. -/
def close (m : Machine) (fd : Fd) : Checked (Int × Machine) :=
  match m.entry? fd with
  | none => refuse .badDescriptor
  | some _ => do
    let key ← unsigned fd.number
    return (0, { m with files := m.files.erase key })

/-- Removes a file. -/
def unlink (m : Machine) (path : CString) : Checked (Int × Machine) := do
  let path ← place m path
  let tree ← permitted (m.tree.remove path)
  return (0, { m with tree })

/-- Adds a directory. -/
def mkdir (m : Machine) (path : CString) (mode : Mode) : Checked (Int × Machine) := do
  let path ← place m path
  let tree ← create m.tree path (.directory mode)
  return (0, { m with tree })

/-- Changes the current directory. -/
def chdir (m : Machine) (path : CString) : Checked (Int × Machine) := do
  let path ← place m path
  match m.tree.get? path with
  | some (.directory _) => return (0, { m with cwd := path })
  | some (.file ..) => refuse .notDirectory
  | none => refuse .notFound

/-- Copies the current directory with its NUL into a buffer. -/
def getcwd (m : Machine) (buffer : Bytes) : Checked (Option Bytes × Bytes) :=
  if buffer = [] then refuse .invalidArgument
  else do
    let path := Utf8.encode m.cwd
    let needed ← add path.length 1
    if buffer.length < needed then refuse .resultRange
    else
      let buffer ← copyInto buffer 0 path.length path
      let buffer ← store buffer path.length 0
      return (some (← beforeNul buffer), buffer)

/-- What a seek counts from. -/
def seekBase (m : Machine) (path : String) (position : Nat) (whence : Int) : Checked Int :=
  match Whence.ofCode? whence with
  | some .start => .ok 0
  | some .current => signed position
  | some .finish => word (m.tree.endOf path) >>= signed
  | none => refuse .invalidArgument

/-- Moves the position of a descriptor. -/
def lseek (m : Machine) (fd : Fd) (offset whence : Int) : Checked (Int × Machine) :=
  match m.entry? fd with
  | none => refuse .badDescriptor
  | some (.file path position _) => do
    let base ← seekBase m path position whence
    match signedSum? base offset with
    | none => refuse .valueOverflow
    | some target =>
      if target < 0 then refuse .invalidArgument
      else
        let position ← unsigned target
        return (target, ← setPosition m fd position)
  | some _ => refuse .illegalSeek

/-- The answer to a call, that of a failure if the call was refused. -/
def settle {α : Type} (m : Machine) (failure : α) : Checked (α × Machine) → Checked (α × Machine)
  | .ok answer => .ok answer
  | .error (.refused e) => .ok (failure, m.failed e)
  | .error (.faulted fault) => .error (.faulted fault)

/-- The answer to a call, and the machine after it, not counting the call. The calls that have no
descriptor, no path and no buffer compute with no offset and no size. -/
def respond (m : Machine) : (request : Request) → Checked (request.Reply × Machine)
  | .write fd data => settle m (-1 : Int) (write m fd data)
  | .read fd buffer => settle m ((-1 : Int), buffer) (read m fd buffer)
  | .openFile path flags mode => settle m (-1 : Int) (openFile m path flags mode)
  | .close fd => settle m (-1 : Int) (close m fd)
  | .unlink path => settle m (-1 : Int) (unlink m path)
  | .mkdir path mode => settle m (-1 : Int) (mkdir m path mode)
  | .chdir path => settle m (-1 : Int) (chdir m path)
  | .getcwd buffer => settle m (none, buffer) ((getcwd m buffer).map fun answer => (answer, m))
  | .lseek fd offset whence => settle m (-1 : Int) (lseek m fd offset whence)
  | request => .ok (m.respond request)

/-- The answer to a call, and the machine after it. -/
def perform (request : Request) (m : Machine) : Checked (request.Reply × Machine) := do
  let m ← counted m request
  respond m request

/-- An answer with its number as an integer. -/
def asInt (x : Except SysError (Nat × Machine)) : Except SysError (Int × Machine) :=
  x.map fun answer => ((answer.1 : Int), answer.2)

/-- A step that needs no words, and what goes on after it in words as it does without them. -/
theorem permitted_bind_eq {α : Type} (x : Except SysError α) {f : α → Checked (Int × Machine)}
    {g : α → Except SysError (Nat × Machine)} (h : ∀ a, f a = permitted (asInt (g a))) :
    permitted x >>= f = permitted (asInt (x >>= g)) := by
  cases x with
  | error e => rfl
  | ok a => exact h a

/-- A name is resolved without any arithmetic that could go wrong. -/
theorem place_eq (m : Machine) (path : CString) : place m path = permitted (m.place path) := by
  rw [place, beforeNul_eq, bind_ok, Machine.place, CString.hostView]
  cases m.resolve (Utf8.decode (Bytes.beforeNul path.bytes)) <;> rfl

/-- The number of an open descriptor is a key, so its cast back does not wrap. -/
theorem setPosition_eq {fd : Fd} {path : String} {position : Nat} {flags : OpenFlags}
    (entry : m.entry? fd = some (.file path position flags)) (target : Nat) :
    setPosition m fd target = .ok (m.movedTo fd path target flags) := by
  obtain ⟨valid, h⟩ := Machine.entry?_eq_some.1 entry
  rw [setPosition, unsigned_eq valid, bind_ok, h]
  rfl

theorem lt_of_le_maxPosition {position : Nat} (h : (position : Int) ≤ Machine.maxPosition) :
    position < signedCount := by
  have same : Machine.maxPosition = (signedCount : Int) - 1 := by decide
  omega

/-- No file ends past what a signed word can say. -/
theorem endOf_lt {limit : Nat} (within : m.Within limit) (most : limit < signedCount)
    (path : String) : m.tree.endOf path < signedCount := by
  unfold Tree.endOf
  cases file : m.tree.contents? path with
  | none => decide
  | some c => exact Nat.lt_of_le_of_lt (within.size path c file) most

/-- Appending starts at the end of the file, which is a word. -/
theorem writeStart_eq {path : String} (size : m.tree.endOf path < wordCount) (position : Nat)
    (flags : OpenFlags) :
    writeStart m path position flags = .ok (m.writeStart path position flags) := by
  unfold writeStart Machine.writeStart
  split
  · exact word_eq size
  · rfl

theorem capped_eq (m : Machine) (data : Bytes) : capped m data = .ok (m.capped data) := by
  unfold capped Machine.capped
  cases m.writeCap with
  | none => rfl
  | some cap =>
    simp only
    rw [slice_eq (Nat.zero_le _) (Nat.min_le_left _ _), List.drop_zero, Nat.sub_zero]
    congr 1
    exact List.take_eq_take_iff.2 (by omega)

/-- A cap only takes away. -/
theorem length_capped_le (m : Machine) (data : Bytes) :
    (m.capped data).length ≤ data.length := by
  unfold Machine.capped
  split
  · exact List.length_take_le' _ _
  · exact Nat.le_refl _

/-- Delivering a chunk to what its descriptor stands for goes wrong nowhere. -/
theorem deliver_eq {fd : Fd} {file : OpenFile} {chunk : Bytes} (entry : m.entry? fd = some file)
    (fits : chunk.length < signedCount) (size : ∀ path, m.tree.endOf path < wordCount) :
    deliver m fd chunk file = permitted (asInt (m.deliver fd chunk file)) := by
  have words : signedCount < wordCount := by decide
  have limit : Tree.maxFileSize < wordCount := by decide
  cases file with
  | stdin => rfl
  | stdout =>
    rw [deliver, signed_eq fits]
    rfl
  | stderr =>
    rw [deliver, signed_eq fits]
    rfl
  | file path position flags =>
    rw [deliver, Machine.deliver_file]
    split
    · rw [writeStart_eq (size path), bind_ok, writeAt_eq _ _ _ (Nat.lt_trans fits words)]
      cases written : m.tree.writeAt path (m.writeStart path position flags) chunk with
      | error e => rfl
      | ok tree =>
        obtain ⟨_, _, -, room, -⟩ := Tree.writeAt_eq_ok written
        rw [permitted, bind_ok, word_eq (Nat.lt_trans fits words), bind_ok, add_eq (by omega),
          bind_ok, setPosition_eq (m := { m with tree }) entry, bind_ok, signed_eq fits]
        rfl
    · rfl

/-- Neither does a write, for whatever descriptor. -/
theorem write_eq {data : Bytes} (fits : data.length < signedCount)
    (size : ∀ path, m.tree.endOf path < wordCount) (fd : Fd) :
    write m fd data = permitted (asInt (m.write fd data)) := by
  have chunk : (m.capped data).length < signedCount :=
    Nat.lt_of_le_of_lt (length_capped_le m data) fits
  unfold write Machine.write
  cases entry : m.entry? fd with
  | none => rfl
  | some file =>
    have delivered := deliver_eq entry chunk size
    cases file with
    | stdin => rfl
    | _ =>
      simp only [capped_eq, bind_ok, delivered, apply_ite asInt, apply_ite permitted]
      rfl

/-- Reading takes no more bytes than there are, so it ends within the input or the file. -/
theorem read_eq {limit : Nat} (within : m.Within limit) (most : limit < signedCount)
    (input : m.stdin.length < signedCount) (fd : Fd) (buffer : Bytes) :
    read m fd buffer =
      permitted ((m.read fd buffer.length).map fun found =>
        (((found.1.length : Int), Bytes.overlay buffer found.1), found.2)) := by
  have words : signedCount + signedCount = wordCount := by decide
  unfold read Machine.read
  cases entry : m.entry? fd with
  | none => rfl
  | some file =>
    cases file with
    | stdout => rfl
    | stderr => rfl
    | stdin =>
      have start := within.input
      have length : ((m.stdin.drop m.stdinPosition).take buffer.length).length =
          min (m.stdin.length - m.stdinPosition) buffer.length := by
        rw [List.length_take, List.length_drop, Nat.min_comm]
      -- The slice ends where the input does, which is where `take` stops by itself.
      have piece : (m.stdin.drop m.stdinPosition).take (m.stdinPosition +
            min (m.stdin.length - m.stdinPosition) buffer.length - m.stdinPosition) =
          (m.stdin.drop m.stdinPosition).take buffer.length := by
        rw [List.take_eq_take_iff, List.length_drop]
        omega
      simp only
      rw [sub_eq start, bind_ok, add_eq (by omega), bind_ok,
        slice_eq (Nat.le_add_right _ _) (by omega), bind_ok, piece, ← length,
        copyInto_front (List.length_take_le _ _), bind_ok, signed_eq (by rw [length]; omega)]
      rfl
    | file path position flags =>
      have size (c : Contents) (file : m.tree.contents? path = some c) : c.size < wordCount := by
        have held := within.size path c file
        omega
      have reached := lt_of_le_maxPosition (within.position fd path position flags entry)
      have length : (m.tree.readAt path position buffer.length).length < signedCount := by
        rcases Machine.readAt_within m.tree path position buffer.length with
          nothing | ⟨c, file, inside⟩
        · rw [nothing]
          decide
        · have held := within.size path c file
          omega
      simp only
      split
      · rw [readAt_eq size, bind_ok]
        simp only
        rw [word_eq (by omega), bind_ok, add_eq (by omega), bind_ok, setPosition_eq entry, bind_ok,
          signed_eq length]
        rfl
      · rfl

theorem openTree_eq (m : Machine) (path : String) (flags : OpenFlags) (mode : Mode) :
    openTree m path flags mode = permitted (m.openTree path flags mode) := by
  unfold openTree Machine.openTree
  cases m.tree.get? path with
  | none =>
    simp only [apply_ite permitted, create_eq]
    rfl
  | some node =>
    cases node with
    | directory mode => rfl
    | file data mode =>
      simp only [apply_ite permitted]
      rfl

/-- All of an open needs no words but the number of the descriptor. -/
theorem openFile_eq (m : Machine) (path : CString) (flags : OpenFlags) (mode : Mode) :
    openFile m path flags mode = do
      let (key, after) ← permitted (m.openFile path flags mode)
      return (← descriptor key, after) := by
  unfold openFile Machine.openFile
  split
  · rfl
  rw [place_eq]
  cases m.place path with
  | error e => rfl
  | ok place =>
    show (openTree m place flags mode >>= _) = (permitted (m.openTree place flags mode >>= _) >>= _)
    rw [openTree_eq]
    cases m.openTree place flags mode <;> rfl

theorem close_eq (m : Machine) (fd : Fd) : close m fd = permitted (asInt (m.close fd)) := by
  unfold close Machine.close
  cases entry : m.entry? fd with
  | none => rfl
  | some file =>
    simp only
    rw [unsigned_eq (Machine.entry?_eq_some.1 entry).1]
    rfl

theorem unlink_eq (m : Machine) (path : CString) :
    unlink m path = permitted (asInt (m.unlink path)) := by
  rw [unlink, Machine.unlink, place_eq]
  exact permitted_bind_eq _ fun place => permitted_bind_eq _ fun tree => rfl

theorem mkdir_eq (m : Machine) (path : CString) (mode : Mode) :
    mkdir m path mode = permitted (asInt (m.mkdir path mode)) := by
  rw [mkdir, Machine.mkdir, place_eq]
  refine permitted_bind_eq _ fun place => ?_
  rw [create_eq]
  exact permitted_bind_eq _ fun tree => rfl

theorem chdir_eq (m : Machine) (path : CString) :
    chdir m path = permitted (asInt (m.chdir path)) := by
  rw [chdir, Machine.chdir, place_eq]
  refine permitted_bind_eq _ fun place => ?_
  cases m.tree.get? place with
  | none => rfl
  | some node => cases node <;> rfl

/-- What a seek counts from is a signed word. -/
theorem seekBase_eq {path : String} {position : Nat} (reached : position < signedCount)
    (size : m.tree.endOf path < signedCount) (whence : Int) :
    seekBase m path position whence =
      match m.seekBase? path position whence with
      | some base => .ok (base : Int)
      | none => refuse .invalidArgument := by
  have words : signedCount < wordCount := by decide
  unfold seekBase Machine.seekBase?
  cases Whence.ofCode? whence with
  | none => rfl
  | some origin =>
    cases origin with
    | start => rfl
    | current => exact signed_eq reached
    | finish =>
      show word (m.tree.endOf path) >>= signed = _
      rw [word_eq (Nat.lt_trans size words), bind_ok, signed_eq size]
      rfl

/-- The sum that a seek makes is a signed word, unless it is too large to be a position. -/
theorem lseek_eq {limit : Nat} (within : m.Within limit) (most : limit < signedCount)
    {offset : Int} (low : -signedCount ≤ offset) (fd : Fd) (whence : Int) :
    lseek m fd offset whence = permitted (m.lseek fd offset whence) := by
  have same : Machine.maxPosition = (signedCount : Int) - 1 := by decide
  cases entry : m.entry? fd with
  | none => simp only [lseek, Machine.lseek, entry]; rfl
  | some file =>
    cases file with
    | stdin => simp only [lseek, Machine.lseek, entry]; rfl
    | stdout => simp only [lseek, Machine.lseek, entry]; rfl
    | stderr => simp only [lseek, Machine.lseek, entry]; rfl
    | file path position flags =>
      have reached := lt_of_le_maxPosition (within.position fd path position flags entry)
      rw [Machine.lseek_eq entry]
      simp only [lseek, entry, seekBase_eq reached (endOf_lt within most path)]
      cases m.seekBase? path position whence with
      | none => rfl
      | some base =>
        simp only [bind_ok, signedSum?]
        by_cases high : Machine.maxPosition < base + offset
        · rw [if_pos high, if_neg (by omega)]
          rfl
        · rw [if_neg high, if_pos (by omega)]
          simp only
          split
          · rfl
          · rename_i positive
            rw [unsigned_eq (Int.not_lt.1 positive), bind_ok, setPosition_eq entry]
            rfl

/-- Copying a path and storing a NUL after it is copying both. -/
theorem set_overlay {buffer path : Bytes} (room : path.length < buffer.length) :
    (Bytes.overlay buffer path).set path.length 0 = Bytes.overlay buffer (path ++ [0]) := by
  rw [Bytes.overlay, Bytes.overlay, List.take_of_length_le (Nat.le_of_lt room),
    List.take_of_length_le (by rw [List.length_append, List.length_singleton]; omega),
    List.set_append_right _ _ (Nat.le_refl _), Nat.sub_self, List.drop_eq_getElem_cons room,
    List.set_cons_zero, List.length_append, List.append_assoc]
  rfl

/-- The path and its NUL are stored within the buffer or refused. -/
theorem getcwd_eq (fits : (Utf8.encode m.cwd).length < signedCount) (buffer : Bytes) :
    getcwd m buffer =
      permitted ((m.getcwd buffer.length).map fun path =>
        (some (Bytes.beforeNul (Bytes.overlay buffer path)), Bytes.overlay buffer path)) := by
  have words : signedCount < wordCount := by decide
  unfold getcwd Machine.getcwd
  simp only [List.length_append, List.length_singleton]
  by_cases nothing : buffer = []
  · subst nothing
    rfl
  · have length : buffer.length ≠ 0 := mt List.length_eq_zero_iff.1 nothing
    rw [if_neg nothing, if_neg length, add_eq (by omega), bind_ok]
    split
    · rfl
    · rename_i room
      have room : (Utf8.encode m.cwd).length < buffer.length := by omega
      rw [copyInto_front (Nat.le_of_lt room), bind_ok,
        store_eq (by rwa [Bytes.length_overlay]), bind_ok, set_overlay room, beforeNul_eq]
      rfl

end Hostcall.Checked
