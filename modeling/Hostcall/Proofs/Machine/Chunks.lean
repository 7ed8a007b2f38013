import Hostcall.Proofs.Machine.Bounds
import Hostcall.Proofs.Machine.Isolation
import Hostcall.Proofs.Machine.Places

/-!
# Reading in chunks

A descriptor is read from the standard input or from what a file holds, and from a position on
(`source?`). A read takes what its buffer has room for and goes on to the position behind it
(`perform_read_of_source`). A turn that neither moves nor closes the descriptor, and does not write,
empty or remove its file, leaves the source as it is (`source?_turn`). So the pieces that are read
in between such turns add up to what one read would have got, however the buffers are cut
(`chunks_add_up`).
-/

namespace Hostcall

/-- What a buffer holds after shorter data was put into it. -/
theorem Bytes.overlay_of_length_le {buffer data : Bytes} (fits : data.length ≤ buffer.length) :
    Bytes.overlay buffer data = data ++ buffer.drop data.length := by
  rw [Bytes.overlay, List.take_of_length_le fits]

namespace Tree

/-- What the file at a path holds, nothing where there is none. -/
def bytesAt (t : Tree) (path : String) : Bytes := ((t.contents? path).map Contents.bytes).getD []

variable {t : Tree} {path q : String}

/-- Where there is nothing, there is nothing to read. -/
theorem bytesAt_of_absent (absent : t.get? path = none) : t.bytesAt path = [] := by
  rw [bytesAt, contents?, absent]
  rfl

theorem bytesAt_put_file (t : Tree) (path q : String) (c : Contents) (mode : Mode) :
    (t.put path (.file c mode)).bytesAt q = if path = q then c.bytes else t.bytesAt q := by
  unfold bytesAt
  rw [contents?_put_file]
  split <;> rfl

theorem bytesAt_put_directory (absent : t.get? path = none) (q : String) (mode : Mode) :
    (t.put path (.directory mode)).bytesAt q = t.bytesAt q := by
  by_cases same : path = q
  · rw [← same, bytesAt_of_absent absent, bytesAt, contents?_put_directory, if_pos rfl]
    rfl
  · rw [bytesAt, contents?_put_directory, if_neg same]
    rfl

theorem bytesAt_drop_of_ne (different : path ≠ q) : (t.drop path).bytesAt q = t.bytesAt q := by
  rw [bytesAt, contents?_drop, if_neg different]
  rfl

/-- What a file holds from a position on is what is read there. -/
theorem readAt_eq (t : Tree) (path : String) (position count : Nat) :
    t.readAt path position count = ((t.bytesAt path).drop position).take count := by
  unfold readAt bytesAt
  cases t.contents? path with
  | none => simp
  | some c => exact c.slice_eq position count

end Tree

/-- Whether a call moves or closes a descriptor. -/
def Request.Handles (fd : Fd) : Request → Prop
  | .lseek other _ _ => other = fd
  | .close other => other = fd
  | _ => False

instance (fd : Fd) : (request : Request) → Decidable (request.Handles fd)
  | .lseek .. | .close _ => inferInstanceAs (Decidable (_ = _))
  | .write .. | .read .. | .openFile .. | .unlink _ | .mkdir .. | .chdir _ | .getcwd _ | .errno
  | .strerror _ | .sleep _ | .usleep _ => .isFalse id

instance : (request : Request) → (reply : request.Reply) → Decidable (request.Fails reply)
  | .write .., _ | .openFile .., _ | .close _, _ | .unlink _, _ | .mkdir .., _ | .chdir _, _
  | .lseek .., _ | .usleep _, _ => inferInstanceAs (Decidable (_ < (0 : Int)))
  | .read .., (n, _) => inferInstanceAs (Decidable (n < 0))
  | .getcwd _, (path, _) => inferInstanceAs (Decidable (path = none))
  | .errno, _ | .strerror _, _ | .sleep _, _ => .isFalse id

namespace Machine

variable {m n : Machine} {fd : Fd} {path : String} {bytes buffer : Bytes} {position : Nat}
  {request : Request} {turn : Turn} {turns : List Turn}

/-- All bytes that a descriptor is read from, and the position that it has come to. -/
def source? (m : Machine) (fd : Fd) : Option (Bytes × Nat) :=
  match m.entry? fd with
  | some .stdin => some (m.stdin, m.stdinPosition)
  | some (.file path position flags) =>
    if flags.reads then some (m.tree.bytesAt path, position) else none
  | _ => none

/-- Whether a call, if it takes effect, writes, empties or removes the file at a path. -/
def Alters (m : Machine) (path : String) : Request → Prop
  | .write fd _ => m.stalled = false ∧ m.path? fd = some path
  | .openFile name flags _ =>
    m.leads name path = true ∧ flags.truncates = true ∧ flags.writes = true
  | .unlink name => m.leads name path = true
  | _ => False

/-- Whether a turn is a call that takes effect and moves or closes a descriptor other than by
reading, or alters its file. -/
def Interferes (m : Machine) (fd : Fd) : Turn → Prop
  | .call request => m.TakesEffect request ∧
    (request.Handles fd ∨ ∃ path, m.path? fd = some path ∧ m.Alters path request)
  | _ => False

/-- Turns of which none interferes with what a descriptor is read from. -/
def Undisturbed (fd : Fd) (m : Machine) : List Turn → Prop
  | [] => True
  | turn :: turns => ¬ m.Interferes fd turn ∧ (m.turn turn).Undisturbed fd turns

instance (m : Machine) (path : String) : (request : Request) → Decidable (m.Alters path request)
  | .write .. => inferInstanceAs (Decidable (_ ∧ _))
  | .openFile .. => inferInstanceAs (Decidable (_ ∧ _ ∧ _))
  | .unlink _ => inferInstanceAs (Decidable (_ = _))
  | .read .. | .close _ | .mkdir .. | .chdir _ | .getcwd _ | .lseek .. | .errno | .strerror _
  | .sleep _ | .usleep _ => .isFalse id

instance (m : Machine) (fd : Fd) (request : Request) :
    Decidable (∃ path, m.path? fd = some path ∧ m.Alters path request) :=
  match m.path? fd with
  | none => .isFalse fun ⟨_, leads, _⟩ => nomatch leads
  | some path => decidable_of_iff (m.Alters path request) (by simp)

instance (m : Machine) (request : Request) : Decidable (m.TakesEffect request) :=
  inferInstanceAs (Decidable (_ ∨ _))

instance (m : Machine) (fd : Fd) : (turn : Turn) → Decidable (m.Interferes fd turn)
  | .call _ => inferInstanceAs (Decidable (_ ∧ (_ ∨ _)))
  | .stop _ | .resetCalls | .takeStdout | .takeStderr => .isFalse id

instance decidableUndisturbed (fd : Fd) :
    (m : Machine) → (turns : List Turn) → Decidable (m.Undisturbed fd turns)
  | _, [] => .isTrue trivial
  | m, turn :: turns =>
    have := decidableUndisturbed fd (m.turn turn) turns
    inferInstanceAs (Decidable (¬ m.Interferes fd turn ∧ (m.turn turn).Undisturbed fd turns))

/-- The room that a turn offers for reading through a descriptor. -/
def room (fd : Fd) : Turn → Nat
  | .call (.read other buffer) => if other = fd then buffer.length else 0
  | _ => 0

/-- The room that some turns offer for reading through a descriptor. -/
def roomIn (fd : Fd) : List Turn → Nat
  | [] => 0
  | turn :: turns => room fd turn + roomIn fd turns

/-- What is read through a descriptor in a turn, by its answer. -/
def readIn (m : Machine) (fd : Fd) : Turn → Bytes
  | .call (.read other buffer) =>
    if other = fd then
      let (count, filled) := (m.perform (.read other buffer)).1
      filled.take count.toNat
    else []
  | _ => []

/-- What is read through a descriptor in some turns, one piece after the other. -/
def readBy (fd : Fd) (m : Machine) : List Turn → Bytes
  | [] => []
  | turn :: turns => m.readIn fd turn ++ (m.turn turn).readBy fd turns

/-! ## Sources -/

/-- A source depends on the entry of its descriptor, on stdin and on the bytes of its file, and on
nothing else. -/
theorem source?_congr (entry : n.entry? fd = m.entry? fd) (stdin : n.stdin = m.stdin)
    (input : m.entry? fd = some .stdin → n.stdinPosition = m.stdinPosition)
    (held : ∀ path, m.path? fd = some path → n.tree.bytesAt path = m.tree.bytesAt path) :
    n.source? fd = m.source? fd := by
  unfold source?
  rw [entry]
  cases found : m.entry? fd with
  | none => rfl
  | some file =>
    cases file with
    | stdin => simp only [stdin, input found]
    | stdout => rfl
    | stderr => rfl
    | file path position flags =>
      simp only [held path (by rw [path?, found]; rfl)]

/-- Time goes by without moving a source. -/
theorem source?_later (m : Machine) (micros : Nat) (fd : Fd) :
    (m.later micros).source? fd = m.source? fd := rfl

/-- What keeps tree, descriptors and input keeps every source. -/
theorem Keeps.source? (kept : m.Keeps n) (fd : Fd) : n.source? fd = m.source? fd := by
  apply source?_congr
  · unfold entry?
    rw [kept.files]
  · exact kept.stdin
  · exact fun _ => kept.stdinPosition
  · intro path _
    rw [kept.tree]

/-- Stdin is read from where it got to. -/
theorem source?_of_stdin (entry : m.entry? fd = some .stdin) :
    m.source? fd = some (m.stdin, m.stdinPosition) := by
  rw [source?, entry]

/-- A file that is open for reading is read from its position. -/
theorem source?_of_file {flags : OpenFlags}
    (entry : m.entry? fd = some (.file path position flags)) (reads : flags.reads = true) :
    m.source? fd = some (m.tree.bytesAt path, position) := by
  rw [source?, entry]
  exact if_pos reads

/-- A descriptor with a source is the input, or it is open on a file for reading. -/
theorem entry_of_source (source : m.source? fd = some (bytes, position)) :
    (m.entry? fd = some .stdin ∧ bytes = m.stdin ∧ position = m.stdinPosition) ∨
      ∃ path flags, m.entry? fd = some (.file path position flags) ∧ flags.reads = true ∧
        bytes = m.tree.bytesAt path := by
  unfold source? at source
  split at source
  · rename_i entry
    obtain ⟨rfl, rfl⟩ := Prod.mk.inj (Option.some.inj source)
    exact .inl ⟨entry, rfl, rfl⟩
  · rename_i path position flags entry
    split at source
    · rename_i reads
      obtain ⟨rfl, rfl⟩ := Prod.mk.inj (Option.some.inj source)
      exact .inr ⟨path, flags, entry, reads, rfl⟩
    · contradiction
  · contradiction

/-! ## Reads -/

/-- A read gives the next bytes of the source and moves it on by as many. -/
theorem read_of_source (source : m.source? fd = some (bytes, position)) (count : Nat) :
    ∃ after, m.read fd count = .ok ((bytes.drop position).take count, after) ∧
      after.source? fd =
        some (bytes, position + ((bytes.drop position).take count).length) := by
  rcases entry_of_source source with ⟨entry, rfl, rfl⟩ | ⟨path, flags, entry, reads, rfl⟩
  · refine ⟨_, by rw [read, entry], ?_⟩
    exact source?_of_stdin (m := { m with stdinPosition := _ }) entry
  · rw [← Tree.readAt_eq]
    refine ⟨_, by rw [read, entry]; exact if_pos reads, ?_⟩
    exact source?_of_file (entry?_movedTo entry path _ flags) reads

/-- A read takes what its buffer has room for, leaves the rest of the buffer, and goes on. -/
theorem perform_read_of_source (source : m.source? fd = some (bytes, position)) (buffer : Bytes) :
    let data := (bytes.drop position).take buffer.length
    (m.perform (.read fd buffer)).1 = ((data.length : Int), data ++ buffer.drop data.length) ∧
      (m.perform (.read fd buffer)).2.source? fd = some (bytes, position + data.length) := by
  intro data
  obtain ⟨after, read, later⟩ :=
    read_of_source (m := m.counted (.read fd buffer)) source buffer.length
  have performed : m.perform (.read fd buffer) =
      (((data.length : Int), Bytes.overlay buffer data), after) := by
    show (m.counted (.read fd buffer)).respond (.read fd buffer) = _
    rw [respond, read]
  rw [performed, Bytes.overlay_of_length_le (List.length_take_le _ _)]
  exact ⟨rfl, later⟩

/-- What one such call reads. -/
theorem readIn_of_source (source : m.source? fd = some (bytes, position)) (buffer : Bytes) :
    m.readIn fd (.call (.read fd buffer)) = (bytes.drop position).take buffer.length := by
  simp only [readIn, if_true, (perform_read_of_source source buffer).1, Int.toNat_natCast]
  exact List.take_left

/-! ## Turns in between -/

/-- Opening a file that is not emptied changes nothing that is read. -/
theorem bytesAt_of_openTree {place : String} {flags : OpenFlags} {mode : Mode} {tree : Tree}
    (kept : flags.truncates = true → flags.writes = true → place ≠ path)
    (opened : m.openTree place flags mode = .ok tree) :
    tree.bytesAt path = m.tree.bytesAt path := by
  rcases openTree_eq_ok opened with ⟨data, mode, -, rfl | ⟨truncates, writes, rfl⟩⟩ |
    ⟨absent, -, rfl⟩
  · rfl
  · rw [Tree.bytesAt_put_file, if_neg (kept truncates writes)]
  · rw [Tree.bytesAt_put_file]
    split
    · rename_i same
      rw [← same, Tree.bytesAt_of_absent absent]
      rfl
    · rfl

/-- A call that succeeds leaves a source alone, unless it reads through the descriptor, handles it
or alters its file. -/
theorem Succeeded.source? {reply : request.Reply} (h : Succeeded m request reply n)
    (tidy : m.files.Tidy) (inPlace : m.InPlace) {file : OpenFile}
    (source : m.entry? fd = some file) (other : ∀ buffer, request ≠ .read fd buffer)
    (kept : ¬ request.Handles fd)
    (spared : ∀ path, m.path? fd = some path → ¬ m.Alters path request) :
    n.source? fd = m.source? fd := by
  cases h with
  | @write through data count after wrote =>
    cases wrote with
    | stalled => rfl
    | stdout => rfl
    | stderr => rfl
    | @file place reached flags tree entry runs writes written =>
      -- A write to the file of the source is excluded, so this one goes elsewhere through another
      -- descriptor.
      have leads : m.path? through = some place := by
        rw [path?, entry]
        rfl
      have different : fd ≠ through := by
        rintro rfl
        exact spared place leads ⟨runs, leads⟩
      obtain ⟨old, mode, -, -, rfl⟩ := Tree.writeAt_eq_ok written
      apply source?_congr
      · exact entry?_movedTo_of_ne (m := { m with tree := _ }) entry different
      · rfl
      · exact fun _ => rfl
      · intro path at_path
        rw [movedTo_tree, Tree.bytesAt_put_file, if_neg]
        rintro rfl
        exact spared place at_path ⟨runs, leads⟩
  | @read through buffer data after read =>
    have different : fd ≠ through := by
      rintro rfl
      exact other buffer rfl
    cases read with
    | stdin entry =>
      refine source?_congr rfl rfl (fun input => ?_) fun _ _ => rfl
      -- The input is open under one number only.
      exact absurd ((inPlace fd _ input).trans (inPlace through _ entry).symm) different
    | file entry reads =>
      exact source?_congr (entry?_movedTo_of_ne entry different) rfl (fun _ => rfl) fun _ _ => rfl
  | @openFile name flags mode place tree access resolved opened =>
    apply source?_congr
    · -- A tidy table hands out no key that is taken.
      obtain ⟨valid, found⟩ := entry?_eq_some.1 source
      rw [source]
      exact entry?_eq_some.2 ⟨valid, SlotTable.get?_insert tidy found⟩
    · rfl
    · exact fun _ => rfl
    · intro path at_path
      apply bytesAt_of_openTree _ opened
      rintro truncates writes rfl
      exact spared place at_path ⟨leads_iff.2 resolved, truncates, writes⟩
  | @close through file entry =>
    have different : fd ≠ through := by
      rintro rfl
      exact kept rfl
    exact source?_congr (entry?_erase_of_ne entry different) rfl (fun _ => rfl) fun _ _ => rfl
  | @unlink name place tree resolved removed =>
    refine source?_congr rfl rfl (fun _ => rfl) fun path at_path => ?_
    obtain ⟨data, mode, -, rfl⟩ := Tree.remove_eq_ok removed
    apply Tree.bytesAt_drop_of_ne
    rintro rfl
    exact spared place at_path (leads_iff.2 resolved)
  | mkdir resolved created =>
    refine source?_congr rfl rfl (fun _ => rfl) fun path _ => ?_
    obtain ⟨absent, -, rfl⟩ := Tree.createUnder_eq_ok created
    exact Tree.bytesAt_put_directory (Tree.contains_eq_false_iff.1 absent) path _
  | @lseek through offset whence path position base flags entry =>
    have different : fd ≠ through := by
      rintro rfl
      exact kept rfl
    exact source?_congr (entry?_movedTo_of_ne entry different) rfl (fun _ => rfl) fun _ _ => rfl
  | chdir => rfl
  | getcwd => rfl
  | errno => rfl
  | strerror => rfl
  | sleep => exact source?_later m _ fd
  | usleep => exact source?_later m _ fd

/-- A count changes no file. -/
theorem alters_counted {counted : Request} (h : (m.counted counted).Alters path request) :
    m.Alters path request := by
  cases request <;> exact h

/-- A turn that does not interfere leaves a source alone, unless it reads through the descriptor. -/
theorem source?_turn (tidy : m.files.Tidy) (inPlace : m.InPlace)
    (source : m.source? fd = some (bytes, position)) (quiet : ¬ m.Interferes fd turn)
    (other : ∀ buffer, turn ≠ .call (.read fd buffer)) :
    (m.turn turn).source? fd = some (bytes, position) := by
  rw [← source]
  cases turn with
  | call request =>
    rcases m.takesEffect_cases request with ⟨-, -, -, e, failed⟩ | ⟨effect, succeeded⟩
    · exact Keeps.source? (n := m.turn (.call request))
        (show m.Keeps (m.perform request).2 from failed ▸ ⟨rfl, rfl, rfl, rfl, rfl⟩) fd
    · obtain ⟨file, entry⟩ : ∃ file, m.entry? fd = some file := by
        rcases entry_of_source source with ⟨entry, -⟩ | ⟨path, flags, entry, -⟩
        · exact ⟨_, entry⟩
        · exact ⟨_, entry⟩
      refine succeeded.source? (m := m.counted request) tidy inPlace entry ?_ ?_ ?_
      · rintro buffer rfl
        exact other buffer rfl
      · exact fun handles => quiet ⟨effect, .inl handles⟩
      · exact fun path leads alters => quiet ⟨effect, .inr ⟨path, leads, alters_counted alters⟩⟩
  | stop => rfl
  | resetCalls => rfl
  | takeStdout => rfl
  | takeStderr => rfl

/-- A turn that is no read of the descriptor offers it no room. -/
theorem room_of_other (other : ∀ buffer, turn ≠ .call (.read fd buffer)) : room fd turn = 0 := by
  unfold room
  split
  · rename_i through buffer
    refine if_neg ?_
    rintro rfl
    exact other buffer rfl
  · rfl

/-- Nor does it read anything through it. -/
theorem readIn_of_other (other : ∀ buffer, turn ≠ .call (.read fd buffer)) :
    m.readIn fd turn = [] := by
  unfold readIn
  split
  · rename_i through buffer
    refine if_neg ?_
    rintro rfl
    exact other buffer rfl
  · rfl

/-- In one turn a source is read as far as there is room, or it stays as it is. -/
theorem read_turn (tidy : m.files.Tidy) (inPlace : m.InPlace)
    (source : m.source? fd = some (bytes, position)) (quiet : ¬ m.Interferes fd turn) :
    m.readIn fd turn = (bytes.drop position).take (room fd turn) ∧
      (m.turn turn).source? fd = some (bytes, position + (m.readIn fd turn).length) := by
  by_cases reading : ∃ buffer, turn = .call (.read fd buffer)
  · obtain ⟨buffer, rfl⟩ := reading
    have taken := readIn_of_source source buffer
    rw [taken, room, if_pos rfl]
    exact ⟨rfl, (perform_read_of_source source buffer).2⟩
  · have other : ∀ buffer, turn ≠ .call (.read fd buffer) :=
      fun buffer same => reading ⟨buffer, same⟩
    rw [readIn_of_other other, room_of_other other, List.take_zero]
    exact ⟨rfl, source?_turn tidy inPlace source quiet other⟩

/-! ## Runs -/

/-- Two pieces that are taken one behind the other are one piece. -/
theorem take_append_take_drop (l : Bytes) (first second : Nat) :
    l.take first ++ (l.drop (l.take first).length).take second = l.take (first + second) := by
  rw [List.take_add, List.length_take]
  rcases Nat.le_total first l.length with inside | past
  · rw [Nat.min_eq_left inside]
  · rw [Nat.min_eq_right past, List.drop_length, List.drop_eq_nil_of_le past]

/-- What is read in some turns is what one read with all their room would have got. -/
theorem read_turns (tidy : m.files.Tidy) (inPlace : m.InPlace)
    (source : m.source? fd = some (bytes, position)) (quiet : m.Undisturbed fd turns) :
    m.readBy fd turns = (bytes.drop position).take (roomIn fd turns) ∧
      (m.after turns).source? fd = some (bytes, position + (m.readBy fd turns).length) := by
  induction turns generalizing m position with
  | nil => exact ⟨List.take_zero.symm, source⟩
  | cons turn turns ih =>
    obtain ⟨still, quiet⟩ := quiet
    obtain ⟨taken, next⟩ := read_turn tidy inPlace source still
    obtain ⟨rest, last⟩ := ih (tidy_turn tidy turn) (inPlace.turn turn) next quiet
    have whole : m.readBy fd (turn :: turns) =
        (bytes.drop position).take (roomIn fd (turn :: turns)) := by
      show m.readIn fd turn ++ (m.turn turn).readBy fd turns =
        (bytes.drop position).take (room fd turn + roomIn fd turns)
      rw [rest, taken, ← List.drop_drop, take_append_take_drop]
    refine ⟨whole, ?_⟩
    rw [after_cons, last, readBy, List.length_append, Nat.add_assoc]

/-- A source that is left alone is left alone for each first part of the run. -/
theorem Undisturbed.left {later : List Turn} (h : m.Undisturbed fd (turns ++ later)) :
    m.Undisturbed fd turns := by
  induction turns generalizing m with
  | nil => trivial
  | cons turn turns ih => exact ⟨h.1, ih h.2⟩

/-- **Chunks add up.** A descriptor of the input, or of a file that is open for reading, gives in
any turns that do not interfere the bytes that follow its position, as many as there is room for in
all buffers together, and it goes on by as many. Each read fills the front of its buffer, leaves the
rest as it was, and gets nothing into a buffer with room only where nothing is left. -/
theorem chunks_add_up {steps : List SetupStep} {warnings : List LogEntry}
    (built : build steps = .ok (m, warnings)) (before : List Turn)
    (source : (m.after before).source? fd = some (bytes, position))
    (quiet : (m.after before).Undisturbed fd turns) :
    let s := m.after before
    s.readBy fd turns = (bytes.drop position).take (roomIn fd turns) ∧
      (s.readBy fd turns).length = min (roomIn fd turns) (bytes.length - position) ∧
      (s.after turns).source? fd = some (bytes, position + (s.readBy fd turns).length) ∧
      ∀ earlier buffer later, turns = earlier ++ .call (.read fd buffer) :: later →
        ∃ data : Bytes, ((s.after earlier).perform (.read fd buffer)).1 =
            ((data.length : Int), data ++ buffer.drop data.length) ∧
          data.length ≤ buffer.length ∧
          (data = [] → buffer ≠ [] → bytes.length ≤ position + (s.readBy fd earlier).length) := by
  intro s
  have tidy : s.files.Tidy := tidy_after (tidy_of_build built) before
  have inPlace : s.InPlace := (inPlace_of_build built).after before
  obtain ⟨whole, last⟩ := read_turns tidy inPlace source quiet
  refine ⟨whole, ?_, last, ?_⟩
  · rw [whole, List.length_take, List.length_drop]
  · rintro earlier buffer later rfl
    obtain ⟨-, reached⟩ := read_turns tidy inPlace source quiet.left
    have read := (perform_read_of_source reached buffer).1
    refine ⟨_, read, List.length_take_le _ _, ?_⟩
    intro nothing room
    rcases List.take_eq_nil_iff.1 nothing with full | gone
    · exact absurd (List.length_eq_zero_iff.1 full) room
    · exact List.drop_eq_nil_iff.1 gone

/-- Five bytes are read through one descriptor in three chunks, while another one of the same file
is moved and read and files are made, written and removed elsewhere. -/
theorem chunks_add_up_interleaved :
    let name : CString := ⟨Utf8.encode "/f"⟩
    let other : CString := ⟨Utf8.encode "/g"⟩
    let before : List Turn :=
      [.call (.openFile name (OpenFlags.readWrite ||| OpenFlags.create) 0o644),
        .call (.write ⟨3⟩ [1, 2, 3, 4, 5]), .call (.openFile name OpenFlags.readOnly 0)]
    let turns : List Turn :=
      [.call (.read ⟨4⟩ [9, 9]), .call (.lseek ⟨3⟩ 0 Whence.start.code),
        .call (.openFile other (OpenFlags.writeOnly ||| OpenFlags.create) 0o644),
        .call (.write ⟨5⟩ [7]), .call (.read ⟨3⟩ [9, 9, 9]), .call (.read ⟨4⟩ [9]),
        .call (.unlink other), .call (.unlink ⟨Utf8.encode "/missing"⟩),
        .call (.read ⟨4⟩ [9, 9, 9])]
    let s := initial.after before
    build [] = .ok (initial, []) ∧ s.source? ⟨4⟩ = some ([1, 2, 3, 4, 5], 0) ∧
      s.Undisturbed ⟨4⟩ turns ∧ roomIn ⟨4⟩ turns = 6 ∧
      s.readBy ⟨4⟩ turns = [1, 2, 3, 4, 5] ∧
      (s.after turns).source? ⟨4⟩ = some ([1, 2, 3, 4, 5], 5) := by
  intro name other before turns s
  have source : s.source? ⟨4⟩ = some ([1, 2, 3, 4, 5], 0) := by decide
  have quiet : s.Undisturbed ⟨4⟩ turns := by decide
  obtain ⟨whole, -, last, -⟩ := chunks_add_up build_nil before source quiet
  have room : roomIn ⟨4⟩ turns = 6 := by decide
  have read : s.readBy ⟨4⟩ turns = [1, 2, 3, 4, 5] := by
    rw [room] at whole
    exact whole
  rw [read] at last
  exact ⟨build_nil, source, quiet, room, read, last⟩

end Machine

end Hostcall
