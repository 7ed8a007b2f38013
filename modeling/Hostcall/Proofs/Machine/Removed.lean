import Hostcall.Proofs.Machine.Build
import Hostcall.Proofs.Machine.Handover
import Hostcall.Proofs.Machine.Pieces

/-!
# Descriptors of removed files

A descriptor knows its file by the path. Once the file is removed, the descriptor stays without a
file for as long as nobody closes it or opens a new file under that path (`Dangling.after`): reading
gives nothing, writing fails, and no call through it changes the tree
(`removed_stays_removed`). A directory under the path makes no difference; a new file does
(`reads_new_file`).
-/

namespace Hostcall

/-- The descriptor that a call goes through. -/
def Request.fd? : Request → Option Fd
  | .write fd _ => some fd
  | .read fd _ => some fd
  | .close fd => some fd
  | .lseek fd _ _ => some fd
  | _ => none

namespace Tree

variable {t u : Tree} {path q : String}

theorem contents?_put_directory (t : Tree) (path q : String) (mode : Mode) :
    (t.put path (.directory mode)).contents? q = if path = q then none else t.contents? q := by
  by_cases h : path = q <;> simp [contents?, h]

theorem contents?_drop (t : Tree) (path q : String) :
    (t.drop path).contents? q = if path = q then none else t.contents? q := by
  by_cases h : path = q <;> simp [contents?, h]

/-- A path without a file is not that of a file. -/
theorem ne_of_contents?_eq_none (gone : t.contents? q = none) {data : Contents} {mode : Mode}
    (file : t.get? path = some (.file data mode)) : path ≠ q := by
  rintro rfl
  simp [contents?, file] at gone

end Tree

namespace Machine

variable {m n : Machine} {fd : Fd} {path : String} {flags : OpenFlags} {turns : List Turn}

/-- A descriptor of a file that is not there. -/
structure Dangling (m : Machine) (fd : Fd) (path : String) (flags : OpenFlags) : Prop where
  gone : m.tree.contents? path = none
  entry : ∃ position, m.entry? fd = some (.file path position flags)

/-- A count opens and creates nothing. -/
theorem Dangling.counted (h : m.Dangling fd path flags) (request : Request) :
    (m.counted request).Dangling fd path flags := ⟨h.gone, h.entry⟩

/-- Whether a turn may open a new file under a path. -/
def Recreates (m : Machine) (path : String) : Turn → Prop
  | .call (.openFile name flags _) => flags.creates = true ∧ m.place name = .ok path
  | _ => False

/-- Turns that do not close a descriptor and open no new file under a path. -/
def Spares (fd : Fd) (path : String) (m : Machine) : List Turn → Prop
  | [] => True
  | turn :: turns =>
    turn ≠ .call (.close fd) ∧ ¬ m.Recreates path turn ∧ (m.turn turn).Spares fd path turns

/-- An open that does not create at a path puts no file there. -/
theorem gone_of_openTree {place : String} {openFlags : OpenFlags} {mode : Mode} {tree : Tree}
    (gone : m.tree.contents? path = none) (spared : openFlags.creates = true → place ≠ path)
    (opened : m.openTree place openFlags mode = .ok tree) : tree.contents? path = none := by
  rcases openTree_cases opened with ⟨data, bits, file, -, rfl⟩ | ⟨-, creates, created⟩
  · split
    · rw [Tree.contents?_put_file, if_neg (Tree.ne_of_contents?_eq_none gone file), gone]
    · exact gone
  · obtain ⟨-, -, rfl⟩ := Tree.createUnder_eq_ok created
    rw [Tree.contents?_put_file, if_neg (spared creates), gone]

/-- A removed file stays away until it is created again. -/
theorem Succeeded.gone {request : Request} {reply : request.Reply}
    (h : Succeeded m request reply n) (gone : m.tree.contents? path = none)
    (spared : ¬ m.Recreates path (.call request)) : n.tree.contents? path = none := by
  cases h with
  | write wrote =>
    cases wrote with
    | stalled => exact gone
    | stdout => exact gone
    | stderr => exact gone
    | file entry runs writes written =>
      -- A write goes to a file that is there, so not to this path.
      obtain ⟨old, mode, file, -, rfl⟩ := Tree.writeAt_eq_ok written
      rw [movedTo_tree, Tree.contents?_put_file,
        if_neg (Tree.ne_of_contents?_eq_none gone file), gone]
  | read read => cases read <;> exact gone
  | openFile access resolved opened =>
    apply gone_of_openTree gone _ opened
    rintro creates rfl
    exact spared ⟨creates, resolved⟩
  | close => exact gone
  | unlink resolved removed =>
    obtain ⟨data, mode, -, rfl⟩ := Tree.remove_eq_ok removed
    rw [Tree.contents?_drop, gone, ite_self]
  | mkdir resolved created =>
    obtain ⟨-, -, rfl⟩ := Tree.createUnder_eq_ok created
    rw [Tree.contents?_put_directory, gone, ite_self]
  | chdir => exact gone
  | getcwd => exact gone
  | lseek => exact gone
  | errno => exact gone
  | strerror => exact gone
  | sleep => rwa [later_tree]
  | usleep => rwa [later_tree]

/-- A descriptor of a file stays one of it when any position moves. -/
theorem exists_entry?_movedTo {position : Nat}
    (entry : m.entry? fd = some (.file path position flags)) {other : Fd} {place : String}
    {reached : Nat} {openFlags : OpenFlags}
    (moved : m.entry? other = some (.file place reached openFlags)) (target : Nat) :
    ∃ position, entry? (m.movedTo other place target openFlags) fd =
      some (.file path position flags) := by
  by_cases same : fd = other
  · subst same
    obtain ⟨rfl, -, rfl⟩ := same_file entry moved
    exact ⟨target, entry?_movedTo entry path target flags⟩
  · exact ⟨position, (entry?_movedTo_of_ne moved same).trans entry⟩

/-- A descriptor stays open on its path until it is closed. -/
theorem Succeeded.entry {request : Request} {reply : request.Reply}
    (h : Succeeded m request reply n) (tidy : m.files.Tidy) {position : Nat}
    (entry : m.entry? fd = some (.file path position flags)) (kept : request ≠ .close fd) :
    ∃ position, n.entry? fd = some (.file path position flags) := by
  cases h with
  | write wrote =>
    cases wrote with
    | stalled => exact ⟨position, entry⟩
    | stdout => exact ⟨position, entry⟩
    | stderr => exact ⟨position, entry⟩
    | file moved => exact exists_entry?_movedTo (m := { m with tree := _ }) entry moved _
  | read read =>
    cases read with
    | stdin => exact ⟨position, entry⟩
    | file moved => exact exists_entry?_movedTo entry moved _
  | openFile =>
    obtain ⟨valid, h⟩ := entry?_eq_some.1 entry
    exact ⟨position, entry?_eq_some.2 ⟨valid, SlotTable.get?_insert tidy h⟩⟩
  | @close other file closed =>
    have different : fd ≠ other := by
      rintro rfl
      exact kept rfl
    exact ⟨position, (entry?_erase_of_ne closed different).trans entry⟩
  | lseek moved => exact exists_entry?_movedTo entry moved _
  | unlink => exact ⟨position, entry⟩
  | mkdir => exact ⟨position, entry⟩
  | chdir => exact ⟨position, entry⟩
  | getcwd => exact ⟨position, entry⟩
  | errno => exact ⟨position, entry⟩
  | strerror => exact ⟨position, entry⟩
  | sleep => exact ⟨position, (entry?_later m _ fd).trans entry⟩
  | usleep => exact ⟨position, (entry?_later m _ fd).trans entry⟩

/-- The table stays tidy in a turn. -/
theorem tidy_turn (tidy : m.files.Tidy) (turn : Turn) : (m.turn turn).files.Tidy := by
  obtain ⟨handover, step, -⟩ := m.exists_step_turn turn
  exact step.tidy tidy

/-- So a descriptor of a removed file keeps dangling through a call. -/
theorem Dangling.perform (h : m.Dangling fd path flags) (tidy : m.files.Tidy) {request : Request}
    (kept : request ≠ .close fd) (spared : ¬ m.Recreates path (.call request)) :
    (m.perform request).2.Dangling fd path flags := by
  obtain ⟨position, entry⟩ := h.entry
  rcases m.perform_cases request with ⟨e, he⟩ | succeeded
  · rw [he]
    exact ⟨h.gone, position, entry⟩
  · constructor
    · exact succeeded.gone h.gone spared
    · exact succeeded.entry tidy entry kept

/-- It keeps dangling through a turn. -/
theorem Dangling.turn (h : m.Dangling fd path flags) (tidy : m.files.Tidy) {turn : Turn}
    (kept : turn ≠ .call (.close fd)) (spared : ¬ m.Recreates path turn) :
    (m.turn turn).Dangling fd path flags := by
  cases turn with
  | call request =>
    apply h.perform tidy _ spared
    rintro rfl
    exact kept rfl
  | stop => exact ⟨h.gone, h.entry⟩
  | resetCalls => exact ⟨h.gone, h.entry⟩
  | takeStdout => exact ⟨h.gone, h.entry⟩
  | takeStderr => exact ⟨h.gone, h.entry⟩

/-- The table stays tidy in a run. -/
theorem tidy_after (tidy : m.files.Tidy) (turns : List Turn) : (m.after turns).files.Tidy :=
  after_of_turn (P := fun m => m.files.Tidy) (fun _ turn tidy => tidy_turn tidy turn) tidy turns

/-- A machine that was just built has its standard streams open. -/
theorem files_of_build {steps : List SetupStep} {warnings : List LogEntry}
    (h : build steps = .ok (m, warnings)) : m.files = standardFiles := by
  obtain ⟨s, -, hstart⟩ := exists_follow_of_build h
  have standard : s.start.1.files = standardFiles := by
    unfold Setup.start
    dsimp only
    split <;> rfl
  rwa [hstart] at standard

/-- So its table is tidy. -/
theorem tidy_of_build {steps : List SetupStep} {warnings : List LogEntry}
    (h : build steps = .ok (m, warnings)) : m.files.Tidy := by
  rw [files_of_build h]
  exact SlotTable.tidy_ofList _

/-- A descriptor dangles until it is closed or its file is created again. -/
theorem Dangling.after (h : m.Dangling fd path flags) (tidy : m.files.Tidy)
    (spared : m.Spares fd path turns) : (m.after turns).Dangling fd path flags := by
  induction turns generalizing m with
  | nil => exact h
  | cons turn turns ih =>
    obtain ⟨kept, spared, rest⟩ := spared
    exact ih (h.turn tidy kept spared) (tidy_turn tidy turn) rest

/-- What dangles reads as empty, if it may be read. -/
theorem Dangling.read_eq (h : m.Dangling fd path flags) (count : Nat) :
    ∃ position, m.read fd count =
      if flags.reads then .ok ([], m.movedTo fd path position flags)
      else .error .badDescriptor := by
  obtain ⟨position, entry⟩ := h.entry
  refine ⟨position, ?_⟩
  unfold Machine.read
  simp only [entry, Tree.readAt, h.gone]
  rfl

/-- What dangles cannot be written. -/
theorem Dangling.write_eq (h : m.Dangling fd path flags) (data : Bytes) :
    m.write fd data =
      if m.stalled then .ok (0, m)
      else if flags.writes then .error .inputOutput
      else .error .badDescriptor := by
  obtain ⟨position, entry⟩ := h.entry
  rw [Machine.write_eq entry (by simp), deliver_file]
  rcases m.tree.writeAt_cases path (m.writeStart path position flags) (m.capped data) with
    ⟨-, refused⟩ | ⟨old, mode, file, -⟩
  · rw [refused]
    rfl
  · exact absurd rfl (Tree.ne_of_contents?_eq_none h.gone file)

/-- A read through it gives nothing or fails, and leaves the buffer. -/
theorem Dangling.reads (h : m.Dangling fd path flags) (buffer : Bytes) :
    (m.perform (.read fd buffer)).1 = (if flags.reads then 0 else -1, buffer) := by
  obtain ⟨position, nothing⟩ := (h.counted (.read fd buffer)).read_eq buffer.length
  show ((m.counted (.read fd buffer)).respond (.read fd buffer)).1 = _
  simp only [respond, nothing]
  cases flags.reads <;> simp [Bytes.overlay]

/-- A write through it fails, unless writes stall. -/
theorem Dangling.writes (h : m.Dangling fd path flags) (runs : m.stalled = false) (data : Bytes) :
    (m.perform (.write fd data)).1 = (-1 : Int) := by
  rw [perform_write, (h.counted _).write_eq data, counted_stalled, runs]
  cases flags.writes <;> rfl

/-- A call through it that succeeds changes no node. -/
theorem Succeeded.tree_of_dangling {request : Request} {reply : request.Reply}
    (h : Succeeded m request reply n) (dangling : m.Dangling fd path flags)
    (through : request.fd? = some fd) : n.tree = m.tree := by
  cases h with
  | @write other data count after wrote =>
    obtain rfl : other = fd := Option.some.inj through
    cases wrote with
    | stalled => rfl
    | stdout => rfl
    | stderr => rfl
    | @file place position' flags' tree entry' runs writes written =>
      -- There is no file that could be written.
      obtain ⟨position, entry⟩ := dangling.entry
      obtain ⟨rfl, -⟩ := same_file entry entry'
      obtain ⟨old, mode, file, -⟩ := Tree.writeAt_eq_ok written
      exact absurd rfl (Tree.ne_of_contents?_eq_none dangling.gone file)
  | read read => cases read <;> rfl
  | close => rfl
  | lseek => rfl
  | openFile => contradiction
  | unlink => contradiction
  | mkdir => contradiction
  | chdir => contradiction
  | getcwd => contradiction
  | errno => contradiction
  | strerror => contradiction
  | sleep => contradiction
  | usleep => contradiction

/-- No call through it changes the tree, whether it fails or not. -/
theorem Dangling.tree (h : m.Dangling fd path flags) {request : Request}
    (through : request.fd? = some fd) : (m.perform request).2.tree = m.tree := by
  rcases m.perform_cases request with ⟨e, he⟩ | succeeded
  · rw [he]
    rfl
  · exact succeeded.tree_of_dangling (h.counted request) through

/-- After a file was removed, its descriptors dangle. -/
theorem dangling_of_unlink {name : CString} (named : m.place name = .ok path) {position : Nat}
    (entry : m.entry? fd = some (.file path position flags))
    (removed : (m.perform (.unlink name)).1 = (0 : Int)) :
    (m.perform (.unlink name)).2.Dangling fd path flags := by
  let counted := m.counted (.unlink name)
  have settled : m.perform (.unlink name) = counted.settle (counted.unlink name) := rfl
  rw [settled] at removed ⊢
  cases hunlink : counted.unlink name with
  | error e =>
    rw [hunlink] at removed
    contradiction
  | ok answer =>
    obtain ⟨count, after⟩ := answer
    obtain ⟨place, tree, resolved, dropped, -, rfl⟩ := eq_of_unlink hunlink
    obtain rfl : path = place := Except.ok.inj (named.symm.trans resolved)
    obtain ⟨data, mode, -, rfl⟩ := Tree.remove_eq_ok dropped
    constructor
    · show (counted.tree.drop path).contents? path = none
      rw [Tree.contents?_drop, if_pos rfl]
    · exact ⟨position, entry⟩

/-- **A removed file stays removed for its descriptors**, on every machine that was set up and used
in any way: unless the descriptor is closed or a new file is opened under the path, reading through
it gives nothing, writing fails, and no call through it changes the tree. -/
theorem removed_stays_removed {steps : List SetupStep} {warnings : List LogEntry}
    (built : build steps = .ok (m, warnings)) (before : List Turn) {position : Nat}
    (entry : entry? (m.after before) fd = some (.file path position flags)) {name : CString}
    (named : (m.after before).place name = .ok path)
    (removed : ((m.after before).perform (.unlink name)).1 = (0 : Int)) (turns : List Turn)
    (spared : ((m.after before).perform (.unlink name)).2.Spares fd path turns) :
    let s := ((m.after before).perform (.unlink name)).2.after turns
    (∃ position, s.entry? fd = some (.file path position flags)) ∧
      (∀ buffer, (s.perform (.read fd buffer)).1 = (if flags.reads then 0 else -1, buffer)) ∧
      (s.stalled = false → ∀ data, (s.perform (.write fd data)).1 = (-1 : Int)) ∧
      ∀ request : Request, request.fd? = some fd → (s.perform request).2.tree = s.tree := by
  intro s
  have tidy : ((m.after before).perform (.unlink name)).2.files.Tidy :=
    tidy_turn (tidy_after (tidy_of_build built) before) (.call (.unlink name))
  have dangling : s.Dangling fd path flags :=
    (dangling_of_unlink named entry removed).after tidy spared
  refine ⟨dangling.entry, dangling.reads, dangling.writes, ?_⟩
  intro request through
  exact dangling.tree through

/-- The setup without steps starts the machine with nothing set. -/
theorem build_nil : build [] = .ok (initial, []) := build_of_follow_empty rfl

/-- A directory is made in the place of the removed file, and a file elsewhere. -/
theorem removed_stays_removed_under_directory :
    let name : CString := ⟨Utf8.encode "/f"⟩
    let turns : List Turn := [.call (.mkdir name 0o755),
      .call (.openFile ⟨Utf8.encode "/g"⟩ (OpenFlags.writeOnly ||| OpenFlags.create) 0o644)]
    let opened := initial.after
      [.call (.openFile name (OpenFlags.readWrite ||| OpenFlags.create) 0o644)]
    let s := (opened.perform (.unlink name)).2.after turns
    build [] = .ok (initial, []) ∧
      opened.entry? ⟨3⟩ = some (.file "/f" 0 (OpenFlags.readWrite ||| OpenFlags.create)) ∧
      opened.place name = .ok "/f" ∧ (opened.perform (.unlink name)).1 = (0 : Int) ∧
      (opened.perform (.unlink name)).2.Spares ⟨3⟩ "/f" turns ∧
      ∀ data, (s.perform (.write ⟨3⟩ data)).1 = (-1 : Int) := by
  intro name turns opened s
  have entry : opened.entry? ⟨3⟩ =
      some (.file "/f" 0 (OpenFlags.readWrite ||| OpenFlags.create)) := by decide
  have named : opened.place name = .ok "/f" := place_eq_ok_iff.2 (by decide)
  have removed : (opened.perform (.unlink name)).1 = (0 : Int) := by decide
  have spared : (opened.perform (.unlink name)).2.Spares ⟨3⟩ "/f" turns := by
    refine ⟨by simp, id, by simp, ?_, trivial⟩
    rintro ⟨-, same⟩
    exact absurd (place_eq_ok_iff.1 same) (by decide)
  have fails := (removed_stays_removed build_nil
    [.call (.openFile name (OpenFlags.readWrite ||| OpenFlags.create) 0o644)] entry named removed
    turns spared).2.2.1
  exact ⟨build_nil, entry, named, removed, spared, fails (by decide)⟩

/-- A new file under the path is what the descriptor of the removed file then reads. -/
theorem reads_new_file :
    let name : CString := ⟨Utf8.encode "/f"⟩
    let s := initial.after
      [.call (.openFile name (OpenFlags.readWrite ||| OpenFlags.create) 0o644),
        .call (.unlink name),
        .call (.openFile name (OpenFlags.writeOnly ||| OpenFlags.create) 0o644),
        .call (.write ⟨4⟩ [110, 101, 119])]
    (s.perform (.read ⟨3⟩ [0, 0, 0, 0])).1 = ((3 : Int), [110, 101, 119, 0]) := by
  decide

end Machine

end Hostcall
