import Hostcall.Proofs.Machine.Chunks
import Hostcall.Proofs.Machine.Seek

/-!
# Writes lay data over a file

A write to a file that is there takes its data up to the cap, lays them over the file from where it
starts, with zeros in a gap, and moves its descriptor behind them; or the file would grow too large,
and the write does nothing (`perform_write_cases`). What was written is what is read back, and
writes to ranges that do not meet may be made in any order (`write_overlays`).
-/

namespace Hostcall

namespace Contents

/-- New contents are the old ones with so many bytes of `data` laid over them from a start on, and
with zeros between the end of the old ones and the start. -/
structure Overlaid (old : Contents) (start count : Nat) (data : Bytes) (new : Contents) : Prop where
  size : new.size = max old.size (start + count)
  within : ∀ i, start ≤ i → i < start + count → new.bytes[i]? = data[i - start]?
  outside : ∀ i, i < old.size → i < start ∨ start + count ≤ i → new.bytes[i]? = old.bytes[i]?
  gap : ∀ i, old.size ≤ i → i < start → new.bytes[i]? = some 0

/-- Splicing in the front of some data lays it over the file byte by byte. -/
theorem overlaid_splice (old : Contents) (start : Nat) {count : Nat} {data : Bytes}
    (enough : count ≤ data.length) :
    old.Overlaid start count data (old.splice start (data.take count)) := by
  have length : (data.take count).length = count := List.length_take_of_le enough
  constructor
  · rw [size_splice, length]
  · intro i after before
    rw [getElem?_splice, length, if_neg (Nat.not_lt.2 after), if_pos before,
      List.getElem?_take_of_lt (by omega)]
  · intro i inside apart
    rw [getElem?_splice, length]
    rcases apart with before | behind
    · rw [if_pos before, if_pos inside]
    · rw [if_neg (by omega), if_neg (by omega)]
  · intro i past before
    rw [getElem?_splice, if_pos before, if_neg (Nat.not_lt.2 past)]

/-- What was laid over contents stands there. -/
theorem take_drop_splice (old : Contents) (start : Nat) (data : Bytes) :
    ((old.splice start data).bytes.drop start).take data.length = data := by
  rw [bytes_splice_eq, List.append_assoc, List.drop_left' (old.length_upTo start), List.take_left]

end Contents

namespace Machine

variable {m : Machine} {fd : Fd} {path : String} {position : Nat} {flags : OpenFlags}
  {old : Contents} {mode : Mode}

/-- The number of bytes that a write of so many takes: all of them, up to the cap. -/
def limited (m : Machine) (count : Nat) : Nat :=
  match m.writeCap with
  | some cap => min count cap
  | none => count

/-- The machine after a write to a file: the data lie over it, and the descriptor is behind them. -/
def overwritten (m : Machine) (fd : Fd) (path : String) (flags : OpenFlags) (old : Contents)
    (mode : Mode) (start : Nat) (chunk : Bytes) : Machine :=
  { m with tree := m.tree.put path (.file (old.splice start chunk) mode) }.movedTo fd path
    (start + chunk.length) flags

theorem limited_le (m : Machine) (count : Nat) : m.limited count ≤ count := by
  unfold limited
  split
  · exact Nat.min_le_left _ _
  · exact Nat.le_refl _

theorem capped_eq_take (m : Machine) (data : Bytes) :
    m.capped data = data.take (m.limited data.length) := by
  unfold capped limited
  cases m.writeCap with
  | none => exact List.take_length.symm
  | some cap =>
    rw [List.take_eq_take_iff]
    dsimp only
    omega

theorem length_capped (m : Machine) (data : Bytes) :
    (m.capped data).length = m.limited data.length := by
  rw [capped_eq_take, List.length_take_of_le (m.limited_le _)]

theorem get?_of_contents? (held : m.tree.contents? path = some old) :
    ∃ mode, m.tree.get? path = some (.file old mode) := by
  unfold Tree.contents? at held
  split at held
  · rename_i data mode file
    obtain rfl := Option.some.inj held
    exact ⟨mode, file⟩
  · contradiction

/-- An appending descriptor writes at the end of its file, any other at its position. -/
theorem writeStart_of_held (held : m.tree.contents? path = some old) (position : Nat)
    (flags : OpenFlags) :
    m.writeStart path position flags = if flags.appends then old.size else position := by
  rw [writeStart, Tree.endOf, held]
  rfl

section

variable (runs : m.stalled = false) (entry : m.entry? fd = some (.file path position flags))
  (writes : flags.writes = true) (file : m.tree.get? path = some (.file old mode))
include runs entry writes file

/-- A write takes what the cap leaves of the data, or is too long for the file and changes
nothing. -/
theorem write_cases (data : Bytes) :
    (m.writeStart path position flags + m.limited data.length ≤ Tree.maxFileSize ∧
      m.write fd data = .ok (m.limited data.length, m.overwritten fd path flags old mode
        (m.writeStart path position flags) (m.capped data))) ∨
    (Tree.maxFileSize < m.writeStart path position flags + m.limited data.length ∧
      m.write fd data = .error .fileTooLarge) := by
  have output : OpenFile.file path position flags ≠ .stdin := by simp
  rw [write_eq entry output, runs, if_neg Bool.false_ne_true, deliver_file, if_pos writes,
    ← length_capped]
  rcases m.tree.writeAt_cases path (m.writeStart path position flags) (m.capped data) with
    ⟨gone, -⟩ | ⟨old', mode', found, ⟨full, refused⟩ | ⟨room, written⟩⟩
  · simp [Tree.contents?, file] at gone
  · rw [refused]
    exact .inr ⟨full, rfl⟩
  · obtain ⟨rfl, rfl⟩ := Node.file.inj (Option.some.inj (found.symm.trans file))
    rw [written]
    exact .inl ⟨room, rfl⟩

/-- A write to a file that is there lays its data over the file, or the file would grow too large.
-/
theorem perform_write_cases (data : Bytes) :
    (m.writeStart path position flags + m.limited data.length ≤ Tree.maxFileSize ∧
      m.perform (.write fd data) = ((m.limited data.length : Int),
        (m.counted (.write fd data)).overwritten fd path flags old mode
          (m.writeStart path position flags) (m.capped data))) ∨
    (Tree.maxFileSize < m.writeStart path position flags + m.limited data.length ∧
      m.perform (.write fd data) =
        ((-1 : Int), (m.counted (.write fd data)).failed .fileTooLarge)) := by
  rcases write_cases (m := m.counted (.write fd data)) runs entry writes file data with
    ⟨room, written⟩ | ⟨full, refused⟩
  · rw [perform_write, written]
    exact .inl ⟨room, rfl⟩
  · rw [perform_write, refused]
    exact .inr ⟨full, rfl⟩

/-- A write that took something had room for it. -/
theorem perform_write_of_taken {data : Bytes} (taken : 0 < (m.perform (.write fd data)).1) :
    m.writeStart path position flags + m.limited data.length ≤ Tree.maxFileSize ∧
      m.perform (.write fd data) = ((m.limited data.length : Int),
        (m.counted (.write fd data)).overwritten fd path flags old mode
          (m.writeStart path position flags) (m.capped data)) := by
  rcases perform_write_cases runs entry writes file data with performed | ⟨-, performed⟩
  · exact performed
  · rw [performed] at taken
    contradiction

/-- Where there is room, all that the cap leaves is taken. -/
theorem perform_write_of_room (data : Bytes)
    (room : m.writeStart path position flags + m.limited data.length ≤ Tree.maxFileSize) :
    m.perform (.write fd data) = ((m.limited data.length : Int),
      (m.counted (.write fd data)).overwritten fd path flags old mode
        (m.writeStart path position flags) (m.capped data)) := by
  rcases perform_write_cases runs entry writes file data with ⟨-, performed⟩ | ⟨full, -⟩
  · exact performed
  · exact absurd room (Nat.not_le.2 full)

/-- A write fails for the size of the file exactly where the file would grow past the largest. -/
theorem failsFor_fileTooLarge_iff (data : Bytes) :
    m.FailsFor (.write fd data) .fileTooLarge ↔
      Tree.maxFileSize < m.writeStart path position flags + m.limited data.length := by
  rw [failsFor_write_iff]
  rcases write_cases (m := m.counted (.write fd data)) runs entry writes file data with
    ⟨room, written⟩ | ⟨full, refused⟩
  · rw [written]
    exact ⟨nofun, fun full => absurd room (Nat.not_le.2 full)⟩
  · rw [refused]
    exact ⟨fun _ => full, fun _ => rfl⟩

end

/-- The descriptor ends behind what it wrote. -/
theorem entry?_overwritten (entry : m.entry? fd = some (.file path position flags)) (start : Nat)
    (chunk : Bytes) :
    entry? (m.overwritten fd path flags old mode start chunk) fd =
      some (.file path (start + chunk.length) flags) :=
  entry?_movedTo (m := { m with tree := _ }) entry path _ flags

/-- The file holds what was spliced in. -/
theorem get?_overwritten (start : Nat) (chunk : Bytes) :
    (m.overwritten fd path flags old mode start chunk).tree.get? path =
      some (.file (old.splice start chunk) mode) := by
  rw [overwritten, movedTo_tree, Tree.get?_put, if_pos rfl]

/-- Going back to where a write started and reading as much gives what was written. -/
theorem read_back (entry : m.entry? fd = some (.file path position flags))
    (reads : flags.reads = true) {start : Nat} {chunk : Bytes}
    (held : m.tree.contents? path = some (old.splice start chunk))
    (most : (start : Int) ≤ maxPosition) {buffer : Bytes} (room : buffer.length = chunk.length) :
    (m.perform (.lseek fd start 0)).1 = (start : Int) ∧
      ((m.perform (.lseek fd start 0)).2.perform (.read fd buffer)).1 =
        ((chunk.length : Int), chunk) := by
  have sought := perform_lseek_of_seeksFrom entry .start start (by omega) (by omega)
  have target : ((0 : Nat) + (start : Int)).toNat = start := by omega
  rw [target] at sought
  have source : source? ((m.counted (.lseek fd start 0)).movedTo fd path start flags) fd =
      some (m.tree.bytesAt path, start) :=
    source?_of_file (sought_movedTo entry start _).entry reads
  have read := (perform_read_of_source source buffer).1
  rw [Tree.bytesAt, held, Option.map_some, Option.getD_some, room, Contents.take_drop_splice,
    List.drop_of_length_le (Nat.le_of_eq room), List.append_nil] at read
  rw [sought]
  exact ⟨Int.zero_add _, read⟩

/-- Two descriptors that write to different parts of a file can do so in either order. -/
theorem overwritten_comm {other : Fd} {otherFlags : OpenFlags} {start reached : Nat}
    {chunk more : Bytes} (valid : 0 ≤ fd.number) (valid' : 0 ≤ other.number)
    (different : other ≠ fd)
    (apart : start + chunk.length ≤ reached ∨ reached + more.length ≤ start) :
    (m.overwritten other path otherFlags old mode reached more).overwritten fd path flags
        (old.splice reached more) mode start chunk =
      (m.overwritten fd path flags old mode start chunk).overwritten other path otherFlags
        (old.splice start chunk) mode reached more := by
  have keys := toNat_ne valid different valid'
  simp only [overwritten, movedTo, Tree.put_put, old.splice_comm apart,
    SlotTable.update_comm _ _ _ keys]

theorem writeStart_of_positional (positional : flags.appends = false) (m : Machine)
    (path : String) (position : Nat) : m.writeStart path position flags = position := by
  rw [writeStart, positional]
  rfl

/-- Writes through two descriptors to ranges of one file that do not meet lead to one machine in
either order, with the same answers. -/
theorem writes_commute {other : Fd} {otherFlags : OpenFlags} {reached : Nat} {data more : Bytes}
    (runs : m.stalled = false) (file : m.tree.get? path = some (.file old mode))
    (entry : m.entry? fd = some (.file path position flags)) (writes : flags.writes = true)
    (positional : flags.appends = false) (different : other ≠ fd)
    (entry' : m.entry? other = some (.file path reached otherFlags))
    (writes' : otherFlags.writes = true) (positional' : otherFlags.appends = false)
    (taken : 0 < (m.perform (.write fd data)).1)
    (taken' : 0 < ((m.perform (.write fd data)).2.perform (.write other more)).1)
    (apart : position + (m.perform (.write fd data)).1 ≤ reached ∨
      reached + ((m.perform (.write fd data)).2.perform (.write other more)).1 ≤ position) :
    (m.perform (.write other more)).1 =
        ((m.perform (.write fd data)).2.perform (.write other more)).1 ∧
      ((m.perform (.write other more)).2.perform (.write fd data)).1 =
        (m.perform (.write fd data)).1 ∧
      ((m.perform (.write other more)).2.perform (.write fd data)).2 =
        ((m.perform (.write fd data)).2.perform (.write other more)).2 := by
  obtain ⟨valid, -⟩ := entry?_eq_some.1 entry
  obtain ⟨valid', -⟩ := entry?_eq_some.1 entry'
  obtain ⟨room, first⟩ := perform_write_of_taken runs entry writes file taken
  rw [writeStart_of_positional positional] at room first
  rw [first] at taken' apart ⊢
  -- The second descriptor and its file are after the first write where they were, and so are the
  -- first ones after the second write.
  obtain ⟨room', second⟩ := perform_write_of_taken
    (m := (m.counted (.write fd data)).overwritten fd path flags old mode position (m.capped data))
    runs ((entry?_movedTo_of_ne (m := { m with tree := _ }) entry different).trans entry') writes'
    (get?_overwritten position (m.capped data)) taken'
  rw [writeStart_of_positional positional'] at room' second
  rw [second] at apart ⊢
  have before := perform_write_of_room runs entry' writes' file more
    (by rwa [writeStart_of_positional positional'])
  rw [writeStart_of_positional positional'] at before
  have behind := perform_write_of_room
    (m := (m.counted (.write other more)).overwritten other path otherFlags old mode reached
      (m.capped more))
    runs ((entry?_movedTo_of_ne (m := { m with tree := _ }) entry' different.symm).trans entry)
    writes (get?_overwritten reached (m.capped more)) data
    (by rwa [writeStart_of_positional positional])
  rw [writeStart_of_positional positional] at behind
  rw [before, behind]
  refine ⟨rfl, rfl, ?_⟩
  have ranges : position + (m.capped data).length ≤ reached ∨
      reached + (m.capped more).length ≤ position := by
    rw [length_capped, length_capped]
    exact apart.imp Int.ofNat_le.1 Int.ofNat_le.1
  exact overwritten_comm (m := (m.counted (.write fd data)).counted (.write other more)) valid
    valid' different ranges

/-- **A write lays its data over the file.** On a machine that does not stall, a write through a
descriptor that may write to a file that is there takes its data up to the cap, from the end of the
file where it appends and from the position otherwise. What it took stands in the file from there
on, everything else stays, a gap is filled with zeros, and the position is behind what was written,
which is read back from there. It fails for the size of the file exactly where the file would grow
past the largest size, and then nothing has changed. Two writes to ranges that do not meet, through
two descriptors of the file that do not append, lead to one machine in either order. -/
theorem write_overlays (runs : m.stalled = false)
    (entry : m.entry? fd = some (.file path position flags)) (writes : flags.writes = true)
    (held : m.tree.contents? path = some old) (data : Bytes) :
    let n := m.limited data.length
    let start := if flags.appends then old.size else position
    let write := m.perform (.write fd data)
    (0 < write.1 →
      write.1 = n ∧
      (∃ new, write.2.tree.contents? path = some new ∧ old.Overlaid start n data new) ∧
      entry? write.2 fd = some (.file path (start + n) flags) ∧
      (flags.reads = true → ∀ buffer : Bytes, buffer.length = n →
        (write.2.perform (.lseek fd start 0)).1 = (start : Int) ∧
          ((write.2.perform (.lseek fd start 0)).2.perform (.read fd buffer)).1 =
            ((n : Int), data.take n))) ∧
    (m.FailsFor (.write fd data) .fileTooLarge ↔ Tree.maxFileSize < start + n) ∧
    (m.FailsFor (.write fd data) .fileTooLarge →
      write.2 = (m.counted (.write fd data)).failed .fileTooLarge) ∧
    ∀ other more reached otherFlags, other ≠ fd →
      m.entry? other = some (.file path reached otherFlags) → otherFlags.writes = true →
      flags.appends = false → otherFlags.appends = false →
      let second := write.2.perform (.write other more)
      0 < write.1 → 0 < second.1 →
      position + write.1 ≤ reached ∨ reached + second.1 ≤ position →
      let before := m.perform (.write other more)
      let behind := before.2.perform (.write fd data)
      before.1 = second.1 ∧ behind.1 = write.1 ∧ behind.2 = second.2 := by
  intro n start write
  obtain ⟨mode, file⟩ := get?_of_contents? held
  have begins : m.writeStart path position flags = start := writeStart_of_held held position flags
  refine ⟨?_, ?_, ?_, ?_⟩
  · intro taken
    obtain ⟨room, performed⟩ := perform_write_of_taken runs entry writes file taken
    rw [begins] at room performed
    have length : (m.capped data).length = n := m.length_capped data
    have contents : write.2.tree.contents? path = some (old.splice start (m.capped data)) := by
      simp only [write, performed, Tree.contents?, get?_overwritten]
    have moved : entry? write.2 fd = some (.file path (start + n) flags) := by
      simp only [write, performed, ← length]
      exact entry?_overwritten (m := m.counted (.write fd data)) entry start _
    refine ⟨congrArg Prod.fst performed, ⟨_, contents, ?_⟩, moved, ?_⟩
    · rw [capped_eq_take]
      exact old.overlaid_splice start (m.limited_le _)
    · intro reads buffer fits
      -- A file is never so long that a seek could not go to its end.
      have most : (start : Int) ≤ maxPosition :=
        Int.le_trans (by omega) maxFileSize_le_maxPosition
      rw [← length] at fits
      have back := read_back moved reads contents most fits
      rwa [length, capped_eq_take] at back
  · rw [← begins]
    exact failsFor_fileTooLarge_iff runs entry writes file data
  · intro fails
    have full := (failsFor_fileTooLarge_iff runs entry writes file data).1 fails
    rcases perform_write_cases runs entry writes file data with ⟨room, -⟩ | ⟨-, performed⟩
    · exact absurd room (Nat.not_le.2 full)
    · exact congrArg Prod.snd performed
  · intro other more reached otherFlags different entry' writes' positional positional' second
      taken taken' apart
    exact writes_commute runs file entry writes positional different entry' writes' positional'
      taken taken' apart

/-- Under a cap of three bytes five are written past the end of an empty file, and two more before
them through another descriptor. -/
theorem write_overlays_past_end :
    let flags := OpenFlags.readWrite ||| OpenFlags.create
    let m := { initial with writeCap := some 3 }.after
      [.call (.openFile ⟨Utf8.encode "/f"⟩ flags 0o644),
        .call (.openFile ⟨Utf8.encode "/f"⟩ flags 0o644),
        .call (.lseek ⟨3⟩ 2 Whence.start.code)]
    let write := m.perform (.write ⟨3⟩ [1, 2, 3, 4, 5])
    let second := write.2.perform (.write ⟨4⟩ [8, 9])
    let before := m.perform (.write ⟨4⟩ [8, 9])
    m.stalled = false ∧ m.entry? ⟨3⟩ = some (.file "/f" 2 flags) ∧ flags.writes = true ∧
      m.tree.contents? "/f" = some .empty ∧
      (∃ new, write.2.tree.contents? "/f" = some new ∧
        Contents.empty.Overlaid 2 3 [1, 2, 3, 4, 5] new) ∧
      entry? write.2 ⟨3⟩ = some (.file "/f" 5 flags) ∧
      ((write.2.perform (.lseek ⟨3⟩ 2 0)).2.perform (.read ⟨3⟩ [7, 7, 7])).1 =
        ((3 : Int), [1, 2, 3]) ∧
      ¬ m.FailsFor (.write ⟨3⟩ [1, 2, 3, 4, 5]) .fileTooLarge ∧
      (before.2.perform (.write ⟨3⟩ [1, 2, 3, 4, 5])).2 = second.2 := by
  intro flags m write second before
  have runs : m.stalled = false := by decide
  have entry : m.entry? ⟨3⟩ = some (.file "/f" 2 flags) := by decide
  have entry' : m.entry? ⟨4⟩ = some (.file "/f" 0 flags) := by decide
  have writes : flags.writes = true := by decide
  have held : m.tree.contents? "/f" = some .empty := by decide
  have begins : (if flags.appends = true then Contents.empty.size else 2) = 2 := by decide
  have length : m.limited ([1, 2, 3, 4, 5] : Bytes).length = 3 := by decide
  have taken : 0 < write.1 := by decide
  have overlays := write_overlays runs entry writes held [1, 2, 3, 4, 5]
  rw [begins, length] at overlays
  obtain ⟨laid, full, -, commute⟩ := overlays
  obtain ⟨-, new, moved, back⟩ := laid taken
  have small : ¬ m.FailsFor (.write ⟨3⟩ [1, 2, 3, 4, 5]) .fileTooLarge :=
    fun fails => absurd (full.1 fails) (by decide)
  have swapped := commute ⟨4⟩ [8, 9] 0 flags (by decide) entry' writes (by decide) (by decide)
    taken (by decide) (by decide)
  exact ⟨runs, entry, writes, held, new, moved, (back (by decide) [7, 7, 7] rfl).2, small,
    swapped.2.2⟩

end Machine

end Hostcall
