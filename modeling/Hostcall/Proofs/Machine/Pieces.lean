import Hostcall.Proofs.Machine.Descriptor
import Hostcall.Proofs.Machine.Respond
import Hostcall.Proofs.Tree.WriteAt

/-!
# Writes in pieces

On a machine without a cap, what is written at once can be written in two pieces, one after the
other, and the machine is the same afterwards (`write_append`, `write_join`). Whether a write is
refused, and whether it stalls, does not depend on what is written, unless a file would grow too
large (`write_error`, `write_of_stalled`).
-/

namespace Hostcall.Machine

variable {m after : Machine} {fd : Fd} {file : OpenFile} {data : Bytes} {count : Nat}

/-- To a file, all of a chunk is delivered or none of it. -/
theorem deliver_file (path : String) (position : Nat) (flags : OpenFlags) (chunk : Bytes) :
    m.deliver fd chunk (.file path position flags) =
      if flags.writes then do
        let tree ← m.tree.writeAt path (m.writeStart path position flags) chunk
        return (chunk.length, { m with tree }.movedTo fd path
          (m.writeStart path position flags + chunk.length) flags)
      else .error .badDescriptor := rfl

/-- But for a file that would be too long, a delivery fails whatever is delivered. -/
theorem deliver_error {e : SysError} (h : m.deliver fd data file = .error e)
    (room : e ≠ .fileTooLarge) (other : Bytes) : m.deliver fd other file = .error e := by
  cases file with
  | stdin => exact h
  | stdout => contradiction
  | stderr => contradiction
  | file path position flags =>
    rw [deliver_file] at h ⊢
    split at h
    · rename_i writes
      rw [if_pos writes]
      cases written : m.tree.writeAt path (m.writeStart path position flags) data with
      | error refused =>
        rw [written] at h
        obtain rfl : refused = e := Except.error.inj h
        rw [Tree.writeAt_error written room]
        rfl
      | ok tree =>
        rw [written] at h
        contradiction
    · rename_i reads
      rw [if_neg reads]
      exact h

/-- The next piece begins where the one before it ended, appended or not. -/
theorem writeStart_movedTo {path : String} {position : Nat} {flags : OpenFlags} {tree : Tree}
    (written : m.tree.writeAt path (m.writeStart path position flags) data = .ok tree) :
    let reached := m.writeStart path position flags + data.length
    ({ m with tree }.movedTo fd path reached flags).writeStart path reached flags = reached := by
  have grown := Tree.endOf_of_writeAt written
  intro reached
  dsimp only [reached]
  unfold writeStart at grown ⊢
  split
  · rename_i appends
    rw [if_pos appends] at grown
    rw [movedTo_tree, grown]
    omega
  · rfl

/-- Two chunks are delivered together exactly as one after the other. -/
theorem deliver_append (entry : m.entry? fd = some file) {first second : Bytes}
    (h : m.deliver fd (first ++ second) file = .ok (count, after)) :
    count = first.length + second.length ∧ ∃ between later,
      m.deliver fd first file = .ok (first.length, between) ∧
      between.entry? fd = some later ∧ later ≠ .stdin ∧
      between.deliver fd second later = .ok (second.length, after) ∧
      between.writeCap = m.writeCap ∧ between.stalled = m.stalled := by
  cases file with
  | stdin => contradiction
  | stdout =>
    obtain ⟨rfl, rfl⟩ := Prod.mk.inj (Except.ok.inj h)
    refine ⟨List.length_append, { m with stdout := m.stdout.append first }, .stdout, rfl, entry,
      by simp, ?_, rfl, rfl⟩
    rw [← Contents.append_append]
    rfl
  | stderr =>
    obtain ⟨rfl, rfl⟩ := Prod.mk.inj (Except.ok.inj h)
    refine ⟨List.length_append, { m with stderr := m.stderr.append first }, .stderr, rfl, entry,
      by simp, ?_, rfl, rfl⟩
    rw [← Contents.append_append]
    rfl
  | file path position flags =>
    rw [deliver_file] at h
    split at h
    · rename_i writes
      obtain ⟨tree, written, h⟩ := ok_of_bind h
      obtain ⟨rfl, rfl⟩ := Prod.mk.inj (Except.ok.inj h)
      obtain ⟨middle, hfirst, hsecond⟩ := Tree.writeAt_append written
      -- The second part starts where the first one ended, also behind the end of an appended file.
      let reached := m.writeStart path position flags + first.length
      have entry' : entry? ({ m with tree := middle }.movedTo fd path reached flags) fd =
          some (.file path reached flags) :=
        entry?_movedTo (m := { m with tree := middle }) entry path reached flags
      refine ⟨List.length_append, { m with tree := middle }.movedTo fd path reached flags,
        .file path reached flags, ?_, entry', by simp, ?_, rfl, rfl⟩
      · rw [deliver_file, if_pos writes, hfirst]
        rfl
      · rw [deliver_file, if_pos writes, writeStart_movedTo hfirst, movedTo_tree, hsecond,
          List.length_append, ← Nat.add_assoc]
        simp only [movedTo, SlotTable.update_update]
        rfl
    · contradiction

/-- What was delivered in two pieces can be delivered at once. -/
theorem deliver_join (entry : m.entry? fd = some file) {between : Machine} {later : OpenFile}
    {first second : Bytes} {more : Nat} (former : m.deliver fd first file = .ok (count, between))
    (entry' : between.entry? fd = some later)
    (latter : between.deliver fd second later = .ok (more, after)) :
    m.deliver fd (first ++ second) file = .ok (count + more, after) := by
  cases file with
  | stdin => contradiction
  | stdout =>
    obtain ⟨rfl, rfl⟩ := Prod.mk.inj (Except.ok.inj former)
    obtain rfl : OpenFile.stdout = later := Option.some.inj (entry.symm.trans entry')
    obtain ⟨rfl, rfl⟩ := Prod.mk.inj (Except.ok.inj latter)
    simp only [deliver, Contents.append_append, List.length_append]
  | stderr =>
    obtain ⟨rfl, rfl⟩ := Prod.mk.inj (Except.ok.inj former)
    obtain rfl : OpenFile.stderr = later := Option.some.inj (entry.symm.trans entry')
    obtain ⟨rfl, rfl⟩ := Prod.mk.inj (Except.ok.inj latter)
    simp only [deliver, Contents.append_append, List.length_append]
  | file path position flags =>
    rw [deliver_file] at former
    split at former
    · rename_i writes
      obtain ⟨middle, hfirst, former⟩ := ok_of_bind former
      obtain ⟨rfl, rfl⟩ := Prod.mk.inj (Except.ok.inj former)
      let reached := m.writeStart path position flags + first.length
      have moved : entry? ({ m with tree := middle }.movedTo fd path reached flags) fd =
          some (.file path reached flags) :=
        entry?_movedTo (m := { m with tree := middle }) entry path reached flags
      obtain rfl : OpenFile.file path reached flags = later :=
        Option.some.inj (moved.symm.trans entry')
      rw [deliver_file, if_pos writes, writeStart_movedTo hfirst, movedTo_tree] at latter
      obtain ⟨tree, hsecond, latter⟩ := ok_of_bind latter
      obtain ⟨rfl, rfl⟩ := Prod.mk.inj (Except.ok.inj latter)
      rw [deliver_file, if_pos writes, Tree.writeAt_join hfirst hsecond, List.length_append,
        ← Nat.add_assoc]
      simp only [movedTo, SlotTable.update_update]
      rfl
    · contradiction

/-- A write changes none of the ways in which writes fail. -/
theorem Wrote.settings (h : Wrote m fd data count after) :
    after.writeCap = m.writeCap ∧ after.stalled = m.stalled := by
  cases h <;> exact ⟨rfl, rfl⟩

/-- Whether a descriptor takes no write at all: it is not open, or it is the input. -/
def Refuses (m : Machine) (fd : Fd) : Prop := m.entry? fd = none ∨ m.entry? fd = some .stdin

/-- A number that refuses writes refuses each of them. -/
theorem write_eq_error (refuses : m.Refuses fd) (data : Bytes) :
    m.write fd data = .error .badDescriptor := by
  unfold write
  rcases refuses with hentry | hentry <;> rw [hentry]

theorem write_eq (entry : m.entry? fd = some file) (output : file ≠ .stdin) (data : Bytes) :
    m.write fd data =
      if m.stalled then .ok (0, m) else m.deliver fd (m.capped data) file := by
  unfold write
  rw [entry]
  cases file with
  | stdin => contradiction
  | _ => rfl

/-- A number refuses writes, or stands for something that takes them. -/
theorem entry?_cases (m : Machine) (fd : Fd) :
    m.Refuses fd ∨ ∃ file, m.entry? fd = some file ∧ file ≠ .stdin := by
  unfold Refuses
  cases m.entry? fd with
  | none => exact .inl (.inl rfl)
  | some file =>
    by_cases input : file = .stdin
    · exact .inl (.inr (congrArg some input))
    · exact .inr ⟨file, rfl, input⟩

/-- Without a cap, a write is not cut. -/
theorem capped_of_free (free : m.writeCap = none) (data : Bytes) : m.capped data = data := by
  simp [capped, free]

theorem take_length_capped (m : Machine) (data : Bytes) :
    data.take (m.capped data).length = m.capped data := by
  unfold capped
  cases m.writeCap with
  | none => exact List.take_length
  | some cap =>
    rw [List.length_take]
    exact List.take_eq_take_iff.2 (by omega)

/-- A write that fails has taken nothing. -/
theorem take_of_negative (data : Bytes) {count : Int} (negative : count < 0) :
    data.take count.toNat = [] := by
  rw [Int.toNat_of_nonpos (Int.le_of_lt negative), List.take_zero]

/-- A host without a cap that does not stall takes a write whole. -/
theorem write_count (free : m.writeCap = none) (runs : m.stalled = false)
    (h : m.write fd data = .ok (count, after)) : count = data.length := by
  cases wrote_of_write h with
  | stalled entry input stall => simp [runs] at stall
  | _ => rw [capped_of_free free]

/-- What cannot be written fails for a reason that has nothing to do with the bytes, unless the file
would grow too large. -/
theorem write_error (free : m.writeCap = none) {e : SysError} (h : m.write fd data = .error e)
    (room : e ≠ .fileTooLarge) (other : Bytes) : m.write fd other = .error e := by
  rcases m.entry?_cases fd with refuses | ⟨file, entry, output⟩
  · rw [← h, write_eq_error refuses, write_eq_error refuses]
  rw [write_eq entry output] at h ⊢
  split at h
  · contradiction
  rename_i runs
  rw [if_neg runs]
  rw [capped_of_free free] at h ⊢
  exact deliver_error h room other

/-- A write that takes nothing because writes stall takes nothing of any bytes. -/
theorem write_of_stalled (stall : m.stalled = true) {answer : Nat × Machine}
    (h : m.write fd data = .ok answer) (other : Bytes) : m.write fd other = .ok (0, m) := by
  rcases m.entry?_cases fd with refuses | ⟨file, entry, output⟩
  · rw [write_eq_error refuses] at h
    contradiction
  · rw [write_eq entry output, if_pos stall]

/-- What is written at once can be written in two pieces. -/
theorem write_append (free : m.writeCap = none) (runs : m.stalled = false) {first second : Bytes}
    (h : m.write fd (first ++ second) = .ok (count, after)) :
    count = first.length + second.length ∧ ∃ between, between.writeCap = none ∧
      between.stalled = false ∧ m.write fd first = .ok (first.length, between) ∧
      between.write fd second = .ok (second.length, after) := by
  rcases m.entry?_cases fd with refuses | ⟨file, entry, output⟩
  · rw [write_eq_error refuses] at h
    contradiction
  rw [write_eq entry output, runs, if_neg Bool.false_ne_true] at h
  rw [capped_of_free free] at h
  obtain ⟨rfl, between, later, hfirst, entry', output', hsecond, hcap, hstalled⟩ :=
    deliver_append entry h
  refine ⟨rfl, between, hcap.trans free, hstalled.trans runs, ?_, ?_⟩
  · rw [write_eq entry output, runs, if_neg Bool.false_ne_true]
    rw [capped_of_free free]
    exact hfirst
  · rw [write_eq entry' output', hstalled.trans runs, if_neg Bool.false_ne_true]
    rw [capped_of_free (hcap.trans free)]
    exact hsecond

/-- What was written in two pieces can be written at once. -/
theorem write_join (free : m.writeCap = none) (runs : m.stalled = false) {between : Machine}
    {first second : Bytes} {more : Nat} (former : m.write fd first = .ok (count, between))
    (latter : between.write fd second = .ok (more, after)) :
    m.write fd (first ++ second) = .ok (count + more, after) := by
  obtain ⟨cap, stall⟩ := (wrote_of_write former).settings
  rcases m.entry?_cases fd with refuses | ⟨file, entry, output⟩
  · rw [write_eq_error refuses] at former
    contradiction
  rcases between.entry?_cases fd with refuses | ⟨later, entry', output'⟩
  · rw [write_eq_error refuses] at latter
    contradiction
  rw [write_eq entry output, runs, if_neg Bool.false_ne_true, capped_of_free free] at former ⊢
  rw [write_eq entry' output', stall, runs, if_neg Bool.false_ne_true,
    capped_of_free (cap.trans free)] at latter
  exact deliver_join entry former entry' latter

end Hostcall.Machine
