import Hostcall.Proofs.Tree.Operations

/-!
# Writing into a file

A write lays bytes over a file and fills a gap before them with zeros. Writing two pieces, the
second where the first ended, is writing both at once (`splice_splice`, `writeAt_append`,
`writeAt_join`), whatever lies under them; pieces for ranges that do not meet may be written in any
order (`splice_comm`). A write fails because there is no file or because the file would grow too
large, and for nothing else (`writeAt_cases`).
-/

namespace Hostcall

namespace Contents

variable {c : Contents} {position start : Nat} {data more : Bytes}

@[simp] theorem size_splice (c : Contents) (position : Nat) (data : Bytes) :
    (c.splice position data).size = max c.size (position + data.length) := rfl

/-- What stands before a position, with zeros where the contents end before it. -/
def upTo (c : Contents) (position : Nat) : Bytes :=
  c.bytes.take position ++ List.replicate (position - c.size) 0

@[simp] theorem length_upTo (c : Contents) (position : Nat) :
    (c.upTo position).length = position := by
  rw [upTo, List.length_append, List.length_take, List.length_replicate, length_bytes]
  omega

/-- Spliced contents are what was before, the data and what was behind it. -/
theorem bytes_splice_eq (c : Contents) (position : Nat) (data : Bytes) :
    (c.splice position data).bytes =
      c.upTo position ++ data ++ c.bytes.drop (position + data.length) :=
  bytes_splice c position data

/-- Two pieces laid one after the other are laid at once. -/
theorem splice_splice (c : Contents) (position : Nat) (first second : Bytes) :
    (c.splice position first).splice (position + first.length) second =
      c.splice position (first ++ second) := by
  apply ext_bytes
  have hend : position + first.length ≤ (c.splice position first).size := by
    rw [size_splice]
    exact Nat.le_max_right _ _
  have hlength : (c.upTo position ++ first).length = position + first.length := by
    rw [List.length_append, length_upTo]
  have before : (c.splice position first).upTo (position + first.length) =
      c.upTo position ++ first := by
    rw [upTo, bytes_splice_eq, List.take_left' hlength, Nat.sub_eq_zero_of_le hend,
      List.replicate_zero, List.append_nil]
  have behind : (c.splice position first).bytes.drop (position + first.length + second.length) =
      c.bytes.drop (position + (first ++ second).length) := by
    rw [bytes_splice_eq, ← List.drop_drop, List.drop_left' hlength, List.drop_drop,
      List.length_append, Nat.add_assoc]
  rw [bytes_splice_eq, before, behind, bytes_splice_eq, List.append_assoc (c.upTo position)]

theorem append_append (c : Contents) (first second : Bytes) :
    (c.append first).append second = c.append (first ++ second) :=
  ext_bytes (by simp)

@[simp] theorem append_nil (c : Contents) : c.append [] = c := ext_bytes (by simp)

/-- Laying nothing over the contents still fills the gap up to the position. -/
theorem bytes_splice_nil (c : Contents) (position : Nat) :
    (c.splice position []).bytes = c.bytes ++ List.replicate (position - c.size) 0 := by
  rw [bytes_splice]
  rcases Nat.le_total position c.size with hle | hle
  · rw [Nat.sub_eq_zero_of_le hle]
    simp
  · simp [List.take_of_length_le, List.drop_eq_nil_of_le, hle]

/-- Before a splice stand the old bytes, with zeros past their end. -/
theorem getElem?_upTo {i : Nat} (before : i < position) :
    (c.upTo position)[i]? = if i < c.size then c.bytes[i]? else some 0 := by
  have size : (c.bytes.take position).length = min position c.size := by
    rw [List.length_take, length_bytes]
  rw [upTo, List.getElem?_append, size]
  split
  · rename_i inside
    rw [if_pos (by omega), List.getElem?_take_of_lt before]
  · rename_i behind
    rw [if_neg (by omega), List.getElem?_replicate_of_lt (by omega)]

/-- What stands at each place of contents over which data was laid. -/
theorem getElem?_splice (c : Contents) (position : Nat) (data : Bytes) (i : Nat) :
    (c.splice position data).bytes[i]? =
      if i < position then (if i < c.size then c.bytes[i]? else some 0)
      else if i < position + data.length then data[i - position]?
      else c.bytes[i]? := by
  rw [bytes_splice_eq, List.append_assoc]
  by_cases before : i < position
  · rw [if_pos before, List.getElem?_append_left (by rwa [length_upTo]), getElem?_upTo before]
  · rw [if_neg before, List.getElem?_append_right (by rw [length_upTo]; omega), length_upTo]
    by_cases within : i < position + data.length
    · rw [if_pos within, List.getElem?_append_left (by omega)]
    · rw [if_neg within, List.getElem?_append_right (by omega), List.getElem?_drop]
      congr 1
      omega

/-- Data laid over ranges that do not meet may be laid in any order. -/
theorem splice_comm (c : Contents)
    (apart : position + data.length ≤ start ∨ start + more.length ≤ position) :
    (c.splice position data).splice start more = (c.splice start more).splice position data := by
  apply ext_bytes
  apply List.ext_getElem?
  intro i
  -- Each byte is in one range, in the other, or in none.
  simp only [getElem?_splice, size_splice]
  have past : c.size ≤ i → c.bytes[i]? = none := fun h => List.getElem?_eq_none (by simpa using h)
  grind

end Contents

namespace Tree

variable {t u : Tree} {path : String} {position : Nat} {data : Bytes}

theorem contents?_put_file (t : Tree) (path q : String) (c : Contents) (mode : Mode) :
    (t.put path (.file c mode)).contents? q = if path = q then some c else t.contents? q := by
  by_cases h : path = q <;> simp [contents?, h]

/-- What is put last at a path stands there. -/
theorem put_put (t : Tree) (path : String) (first second : Node) :
    (t.put path first).put path second = t.put path second := by
  apply ext_get?
  intro q
  simp only [get?_put]
  split <;> rfl

theorem endOf_put_file (t : Tree) (path : String) (c : Contents) (mode : Mode) :
    (t.put path (.file c mode)).endOf path = c.size := by
  simp [endOf, contents?_put_file]

/-- All that a write can do. -/
theorem writeAt_cases (t : Tree) (path : String) (position : Nat) (data : Bytes) :
    (t.contents? path = none ∧ t.writeAt path position data = .error .inputOutput) ∨
    ∃ old mode, t.get? path = some (.file old mode) ∧
      (maxFileSize < position + data.length ∧
          t.writeAt path position data = .error .fileTooLarge ∨
        position + data.length ≤ maxFileSize ∧
          t.writeAt path position data =
            .ok (t.put path (.file (old.splice position data) mode))) := by
  unfold writeAt contents?
  cases t.get? path with
  | none => exact .inl ⟨rfl, rfl⟩
  | some node =>
    cases node with
    | directory mode => exact .inl ⟨rfl, rfl⟩
    | file old mode =>
      refine .inr ⟨old, mode, rfl, ?_⟩
      by_cases room : position + data.length ≤ maxFileSize
      · exact .inr ⟨room, by simp [room]⟩
      · exact .inl ⟨Nat.not_le.1 room, by simp [room]⟩

/-- A write that succeeds went to a file that stays short enough, and spliced its data in. -/
theorem writeAt_eq_ok (h : t.writeAt path position data = .ok u) :
    ∃ old mode, t.get? path = some (.file old mode) ∧ position + data.length ≤ maxFileSize ∧
      u = t.put path (.file (old.splice position data) mode) := by
  rcases t.writeAt_cases path position data with
    ⟨-, he⟩ | ⟨old, mode, hfile, ⟨-, he⟩ | ⟨room, ho⟩⟩
  · simp [he] at h
  · simp [he] at h
  · exact ⟨old, mode, hfile, room, Except.ok.inj (h.symm.trans ho)⟩

/-- But for the length, a write fails whatever is written and wherever. -/
theorem writeAt_error {e : SysError} (h : t.writeAt path position data = .error e)
    (room : e ≠ .fileTooLarge) (start : Nat) (other : Bytes) :
    t.writeAt path start other = .error e := by
  rcases t.writeAt_cases path position data with
    ⟨gone, refused⟩ | ⟨old, mode, -, ⟨-, refused⟩ | ⟨-, written⟩⟩
  · obtain rfl : SysError.inputOutput = e := Except.error.inj (refused.symm.trans h)
    rcases t.writeAt_cases path start other with ⟨-, again⟩ | ⟨old, mode, hfile, -⟩
    · exact again
    · simp [contents?, hfile] at gone
  · exact absurd (Except.error.inj (h.symm.trans refused)) room
  · simp [written] at h

/-- The end of a file stays, or is behind what was written where that is further. -/
theorem endOf_of_writeAt (h : t.writeAt path position data = .ok u) :
    u.endOf path = max (t.endOf path) (position + data.length) := by
  obtain ⟨old, mode, hfile, -, rfl⟩ := writeAt_eq_ok h
  rw [endOf_put_file, Contents.size_splice]
  simp [endOf, contents?, hfile]

/-- What was written at once can be written in two pieces. -/
theorem writeAt_append {first second : Bytes}
    (h : t.writeAt path position (first ++ second) = .ok u) :
    ∃ v, t.writeAt path position first = .ok v ∧
      v.writeAt path (position + first.length) second = .ok u := by
  obtain ⟨old, mode, hfile, room, rfl⟩ := writeAt_eq_ok h
  rw [List.length_append, ← Nat.add_assoc] at room
  have hfirst : position + first.length ≤ maxFileSize := by omega
  refine ⟨t.put path (.file (old.splice position first) mode), ?_, ?_⟩
  · simp [writeAt, hfile, hfirst]
  · simp [writeAt, room, put_put, Contents.splice_splice]

/-- What was written in two pieces, the second where the first ended, can be written at once. -/
theorem writeAt_join {v : Tree} {first second : Bytes}
    (former : t.writeAt path position first = .ok u)
    (latter : u.writeAt path (position + first.length) second = .ok v) :
    t.writeAt path position (first ++ second) = .ok v := by
  obtain ⟨old, mode, hfile, -, rfl⟩ := writeAt_eq_ok former
  obtain ⟨between, mode', hbetween, room, rfl⟩ := writeAt_eq_ok latter
  rw [get?_put, if_pos rfl] at hbetween
  obtain ⟨rfl, rfl⟩ := Node.file.inj (Option.some.inj hbetween)
  rw [Nat.add_assoc] at room
  simp [writeAt, hfile, put_put, Contents.splice_splice, room]

end Tree

end Hostcall
