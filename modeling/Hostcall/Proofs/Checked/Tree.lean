import Hostcall.Proofs.Checked.Word
import Hostcall.Proofs.Tree.WriteAt

/-!
# Trees in machine words

Reading from a file, writing into it and adding a node once more, with offsets and sizes in machine
words. Each gives what it gives without words (`readAt_eq`, `writeAt_eq`, `create_eq`).
-/

namespace Hostcall.Checked

/-- At most as many bytes as a buffer takes, from a position on, copied to its front; with their
number. -/
def readAt (t : Tree) (path : String) (position : Nat) (buffer : Bytes) : Checked (Nat × Bytes) :=
  match t.contents? path with
  | none => .ok (0, buffer)
  | some c =>
    if position < c.size then do
      let left ← sub c.size position
      let count := min buffer.length left
      let stop ← add position count
      let data ← slice c.bytes position stop
      return (count, ← copyInto buffer 0 count data)
    else .ok (0, buffer)

/-- Bytes with zeros after them, up to a length. -/
def resize (bytes : Bytes) (length : Nat) : Bytes :=
  bytes ++ List.replicate (length - bytes.length) 0

/-- Lays bytes over a file. -/
def writeAt (t : Tree) (path : String) (position : Nat) (data : Bytes) : Checked Tree :=
  match t.get? path with
  | some (.file old mode) => do
    let length ← word data.length
    match (sum? position length).filter (· ≤ Tree.maxFileSize) with
    | none => refuse .fileTooLarge
    | some stop =>
      let start ← word position
      let stop ← word stop
      let bytes ← copyInto (resize old.bytes stop) start stop data
      return t.put path (.file (.ofBytes bytes) mode)
  | _ => refuse .inputOutput

/-- Adds a node where there is none. -/
def create (t : Tree) (path : String) (node : Node) : Checked Tree := do
  let parent ← parent? path
  permitted (t.createUnder parent path node)

theorem create_eq (t : Tree) (path : String) (node : Node) :
    create t path node = permitted (t.create path node) := by
  rw [create, parent?_eq, bind_ok, Tree.create]

theorem overlay_nil (buffer : Bytes) : Bytes.overlay buffer [] = buffer := by
  simp [Bytes.overlay]

/-- A read at any position, past the end too, slices within the file and fits the buffer. -/
theorem readAt_eq {t : Tree} {path : String}
    (size : ∀ c, t.contents? path = some c → c.size < wordCount) (position : Nat)
    (buffer : Bytes) :
    readAt t path position buffer =
      .ok ((t.readAt path position buffer.length).length,
        Bytes.overlay buffer (t.readAt path position buffer.length)) := by
  unfold readAt Tree.readAt
  cases found : t.contents? path with
  | none => simp only [List.length_nil, overlay_nil]
  | some c =>
    have fits := size c found
    simp only [Contents.slice_eq]
    split
    · rename_i inside
      have length : ((c.bytes.drop position).take buffer.length).length =
          min buffer.length (c.size - position) := by
        rw [List.length_take, List.length_drop, Contents.length_bytes]
      have piece : (c.bytes.drop position).take
            (position + min buffer.length (c.size - position) - position) =
          (c.bytes.drop position).take buffer.length := by
        rw [List.take_eq_take_iff, List.length_drop, Contents.length_bytes]
        omega
      rw [sub_eq (Nat.le_of_lt inside), bind_ok, add_eq (by omega), bind_ok,
        slice_eq (Nat.le_add_right _ _) (by rw [Contents.length_bytes]; omega), bind_ok, piece,
        ← length, copyInto_front (List.length_take_le _ _)]
      rfl
    · rename_i past
      have nothing : c.bytes.drop position = [] :=
        List.drop_eq_nil_of_le (by rw [Contents.length_bytes]; omega)
      rw [nothing, List.take_nil, List.length_nil, overlay_nil]

/-- A file is never made shorter by a write. -/
theorem length_resize (bytes : Bytes) (length : Nat) :
    (resize bytes length).length = max bytes.length length := by
  rw [resize, List.length_append, List.length_replicate]
  omega

/-- Resizing a file and copying into it is laying bytes over it. -/
theorem resize_splice (old : Contents) (position : Nat) (data : Bytes) :
    (resize old.bytes (position + data.length)).take position ++ data ++
        (resize old.bytes (position + data.length)).drop (position + data.length) =
      (old.splice position data).bytes := by
  have before : (resize old.bytes (position + data.length)).take position =
      old.bytes.take position ++ List.replicate (position - old.size) 0 := by
    rw [resize, List.take_append, List.take_replicate, Contents.length_bytes]
    congr 2
    omega
  have behind : (resize old.bytes (position + data.length)).drop (position + data.length) =
      old.bytes.drop (position + data.length) := by
    rw [resize, List.drop_append, List.drop_replicate, Contents.length_bytes, Nat.sub_self,
      List.replicate_zero, List.append_nil]
  rw [before, behind, Contents.bytes_splice]

/-- A write is refused before the file would be too long, so what it adds up to is a word. -/
theorem writeAt_eq (t : Tree) (path : String) (position : Nat) {data : Bytes}
    (fits : data.length < wordCount) :
    writeAt t path position data = permitted (t.writeAt path position data) := by
  have limit : Tree.maxFileSize < wordCount := by decide
  unfold writeAt Tree.writeAt
  cases t.get? path with
  | none => rfl
  | some node =>
    cases node with
    | directory mode => rfl
    | file old mode =>
      simp only
      rw [word_eq fits, bind_ok]
      by_cases room : position + data.length ≤ Tree.maxFileSize
      · have stop : (sum? position data.length).filter (· ≤ Tree.maxFileSize) =
            some (position + data.length) := by
          rw [sum?, if_pos (by omega)]
          simp [room]
        rw [stop, if_pos room]
        simp only
        rw [word_eq (by omega), bind_ok, word_eq (by omega), bind_ok,
          copyInto_eq (by rw [length_resize]; omega), bind_ok, resize_splice,
          Contents.ofBytes_bytes]
        rfl
      · have stop : (sum? position data.length).filter (· ≤ Tree.maxFileSize) = none := by
          unfold sum?
          split
          · simpa using room
          · rfl
        rw [stop, if_neg room]
        rfl

end Hostcall.Checked
