import Hostcall.Bytes

/-!
# What a file or a stream holds

Files and output streams mostly grow at their end. Their bytes are therefore kept back to front,
together with their number, so that writing at the end takes as long as what is written and no
longer. `Contents.bytes` is what they stand for: two contents with the same bytes are equal
(`Contents.ext_bytes`), and each operation is stated by what it does to the bytes.
-/

namespace Hostcall

/-- The bytes of a file or a stream, the last one first, with their number. -/
structure Contents where
  reversed : Bytes
  size : Nat
  size_eq : size = reversed.length
deriving DecidableEq, Repr

namespace Contents

/-- The contents with given bytes. -/
def ofBytes (b : Bytes) : Contents := ⟨b.reverse, b.length, by simp⟩

/-- The contents without bytes. -/
def empty : Contents := ofBytes []

/-- The bytes from the first to the last. -/
def bytes (c : Contents) : Bytes := c.reversed.reverse

/-- The contents with `data` added at the end. -/
def append (c : Contents) (data : Bytes) : Contents :=
  ⟨data.reverse ++ c.reversed, data.length + c.size, by simp [c.size_eq]⟩

/-- At most `count` bytes from a position on; nothing at or past the end. -/
def slice (c : Contents) (position count : Nat) : Bytes :=
  let stop := min c.size (position + count)
  ((c.reversed.drop (c.size - stop)).take (stop - position)).reverse

/-- The contents with `data` laid over them at a position; a gap before it is filled with zeros. -/
def splice (c : Contents) (position : Nat) (data : Bytes) : Contents where
  reversed := c.reversed.take (c.size - (position + data.length)) ++ (data.reverse ++
    (List.replicate (position - c.size) 0 ++ c.reversed.drop (c.size - position)))
  size := max c.size (position + data.length)
  size_eq := by
    simp only [c.size_eq, List.length_append, List.length_take, List.length_reverse,
      List.length_replicate, List.length_drop]
    omega

/-- Contents are their bytes. -/
theorem ext_bytes {c d : Contents} (h : c.bytes = d.bytes) : c = d := by
  obtain ⟨r, n, hn⟩ := c
  obtain ⟨s, k, hk⟩ := d
  have hr : r = s := List.reverse_inj.1 h
  subst hr
  subst hn
  subst hk
  rfl

@[simp] theorem bytes_ofBytes (b : Bytes) : (ofBytes b).bytes = b := by
  simp [bytes, ofBytes]

@[simp] theorem ofBytes_bytes (c : Contents) : ofBytes c.bytes = c :=
  ext_bytes (bytes_ofBytes _)

@[simp] theorem bytes_empty : empty.bytes = [] := rfl

@[simp] theorem size_empty : empty.size = 0 := rfl

@[simp] theorem length_bytes (c : Contents) : c.bytes.length = c.size := by
  simp [bytes, c.size_eq]

@[simp] theorem bytes_append (c : Contents) (data : Bytes) :
    (c.append data).bytes = c.bytes ++ data := by
  simp [bytes, append]

/-- Reading past the end gives less, or nothing. -/
theorem slice_eq (c : Contents) (position count : Nat) :
    c.slice position count = (c.bytes.drop position).take count := by
  obtain ⟨r, n, hn⟩ := c
  obtain ⟨b, rfl⟩ : ∃ b, r = b.reverse := ⟨r.reverse, by simp⟩
  subst hn
  simp only [slice, bytes, List.length_reverse, List.reverse_reverse, List.drop_reverse,
    List.take_reverse, List.length_take]
  have hstop : b.length - (b.length - min b.length (position + count)) =
      min b.length (position + count) := by omega
  have htake : b.take (min b.length (position + count)) = b.take (position + count) :=
    List.take_eq_take_iff.2 (by omega)
  rw [hstop, htake, List.take_drop]
  by_cases h : position ≤ b.length
  · congr 1
    omega
  · rw [List.drop_eq_nil_of_le (by simp only [List.length_take]; omega),
      List.drop_eq_nil_of_le (by simp only [List.length_take]; omega)]

/-- A gap before the position is filled with zeros, and what lies behind the data stays. -/
theorem bytes_splice (c : Contents) (position : Nat) (data : Bytes) :
    (c.splice position data).bytes =
      c.bytes.take position ++ List.replicate (position - c.size) 0 ++ data ++
        c.bytes.drop (position + data.length) := by
  obtain ⟨r, n, hn⟩ := c
  obtain ⟨b, rfl⟩ : ∃ b, r = b.reverse := ⟨r.reverse, by simp⟩
  subst hn
  simp only [splice, bytes, List.reverse_append, List.reverse_reverse, List.length_reverse,
    List.reverse_replicate, List.take_reverse, List.drop_reverse]
  have htake : b.take (b.length - (b.length - position)) = b.take position :=
    List.take_eq_take_iff.2 (by omega)
  have hdrop : b.drop (b.length - (b.length - (position + data.length))) =
      b.drop (position + data.length) := by
    by_cases h : position + data.length ≤ b.length
    · congr 1
      omega
    · rw [List.drop_eq_nil_of_le (by omega), List.drop_eq_nil_of_le (by omega)]
  rw [htake, hdrop]

end Contents

end Hostcall
