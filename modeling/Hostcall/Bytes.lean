/-!
# Byte strings

Buffers, file contents and streams are lists of bytes. Two operations recur wherever the host's
conventions show: cutting at the first NUL, and copying data to the front of a caller's buffer.
-/

namespace Hostcall

/-- A byte string. -/
abbrev Bytes := List UInt8

namespace Bytes

/-- The bytes before the first NUL, all of them if there is none. -/
def beforeNul (b : Bytes) : Bytes := b.takeWhile (· != 0)

/-- The buffer after `data` was copied to its front: its length stays, and so do the bytes that
`data` does not reach. -/
def overlay (buffer data : Bytes) : Bytes :=
  data.take buffer.length ++ buffer.drop data.length

theorem zero_notMem_beforeNul (b : Bytes) : 0 ∉ beforeNul b := by
  have := List.all_takeWhile (p := (· != (0 : UInt8))) (l := b)
  simp only [List.all_eq_true] at this
  exact fun h => by simpa using this 0 h

/-- Bytes without NUL are read whole up to the NUL that ends them. -/
theorem beforeNul_append_zero {b : Bytes} (h : 0 ∉ b) (rest : Bytes) :
    beforeNul (b ++ 0 :: rest) = b := by
  induction b with
  | nil => simp [beforeNul]
  | cons x b ih =>
    have hx : x ≠ 0 := fun e => h (by simp [e])
    have := ih (fun e => h (by simp [e]))
    simp only [beforeNul] at this
    simp [beforeNul, hx, this]

/-- What follows the first NUL is not seen, the NUL that ends a string included. -/
theorem beforeNul_append (b : Bytes) : beforeNul (b ++ [0]) = beforeNul b := by
  induction b with
  | nil => simp [beforeNul]
  | cons x b ih =>
    by_cases hx : x = 0 <;> simp_all [beforeNul]

@[simp] theorem length_overlay (buffer data : Bytes) :
    (overlay buffer data).length = buffer.length := by
  simp [overlay]
  omega

/-- As many bytes as a buffer has replace all of it. -/
theorem overlay_of_length_eq {buffer filled : Bytes} (length : filled.length = buffer.length) :
    overlay buffer filled = filled := by
  rw [overlay, List.take_of_length_le (Nat.le_of_eq length),
    List.drop_of_length_le (Nat.le_of_eq length.symm), List.append_nil]

/-- A terminated text that fits leaves the buffer behind its NUL as it was. -/
theorem overlay_append_zero {buffer raw : Bytes} (room : raw.length + 1 ≤ buffer.length) :
    overlay buffer (raw ++ [0]) = raw ++ 0 :: buffer.drop (raw.length + 1) := by
  have length : (raw ++ [0]).length = raw.length + 1 := List.length_append
  rw [overlay, length, List.take_of_length_le (length ▸ room), List.append_assoc]
  rfl

end Bytes

end Hostcall
