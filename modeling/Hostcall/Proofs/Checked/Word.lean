import Hostcall.CInt
import Hostcall.Contents
import Hostcall.Path
import Hostcall.SysError

/-!
# Computing with machine words

A computer counts in words: unsigned ones and signed ones of 64 bits, and descriptors of 32 bits
with a sign. `Checked` is computing with words in which nothing goes wrong unnoticed: an addition or
a conversion that does not fit, a subtraction below zero and a piece that is not within its list end
the computation with a fault. A refusal, with the reason that the host reports, ends it too, and is
no fault. Each operation comes with the condition under which it gives what it is meant to give
(`add_eq`, `slice_eq`, …).
-/

namespace Hostcall

namespace Checked

/-- What can go wrong in computing with words. -/
inductive Fault where
  | outOfRange
  | lengthsDiffer
  | belowZero
  | sumWraps
  | castWraps
deriving DecidableEq, Repr

/-- Why a computation ended early. -/
inductive Mishap where
  | refused (e : SysError)
  | faulted (fault : Fault)
deriving DecidableEq, Repr

end Checked

/-- A computation with machine words. -/
abbrev Checked := Except Checked.Mishap

namespace Checked

/-- How many values an unsigned word has. -/
def wordCount : Nat := 1 <<< 64

/-- How many values of a signed word are not negative; a buffer has fewer bytes. -/
def signedCount : Nat := 1 <<< 63

/-- A value that is there on a condition. -/
def guard {α : Type} (condition : Prop) [Decidable condition] (fault : Fault) (a : α) : Checked α :=
  if condition then .ok a else .error (.faulted fault)

/-- The host's refusal. -/
def refuse {α : Type} (e : SysError) : Checked α := .error (.refused e)

/-- A computation without words, which does nothing worse than refuse. -/
def permitted {α : Type} : Except SysError α → Checked α
  | .ok a => .ok a
  | .error e => refuse e

/-- A number of another type as an unsigned word. -/
def word (n : Nat) : Checked Nat := guard (n < wordCount) .castWraps n

/-- An unsigned word as a signed one. -/
def signed (n : Nat) : Checked Int := guard (n < signedCount) .castWraps n

/-- A signed word as an unsigned one. -/
def unsigned (n : Int) : Checked Nat := guard (0 ≤ n) .castWraps n.toNat

/-- An unsigned word as a descriptor. -/
def descriptor (n : Nat) : Checked Int := guard (n < CInt.bound) .castWraps n

def add (a b : Nat) : Checked Nat := guard (a + b < wordCount) .sumWraps (a + b)

def sub (a b : Nat) : Checked Nat := guard (b ≤ a) .belowZero (a - b)

/-- The sum of two unsigned words, if it is one. -/
def sum? (a b : Nat) : Option Nat := if a + b < wordCount then some (a + b) else none

/-- The sum of two signed words, if it is one. -/
def signedSum? (a b : Int) : Option Int :=
  if -signedCount ≤ a + b ∧ a + b < signedCount then some (a + b) else none

/-- The piece of a list from one index up to another. -/
def slice {α : Type} (list : List α) (start stop : Nat) : Checked (List α) :=
  guard (start ≤ stop ∧ stop ≤ list.length) .outOfRange ((list.drop start).take (stop - start))

/-- Copies data over the piece of a buffer from one index up to another. -/
def copyInto (buffer : Bytes) (start stop : Nat) (data : Bytes) : Checked Bytes := do
  let piece ← slice buffer start stop
  guard (piece.length = data.length) .lengthsDiffer (buffer.take start ++ data ++ buffer.drop stop)

/-- Replaces one byte of a buffer. -/
def store (buffer : Bytes) (index : Nat) (byte : UInt8) : Checked Bytes :=
  guard (index < buffer.length) .outOfRange (buffer.set index byte)

/-- The bytes before the first NUL, all of them if there is none. -/
def beforeNul (bytes : Bytes) : Checked Bytes :=
  match bytes.findIdx? (· == 0) with
  | some stop => slice bytes 0 stop
  | none => .ok bytes

/-- The index of the last slash. -/
def lastSlash? (path : List Char) : Option Nat :=
  (path.reverse.findIdx? (· == '/')).map fun fromEnd => path.length - 1 - fromEnd

/-- What stands before the last slash, the root for a name right below it. -/
def parent? (path : String) : Checked (Option String) :=
  if path = "/" then .ok none
  else
    match lastSlash? path.toList with
    | none => .ok none
    | some index =>
      if index = 0 then .ok (some "/")
      else (slice path.toList 0 index).map fun above => some (String.ofList above)

theorem bind_ok {α β : Type} (a : α) (f : α → Checked β) : (Except.ok a >>= f) = f a := rfl

variable {α : Type} {list : List α} {a b n start stop : Nat} {buffer data : Bytes}

/-- A check that holds goes unnoticed. -/
theorem guard_eq {condition : Prop} [Decidable condition] {fault : Fault} {a : α}
    (h : condition) : guard condition fault a = .ok a :=
  if_pos h

theorem word_eq (h : n < wordCount) : word n = .ok n := guard_eq h

theorem signed_eq (h : n < signedCount) : signed n = .ok n := guard_eq h

theorem unsigned_eq {n : Int} (h : 0 ≤ n) : unsigned n = .ok n.toNat := guard_eq h

theorem descriptor_eq (h : n < CInt.bound) : descriptor n = .ok n := guard_eq h

/-- A number that does not fit is the fault that the cast would hide. -/
theorem descriptor_eq_error (h : ¬ n < CInt.bound) :
    descriptor n = .error (.faulted .castWraps) :=
  if_neg h

theorem add_eq (h : a + b < wordCount) : add a b = .ok (a + b) := guard_eq h

theorem sub_eq (h : b ≤ a) : sub a b = .ok (a - b) := guard_eq h

theorem slice_eq (order : start ≤ stop) (within : stop ≤ list.length) :
    slice list start stop = .ok ((list.drop start).take (stop - start)) :=
  guard_eq ⟨order, within⟩

theorem store_eq {index : Nat} (h : index < buffer.length) (byte : UInt8) :
    store buffer index byte = .ok (buffer.set index byte) :=
  guard_eq h

/-- Copying within a buffer goes through. -/
theorem copyInto_eq (within : start + data.length ≤ buffer.length) :
    copyInto buffer start (start + data.length) data =
      .ok (buffer.take start ++ data ++ buffer.drop (start + data.length)) := by
  rw [copyInto, slice_eq (Nat.le_add_right _ _) within, bind_ok, guard_eq]
  rw [List.length_take, List.length_drop]
  omega

/-- Data that fits is laid over the front. -/
theorem copyInto_front (within : data.length ≤ buffer.length) :
    copyInto buffer 0 data.length data = .ok (Bytes.overlay buffer data) := by
  have copied : copyInto buffer 0 (0 + data.length) data =
      .ok (buffer.take 0 ++ data ++ buffer.drop (0 + data.length)) :=
    copyInto_eq (by rwa [Nat.zero_add])
  rw [Nat.zero_add] at copied
  rw [copied, Bytes.overlay, List.take_zero, List.nil_append, List.take_of_length_le within]

theorem beforeNul_eq (bytes : Bytes) : beforeNul bytes = .ok (Bytes.beforeNul bytes) := by
  have same : (fun byte : UInt8 => !(byte != 0)) = (· == 0) := funext fun byte => by
    simp [bne]
  rw [Bytes.beforeNul, List.takeWhile_eq_take_findIdx_not, same, beforeNul]
  cases found : bytes.findIdx? (· == 0) with
  | none => rw [List.findIdx?_eq_none_iff_findIdx_eq.1 found, List.take_length]
  | some stop =>
    obtain ⟨within, here⟩ := List.findIdx?_eq_some_iff_findIdx_eq.1 found
    show slice bytes 0 stop = _
    rw [slice_eq (Nat.zero_le _) (Nat.le_of_lt within), here]
    rfl

/-- A path is cut at a separator that it has, so never outside of it. -/
theorem parent?_eq (path : String) : parent? path = .ok (Path.parent? path) := by
  have same : (fun c : Char => !(c != '/')) = (· == '/') := funext fun c => by
    simp [bne]
  unfold parent? Path.parent?
  rw [List.dropWhile_eq_drop_findIdx_not, same]
  split
  · rfl
  rw [lastSlash?]
  cases found : path.toList.reverse.findIdx? (· == '/') with
  | none =>
    rw [List.findIdx?_eq_none_iff_findIdx_eq.1 found, List.drop_length]
    rfl
  | some fromEnd =>
    obtain ⟨within, here⟩ := List.findIdx?_eq_some_iff_findIdx_eq.1 found
    have shorter : fromEnd < path.toList.length := by simpa using within
    have above : path.toList.reverse.drop (fromEnd + 1) =
        (path.toList.take (path.toList.length - 1 - fromEnd)).reverse := by
      rw [List.drop_reverse]
      congr 2
      omega
    rw [here, List.drop_eq_getElem_cons within, above, Option.map_some]
    by_cases first : path.toList.length - 1 - fromEnd = 0
    · simp only [first, List.take_zero, List.reverse_nil]
      rfl
    · have nonempty : path.toList.take (path.toList.length - 1 - fromEnd) ≠ [] := by
        intro h
        rcases List.take_eq_nil_iff.1 h with h | h
        · exact first h
        · simp [h] at shorter
      simp only [first, if_false, List.reverse_eq_nil_iff, nonempty, List.reverse_reverse]
      rw [slice_eq (Nat.zero_le _) (by omega)]
      rfl

end Checked

end Hostcall
