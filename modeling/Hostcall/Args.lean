import Hostcall.CInt
import Hostcall.CString
import Hostcall.Text.Utf8

/-!
# Argument vectors

The host passes arguments as a count and an array of words, each null or addressing a string that
ends in NUL. `ArgBlock` is such an array as it lies in memory, closed by one more null word, and
`Args` is what an applet gets to see: byte strings without NUL. Main statement: reading a block
gives each slot up to its first NUL (`args_ofSlots`), as long as an `int` can count the slots.
-/

namespace Hostcall

/-- The arguments of an applet. -/
structure Args where
  items : List Bytes
deriving DecidableEq, Repr

namespace Args

/-- The number of arguments. -/
def length (a : Args) : Nat := a.items.length

/-- Whether there is no argument, not even a name. -/
def isEmpty (a : Args) : Bool := a.items.isEmpty

/-- The bytes of an argument, if there are so many. -/
def get? (a : Args) (i : Nat) : Option Bytes := a.items[i]?

/-- An argument as text, with U+FFFD for what is not UTF-8. -/
def text? (a : Args) (i : Nat) : Option String := (a.get? i).map Utf8.decode

/-- All arguments as texts. -/
def texts (a : Args) : List String := a.items.map Utf8.decode

/-- The words that a count and an array address: none if the count is not positive or the array
is null. -/
def view? (count : Int) (words : Option (List (Option CString))) :
    Option (List (Option CString)) :=
  if count ≤ 0 then none else words.map (·.take count.toNat)

/-- Reads the arguments that a count and an array address. -/
def read (count : Int) (words : Option (List (Option CString))) : Args :=
  match view? count words with
  | none => ⟨[]⟩
  | some words => ⟨words.map CString.ofWord⟩

end Args

/-- An argument block in memory, without the null word that closes it. -/
structure ArgBlock where
  slots : List (Option CString)
deriving DecidableEq, Repr

namespace ArgBlock

/-- Lays out slots, each null or a byte string. -/
def ofSlots (slots : List (Option Bytes)) : ArgBlock := ⟨slots.map (·.map CString.mk)⟩

/-- Lays out arguments. -/
def ofItems (items : List Bytes) : ArgBlock := ofSlots (items.map some)

/-- The number of arguments that the block announces, an `int`. -/
def count (b : ArgBlock) : Int := CInt.ofNat b.slots.length

/-- The array, closed by a null word. -/
def words (b : ArgBlock) : List (Option CString) := b.slots ++ [none]

/-- Reads all arguments of the block. -/
def args (b : ArgBlock) : Args := Args.read b.count (some b.words)

/-- An applet is given each slot up to its NUL, if an `int` can count the slots. -/
theorem args_eq {b : ArgBlock} (fits : b.slots.length < CInt.bound) :
    b.args = ⟨b.slots.map CString.ofWord⟩ := by
  have count : b.count = b.slots.length := CInt.ofNat_eq fits
  unfold args Args.read Args.view? words
  rw [count]
  by_cases h : b.slots = []
  · simp [h]
  · simp [h]

/-- A null word reads as an empty argument. -/
theorem args_ofSlots {slots : List (Option Bytes)} (fits : slots.length < CInt.bound) :
    (ofSlots slots).args = ⟨slots.map fun s => (s.map Bytes.beforeNul).getD []⟩ := by
  rw [args_eq (by rwa [ofSlots, List.length_map])]
  simp only [ofSlots, List.map_map, Args.mk.injEq]
  apply List.map_congr_left
  intro s _
  cases s <;> simp [CString.ofWord, CString.hostView_eq]

end ArgBlock

end Hostcall
