import Mathlib.Data.List.Forall2
import Hostcall.Proofs.Machine.Run

/-!
# Arguments read back from a block

A block holds strings that end at their first NUL, so of what was laid out in a slot an applet sees
the longest part from the front without NUL, and nothing of a null slot (`ArgBlock.Shows`). Slots
and arguments correspond one to one and in order for every count up to the null word that closes the
block, which shows as one more argument. What was read has no NUL any more, and so it comes back
whole from another block (`args_ofItems_read`). A count is an `int`, so these are statements about
blocks that an `int` can count. Main statement: `block_reads_back`.
-/

namespace Hostcall

namespace Bytes

/-- The longest part of a byte string from its front that has no NUL. -/
structure LongestNulFree (part whole : Bytes) : Prop where
  front : part <+: whole
  nulFree : 0 ∉ part
  longest : ∀ other : Bytes, other <+: whole → 0 ∉ other → other <+: part

/-- Cutting at the first NUL gives the longest front without one. -/
theorem longestNulFree_beforeNul (b : Bytes) : LongestNulFree (beforeNul b) b where
  front := List.takeWhile_prefix _
  nulFree := zero_notMem_beforeNul b
  longest := by
    rintro other ⟨rest, rfl⟩ nulFree
    have kept : ∀ x ∈ other, (x != 0) = true :=
      fun x member => bne_iff_ne.2 fun zero => nulFree (zero ▸ member)
    rw [beforeNul, List.takeWhile_append_of_pos kept]
    exact List.prefix_append _ _

/-- Bytes without a NUL are left as they are. -/
theorem beforeNul_of_notMem {b : Bytes} (nulFree : 0 ∉ b) : beforeNul b = b :=
  (beforeNul_append b).symm.trans (beforeNul_append_zero nulFree [])

end Bytes

open Bytes (LongestNulFree beforeNul)

namespace ArgBlock

/-- What an argument is that was laid out in a slot, which is null or a byte string. -/
inductive Shows : Option Bytes → Bytes → Prop where
  | null : Shows none []
  | string {part whole : Bytes} (visible : LongestNulFree part whole) : Shows (some whole) part

/-- The bytes that a slot shows. -/
def shown (slot : Option Bytes) : Bytes := (slot.map beforeNul).getD []

/-- Each slot shows what is read of it. -/
theorem shows_shown (slot : Option Bytes) : Shows slot (shown slot) := by
  cases slot with
  | none => exact .null
  | some whole => exact .string (Bytes.longestNulFree_beforeNul whole)

theorem shows_map_shown (slots : List (Option Bytes)) :
    List.Forall₂ Shows slots (slots.map shown) :=
  List.forall₂_map_right_iff.2 (List.forall₂_same.2 fun slot _ => shows_shown slot)

theorem ofWord_map_mk (slot : Option Bytes) :
    CString.ofWord (slot.map CString.mk) = shown slot := by
  cases slot with
  | none => rfl
  | some whole => exact CString.hostView_eq ⟨whole⟩

end ArgBlock

open ArgBlock (Shows shown)

namespace Args

/-- A count that is not positive takes no words. -/
theorem read_some (count : Int) (words : List (Option CString)) :
    read count (some words) = ⟨(words.take count.toNat).map CString.ofWord⟩ := by
  unfold read view?
  by_cases positive : count ≤ 0
  · rw [if_pos positive, Int.toNat_of_nonpos positive]
    rfl
  · rw [if_neg positive]
    rfl

/-- A block that is the null pointer has no arguments, whatever its count says. -/
theorem read_none (count : Int) : read count none = ⟨[]⟩ := by
  unfold read view?
  by_cases positive : count ≤ 0
  · rw [if_pos positive]
  · rw [if_neg positive]
    rfl

/-- The arguments of a block are those of its slots and of the null word behind them. -/
theorem read_words (slots : List (Option Bytes)) (count : Int) :
    read count (some (ArgBlock.ofSlots slots).words) =
      ⟨((slots ++ [none]).take count.toNat).map shown⟩ := by
  have words : (ArgBlock.ofSlots slots).words = (slots ++ [none]).map (Option.map CString.mk) := by
    rw [List.map_append]
    rfl
  rw [read_some, words, ← List.map_take, List.map_map]
  exact congrArg Args.mk (List.map_congr_left fun slot _ => ArgBlock.ofWord_map_mk slot)

/-- No argument that was read holds a NUL. -/
theorem zero_notMem_read {count : Int} {words : Option (List (Option CString))} {item : Bytes}
    (member : item ∈ (read count words).items) : 0 ∉ item := by
  cases words with
  | none =>
    rw [read_none] at member
    contradiction
  | some words =>
    rw [read_some] at member
    obtain ⟨word, -, rfl⟩ := List.mem_map.1 member
    cases word with
    | none => exact List.not_mem_nil
    | some string => exact Bytes.zero_notMem_beforeNul _

end Args

/-- Arguments that are laid out and read are cut at their first NUL each. -/
theorem args_ofItems {items : List Bytes} (fits : items.length < CInt.bound) :
    (ArgBlock.ofItems items).args = ⟨items.map beforeNul⟩ := by
  rw [ArgBlock.ofItems, ArgBlock.args_ofSlots (by rwa [List.length_map]), List.map_map]
  rfl

/-- What was read comes back from a block that it is laid out in. -/
theorem args_ofItems_read {count : Int} {words : Option (List (Option CString))}
    (fits : (Args.read count words).length < CInt.bound) :
    (ArgBlock.ofItems (Args.read count words).items).args = Args.read count words := by
  have whole : ∀ item ∈ (Args.read count words).items, beforeNul item = item :=
    fun item member => Bytes.beforeNul_of_notMem (Args.zero_notMem_read member)
  rw [args_ofItems fits, List.map_congr_left whole, List.map_id']

namespace Machine

/-- The arguments of a run show the texts it was started with. -/
theorem shows_argsOf {argv : List String} (fits : argv.length < CInt.bound) :
    List.Forall₂ Shows (argv.map fun text => some (Utf8.encode text)) (argsOf argv).items := by
  have shows := ArgBlock.shows_map_shown (argv.map fun text => some (Utf8.encode text))
  rw [List.map_map] at shows
  rw [argsOf, args_ofItems (by rwa [List.length_map]), List.map_map]
  exact shows

/-- A run of an applet is one of the applet that is given its arguments. -/
theorem run_argsOf (m : Machine) (argv : List String) (body : Applet.Body) :
    m.run argv body = m.run argv fun f _ => body f (argsOf argv) :=
  run_congr rfl

/-- **Argument blocks read back as they were laid out.** Read with a count up to the null word that
closes it, a block yields as many arguments as the count says (none where it is not positive), in
the order of the slots, each of them what its slot shows. A null array yields none. Arguments that
were read come back from a block of their own. An applet that is run gets what the texts show. The
last two lay out a block that has to be counted, so they are about as many arguments as an `int` can
count. -/
theorem block_reads_back (slots : List (Option Bytes)) {count : Int}
    (room : count ≤ slots.length + 1) :
    let read := Args.read count (some (ArgBlock.ofSlots slots).words)
    read.length = count.toNat ∧
    List.Forall₂ Shows ((slots ++ [none]).take count.toNat) read.items ∧
    Args.read count none = ⟨[]⟩ ∧
    (count < CInt.bound → (ArgBlock.ofItems read.items).args = read) ∧
    ∀ (m : Machine) (argv : List String) (body : Applet.Body), argv.length < CInt.bound → ∃ texts,
      List.Forall₂ Shows (argv.map fun text => some (Utf8.encode text)) texts ∧
      m.run argv body = m.run argv fun f _ => body f ⟨texts⟩ := by
  intro read
  have shows : List.Forall₂ Shows ((slots ++ [none]).take count.toNat) read.items := by
    rw [show read = _ from Args.read_words slots count]
    exact ArgBlock.shows_map_shown _
  have length : read.length = count.toNat := by
    rw [Args.length, ← shows.length_eq, List.length_take, List.length_append,
      List.length_singleton]
    omega
  have again (int : count < CInt.bound) : (ArgBlock.ofItems read.items).args = read := by
    apply args_ofItems_read
    have positive : 0 < CInt.bound := by decide
    rw [show (Args.read _ _).length = _ from length]
    omega
  exact ⟨length, shows, Args.read_none count, again,
    fun m argv body fits => ⟨_, shows_argsOf fits, run_argsOf m argv body⟩⟩

/-- A null slot between others, a NUL inside a string and bytes that are no text, read up to the
null word that closes the block. -/
theorem block_reads_back_to_null_word :
    let slots : List (Option Bytes) := [some [97, 0, 98], none, some [], some [255]]
    let read := Args.read 5 (some (ArgBlock.ofSlots slots).words)
    read = ⟨[[97], [], [], [255], []]⟩ ∧ read.length = 5 ∧
      List.Forall₂ Shows (slots ++ [none]) read.items ∧
      (ArgBlock.ofItems read.items).args = read := by
  intro slots read
  have room : (5 : Int) ≤ slots.length + 1 := by decide
  obtain ⟨length, shows, -, again, -⟩ := block_reads_back slots room
  exact ⟨by decide, length, shows, again (by decide)⟩

end Machine

end Hostcall
