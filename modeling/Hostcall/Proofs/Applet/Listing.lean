import Hostcall.Applet.ArgvDump
import Hostcall.Proofs.Facade.Formatted
import Hostcall.Text.Utf8.Lemmas

/-!
# What the applet that shows its arguments delivers

The applet writes a heading and then a line for each argument: its index in decimal digits, its
bytes as they are, and the end of the line. Each of these goes out in parts, but to a descriptor all
of them are data written in order (`argvDump_eq`). So where a host cuts them makes no difference:
what it has accepted is a part of the listing from its front, and the exit code says whether it is
all of it (`argvDump_is_truthful`).
-/

namespace Hostcall.Applet

open Facade (hosted writes accepted)

/-- The decimal digits of a number. -/
def decimal (n : Nat) : Bytes :=
  if n < 10 then [UInt8.ofNat (48 + n)] else decimal (n / 10) ++ [UInt8.ofNat (48 + n % 10)]

/-- The line of an argument. -/
def listingLine (item : Bytes × Nat) : Bytes :=
  decimal item.2 ++ Utf8.encode ": " ++ item.1 ++ Utf8.encode "\n"

/-- A heading, and the lines of all arguments. -/
def listing (args : Args) : Bytes :=
  Utf8.encode "argv_dump: argv\n" ++ args.items.zipIdx.flatMap listingLine

/-- A digit is one byte, so many above that of zero. -/
theorem encodeChar_digitChar {d : Nat} (small : d < 10) :
    String.utf8EncodeChar d.digitChar = [UInt8.ofNat (48 + d)] := by
  rw [Utf8.encodeChar_eq, Nat.toNat_digitChar_of_lt_ten small, if_pos (by omega)]

/-- A number is shown by its decimal digits. -/
theorem encode_toString (n : Nat) : Utf8.encode (toString n) = decimal n := by
  have digits : (Nat.toDigits 10 n).flatMap String.utf8EncodeChar = decimal n := by
    induction n using Nat.strongRecOn with
    | ind n ih =>
      rw [Nat.toDigits_eq_if (by omega), decimal]
      split
      · rename_i small
        rw [List.flatMap_singleton, encodeChar_digitChar small]
      · rw [List.flatMap_append, List.flatMap_singleton, ih (n / 10) (by omega),
          encodeChar_digitChar (Nat.mod_lt _ (by omega))]
  rw [Nat.toString_eq_repr, Nat.repr_eq_ofList_toDigits, Utf8.encode, String.toList_ofList, digits]

/-- The data that is written for an argument. -/
def lineData (item : Bytes × Nat) : List Bytes :=
  [Utf8.encode (toString item.2), Utf8.encode ": ", item.1, Utf8.encode "\n"]

/-- The data that is written for all arguments, the heading first. -/
def listingData (args : Args) : List Bytes :=
  Utf8.encode "argv_dump: argv\n" :: args.items.zipIdx.flatMap lineData

/-- What is written for an argument is its line. -/
theorem flatten_lineData (item : Bytes × Nat) : (lineData item).flatten = listingLine item := by
  rw [lineData, encode_toString, listingLine]
  simp only [List.flatten_cons, List.flatten_nil, List.append_nil, List.append_assoc]

/-- What is written in all is the listing. -/
theorem flatten_listingData (args : Args) : (listingData args).flatten = listing args := by
  rw [listingData, List.flatten_cons, List.flatMap_def, List.flatten_flatten, List.map_map, listing,
    List.flatMap_def]
  exact congrArg (_ ++ List.flatten ·) (List.map_congr_left fun item _ => flatten_lineData item)

variable {f : Facade}

/-- The steps for an argument are the writes of its data in order. -/
theorem inOrder_dumpLine (item : Bytes × Nat) :
    Program.inOrder (dumpLine f item) = Program.inOrder ((lineData item).map (f.writeAll .stdout)) := by
  rw [dumpLine, Facade.writeFormatted_eq]
  exact Program.inOrder_cons_inOrder _ _

/-- The exit code for the result of the writes. -/
def exitCode : Except Error Unit → Int
  | .ok () => 0
  | .error _ => 1

/-- The applet writes data in order and returns what came of it. -/
theorem argvDump_eq (args : Args) :
    argvDump f args = do return exitCode (← f.writeInOrder .stdout (listingData args)) := by
  have lines : Program.inOrder (args.items.zipIdx.flatMap (dumpLine f)) =
      Program.inOrder (args.items.zipIdx.flatMap fun item =>
        (lineData item).map (f.writeAll .stdout)) :=
    Program.inOrder_flatMap_congr fun item _ => inOrder_dumpLine item
  rw [argvDump, Facade.writeInOrder, listingData, List.map_cons, List.map_flatMap,
    Program.inOrder, Program.inOrder, lines]
  congr 1
  funext result
  cases result <;> rfl

/-- What has been delivered of a listing in the course of some events, and what the exit code says
of it. -/
structure Truthful (args : Args) (events : List Event) (code : Int) : Prop where
  target : ∀ w ∈ writes events, w.fd = .stdout
  accepts : ∀ earlier later, writes events = earlier ++ later → accepted earlier <+: listing args
  zero_iff : code = 0 ↔ accepted (writes events) = listing args
  codes : code = 0 ∨ code = 1

/-- **The applet that shows its arguments says truthfully whether it did**, on any host. It writes
to the standard output only; what was accepted there is at every moment a part of the listing from
its front; and it returns 0 if all of the listing was accepted, and 1 otherwise. -/
theorem argvDump_is_truthful {σ : Type} (host : Host σ) (args : Args) (s : σ) :
    ∃ events code after, (argvDump hosted args).run host s = ⟨events, .returned code, after⟩ ∧
      Truthful args events code := by
  obtain ⟨events, result, after, sending⟩ :=
    Facade.exists_sending host .stdout (listingData args) s
  have ran : (argvDump hosted args).run host s = ⟨events, .returned (exitCode result), after⟩ := by
    rw [argvDump_eq, Program.run_bind, sending.run_eq]
    show (⟨events ++ [], .returned (exitCode result), after⟩ : Run σ Int) = _
    rw [List.append_nil]
  have delivered := sending.delivered
  refine ⟨events, exitCode result, after, ran, delivered.target, ?_, ?_, ?_⟩
  · rw [← flatten_listingData]
    exact delivered.accepts
  · rw [← flatten_listingData, ← delivered.ok_iff]
    cases result <;> simp [exitCode]
  · cases result <;> simp [exitCode]

end Hostcall.Applet
