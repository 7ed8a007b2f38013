import Hostcall.Applet.Basic
import Hostcall.Facade.Writer

/-!
# The applet that shows its arguments
-/

namespace Hostcall.Applet

/-- The steps that write one argument on a line of its own, after its index. -/
def dumpLine (f : Facade) (item : Bytes × Nat) : List (Program (Except Error Unit)) :=
  [f.writeFormatted .stdout ⟨[toString item.2, ": "], false⟩,
    f.writeAll .stdout item.1,
    f.writeAll .stdout (Utf8.encode "\n")]

/-- Writes a heading and every argument with its index, and fails if any of it cannot be written. -/
def argvDump (f : Facade) (args : Args) : Program Int := do
  let heading := f.writeAll .stdout (Utf8.encode "argv_dump: argv\n")
  match ← Program.inOrder (heading :: args.items.zipIdx.flatMap (dumpLine f)) with
  | .ok () => return 0
  | .error _ => return 1

end Hostcall.Applet
