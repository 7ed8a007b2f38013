import Hostcall.Args
import Hostcall.Facade.Basic

/-!
# Applets

An applet gets a facade and its arguments and comes to an exit code.
-/

namespace Hostcall

/-- What an applet does. -/
abbrev Applet.Body := Facade → Args → Program Int

/-- An applet with its name. -/
structure Applet where
  name : String
  body : Applet.Body

namespace Applet

/-- The symbol by which a host finds the entry of an applet. -/
def entrySymbol : String := "app_main"

/-- The entry that a host calls once: the arguments are read from the block, and the operations are
those of this library without a host. -/
def enter (body : Body) (count : Int) (words : Option (List (Option CString))) : Program Int :=
  body .absent (Args.read count words)

end Applet

end Hostcall
