import Hostcall.Applet.ArgvDump
import Hostcall.Applet.RoundTrip

/-!
# The applets that are known by name
-/

namespace Hostcall.Applet

/-- All applets, in the order in which they are listed. -/
def all : List Applet := [⟨"argv_dump", argvDump⟩, ⟨"roundtrip", roundTrip⟩]

/-- The names of all applets. -/
def names : List String := all.map name

/-- The applet of a name. -/
def find? (name : String) : Option Applet := all.find? (·.name == name)

end Hostcall.Applet
