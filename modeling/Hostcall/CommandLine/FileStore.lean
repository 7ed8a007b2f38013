import Hostcall.Bytes

/-!
# Files outside the machine
-/

namespace Hostcall.CommandLine

/-- Where snapshots come from and where they are saved: reading and writing whole files by name. A
failure is the sentence that the system has for it. -/
structure FileStore (m : Type → Type) where
  read : String → m (Except String Bytes)
  write : String → Bytes → m (Except String Unit)

end Hostcall.CommandLine
