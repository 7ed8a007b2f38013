import Hostcall.Contents
import Hostcall.Mode

/-!
# Nodes of a tree
-/

namespace Hostcall

/-- A file or a directory, with the permission bits it was created with. -/
inductive Node where
  | file (data : Contents) (mode : Mode)
  | directory (mode : Mode)
deriving DecidableEq, Repr

namespace Node

/-- Whether the node is a directory. -/
def isDirectory : Node → Bool
  | directory _ => true
  | file .. => false

/-- The permission bits. -/
def mode : Node → Mode
  | file _ mode => mode
  | directory mode => mode

end Node

end Hostcall
