/-!
# Permission bits
-/

namespace Hostcall

/-- The permission bits that a file or directory is created with. -/
abbrev Mode := UInt32

namespace Mode

/-- The bits of a file that was created without any being asked for. -/
def defaultFile : Mode := 0o644

/-- The bits of a directory that was created without any being asked for. -/
def defaultDirectory : Mode := 0o755

end Mode

end Hostcall
