import Hostcall.CommandLine.FileStore
import Hostcall.Text.Utf8

/-!
# A directory in memory

One directory with files and no directories in it, as a place to read snapshots from and save them
to. Names that do not lead to a file fail as they do in a system with one root: every name but the
last has to lead to a directory, and a path that ends in a slash asks for one. What is written above
the directory is out of sight.
-/

namespace Hostcall.CommandLine

/-- Why a name does not lead to a file. -/
inductive NameError where
  | notFound
  | notDirectory
  | isDirectory
  | tooLong
deriving DecidableEq, Repr

/-- The sentence that the system has for a failure. -/
def NameError.message : NameError → String
  | notFound => "No such file or directory (os error 2)"
  | notDirectory => "Not a directory (os error 20)"
  | isDirectory => "Is a directory (os error 21)"
  | tooLong => "File name too long (os error 36)"

/-- The files of a directory by name, without subdirectories. -/
abbrev Directory := List (String × Bytes)

namespace Directory

/-- The bytes of a file. -/
def contents? (d : Directory) (name : String) : Option Bytes := d.lookup name

/-- The directory with a file replaced or added. -/
def put (d : Directory) (name : String) (data : Bytes) : Directory :=
  (name, data) :: d.filter (·.1 != name)

/-- Where a walk along names has come to. -/
inductive Place where
  /-- The directory itself. -/
  | inside
  /-- A directory above it. -/
  | above
  | file (name : String)
  /-- A name that is free in the directory. -/
  | free (name : String)
  /-- A name in a directory above, where nothing is known and every name counts as free. -/
  | elsewhere

/-- The longest name, in bytes. -/
def maxName : Nat := 255

/-- The longest path, in bytes. -/
def maxPath : Nat := 4095

/-- The place of a name, which must not be too long to be looked up. -/
def lookUp (name : String) (place : Place) : Except NameError Place :=
  if maxName < (Utf8.encode name).length then .error .tooLong else .ok place

/-- Goes one name further, which only a directory allows. -/
def step (d : Directory) (place : Place) (name : String) : Except NameError Place :=
  match place with
  | .file _ => .error .notDirectory
  | .free _ | .elsewhere => .error .notFound
  | .above => if name = "." ∨ name = ".." then .ok .above else lookUp name .elsewhere
  | .inside =>
    if name = "." then .ok .inside
    else if name = ".." then .ok .above
    else lookUp name (if (d.contents? name).isSome then .file name else .free name)

/-- The names of a path; slashes in a row count as one. -/
def names (path : String) : List String := (path.splitOn "/").filter (· != "")

/-- Whether slashes follow the last name of a path. -/
def isSlashed (path : String) : Bool := path.endsWith "/"

/-- Where some of the names of a path lead. An absolute path leads out of the directory. -/
def locate (d : Directory) (path : String) (names : List String) : Except NameError Place :=
  if path = "" then .error .notFound
  else if maxPath < (Utf8.encode path).length then .error .tooLong
  else names.foldlM d.step (if path.startsWith "/" then .above else .inside)

/-- Reads a file. Slashes after its name ask for a directory. -/
def read (d : Directory) (path : String) : Except NameError Bytes := do
  match ← d.locate path (names path) with
  | .file name => if isSlashed path then throw .notDirectory else return (d.contents? name).getD []
  | .free _ | .elsewhere => throw .notFound
  | .inside | .above => throw .isDirectory

/-- Replaces or adds a file. Slashes after its name ask for a directory, and such a name is refused
before it is looked up; what stands before it still has to lead to a directory. -/
def write (d : Directory) (path : String) (data : Bytes) : Except NameError Directory := do
  if isSlashed path then
    let _ ← d.locate path ((names path).dropLast ++ ["."])
    throw .isDirectory
  match ← d.locate path (names path) with
  | .file name | .free name => return d.put name data
  | .elsewhere => return d
  | .inside | .above => throw .isDirectory

/-- A directory in memory as a store. -/
def store : FileStore (StateM Directory) where
  read path := return ((← get).read path).mapError NameError.message
  write path data := do
    match (← get).write path data with
    | .ok d => set d; return .ok ()
    | .error e => return .error e.message

end Directory

end Hostcall.CommandLine
