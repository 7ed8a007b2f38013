import Std.Data.ExtTreeMap
import Hostcall.Path
import Hostcall.SysError
import Hostcall.Tree.Node

/-!
# File trees

A tree maps paths to nodes. Operations take paths as they are given; only a path in normal form
names a place that `Path.resolve` can reach. An operation that fails leaves the tree alone, with one
exception: `createDirs` keeps the ancestors that it created before it failed, so it gives a tree
back in either case.

Two trees are equal as soon as they hold the same node at every path (`Tree.ext_get?`).
-/

namespace Hostcall

/-- A tree of files and directories. -/
structure Tree where
  nodes : Std.ExtTreeMap String Node

namespace Tree

/-- The largest size that a file can grow to. -/
def maxFileSize : Nat := 1 <<< 30

/-- The tree of a root directory and nothing else. -/
def rootOnly : Tree :=
  ⟨(∅ : Std.ExtTreeMap String Node).insert "/" (.directory Mode.defaultDirectory)⟩

/-- The node at a path. -/
def get? (t : Tree) (path : String) : Option Node := t.nodes[path]?

/-- The tree with `node` at `path`. -/
def put (t : Tree) (path : String) (node : Node) : Tree := ⟨t.nodes.insert path node⟩

/-- The tree with nothing at `path`. -/
def drop (t : Tree) (path : String) : Tree := ⟨t.nodes.erase path⟩

/-- All paths with their nodes, in the order of their characters. -/
def entries (t : Tree) : List (String × Node) := t.nodes.toList

/-- The number of nodes. -/
def size (t : Tree) : Nat := t.nodes.size

/-- A tree is what it has at each path. -/
theorem ext_get? {s t : Tree} (h : ∀ path, s.get? path = t.get? path) : s = t := by
  cases s
  cases t
  exact congrArg Tree.mk (Std.ExtTreeMap.ext_getElem? h)

@[simp] theorem get?_put (t : Tree) (path q : String) (node : Node) :
    (t.put path node).get? q = if path = q then some node else t.get? q := by
  simp [get?, put, Std.ExtTreeMap.getElem?_insert]

@[simp] theorem get?_drop (t : Tree) (path q : String) :
    (t.drop path).get? q = if path = q then none else t.get? q := by
  simp [get?, drop, Std.ExtTreeMap.getElem?_erase]

@[simp] theorem get?_rootOnly (q : String) :
    rootOnly.get? q = if "/" = q then some (.directory Mode.defaultDirectory) else none := by
  simp [get?, rootOnly, Std.ExtTreeMap.getElem?_insert]

/-- Whether there is a node at a path. -/
def contains (t : Tree) (path : String) : Bool := (t.get? path).isSome

/-- Whether there is a directory at a path. -/
def isDirectory (t : Tree) (path : String) : Bool := (t.get? path).any Node.isDirectory

/-- What the file at a path holds. -/
def contents? (t : Tree) (path : String) : Option Contents :=
  match t.get? path with
  | some (.file data _) => some data
  | _ => none

/-- The file at a path, or why there is none. -/
def file (t : Tree) (path : String) : Except SysError (Contents × Mode) :=
  match t.get? path with
  | some (.file data mode) => .ok (data, mode)
  | some (.directory _) => .error .isDirectory
  | none => .error .notFound

/-- Adds a node where there is none; `parent`, the path of its parent, has to lead to a
directory. -/
def createUnder (t : Tree) (parent : Option String) (path : String) (node : Node) :
    Except SysError Tree :=
  if t.contains path then .error .alreadyExists
  else
    match parent.bind t.get? with
    | some (.directory _) => .ok (t.put path node)
    | some (.file ..) => .error .notDirectory
    | none => .error .notFound

/-- Adds a node where there is none; its parent has to be a directory. -/
def create (t : Tree) (path : String) (node : Node) : Except SysError Tree :=
  t.createUnder (Path.parent? path) path node

/-- Adds an empty file. -/
def createFile (t : Tree) (path : String) (mode : Mode) : Except SysError Tree :=
  t.create path (.file .empty mode)

/-- Adds an empty directory. -/
def createDirectory (t : Tree) (path : String) (mode : Mode) : Except SysError Tree :=
  t.create path (.directory mode)

/-- The outcome of a step that leaves the tree alone when it fails. -/
def orSame (t : Tree) : Except SysError Tree → Except SysError Unit × Tree
  | .ok changed => (.ok (), changed)
  | .error e => (.error e, t)

/-- Makes sure that there is a directory at a path, adding missing ancestors first. Ancestors that
were added stay when a later step fails. -/
def createDirs (t : Tree) (path : String) : Except SysError Unit × Tree :=
  let node := Node.directory Mode.defaultDirectory
  if t.isDirectory path then (.ok (), t)
  else
    match _h : Path.parent? path with
    | none => t.orSame (t.createUnder none path node)
    | some parent =>
      match t.createDirs parent with
      | (.error e, t) => (.error e, t)
      | (.ok (), t) => t.orSame (t.createUnder (some parent) path node)
termination_by path.length
decreasing_by exact Path.length_lt_of_parent? _h

/-- Makes `data` the contents of the file at a path, adding the file and missing ancestors. A file
that was there keeps its mode. -/
def putFile (t : Tree) (path : String) (data : Bytes) : Except SysError Unit × Tree :=
  let (above, t) :=
    match Path.parent? path with
    | some parent => t.createDirs parent
    | none => (.ok (), t)
  match above with
  | .error e => (.error e, t)
  | .ok () =>
    match t.get? path with
    | some (.file _ mode) => (.ok (), t.put path (.file (.ofBytes data) mode))
    | some (.directory _) => (.error .isDirectory, t)
    | none => (.ok (), t.put path (.file (.ofBytes data) Mode.defaultFile))

/-- Empties the file at a path. -/
def truncate (t : Tree) (path : String) : Except SysError Tree := do
  let (_, mode) ← t.file path
  return t.put path (.file .empty mode)

/-- Removes the file at a path. -/
def remove (t : Tree) (path : String) : Except SysError Tree := do
  let _ ← t.file path
  return t.drop path

/-- The number of bytes of the file at a path. -/
def fileSize (t : Tree) (path : String) : Except SysError Nat := do
  let (data, _) ← t.file path
  return data.size

/-- Where the file at a path ends: its size, and the start where there is no file. -/
def endOf (t : Tree) (path : String) : Nat := ((t.contents? path).map Contents.size).getD 0

/-- At most `count` bytes of a file from a position on; nothing where there is no file, and nothing
at or past its end. -/
def readAt (t : Tree) (path : String) (position count : Nat) : Bytes :=
  match t.contents? path with
  | some data => data.slice position count
  | none => []

/-- Lays `data` over a file at a position; a gap before it is filled with zeros. -/
def writeAt (t : Tree) (path : String) (position : Nat) (data : Bytes) : Except SysError Tree :=
  match t.get? path with
  | some (.file old mode) =>
    if position + data.length ≤ maxFileSize then
      .ok (t.put path (.file (old.splice position data) mode))
    else .error .fileTooLarge
  | _ => .error .inputOutput

/-- The tree of a snapshot: paths are brought to normal form, of two that name one place the later
counts, and the root is a directory whatever the snapshot says. -/
def ofEntries (entries : List (String × Node)) : Tree :=
  let t := entries.foldl
    (fun t entry =>
      match Path.resolve "/" entry.1 with
      | some path => t.put path entry.2
      | none => t)
    rootOnly
  if t.isDirectory "/" then t else t.put "/" (.directory Mode.defaultDirectory)

end Tree

end Hostcall
