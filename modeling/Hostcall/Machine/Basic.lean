import Hostcall.Host
import Hostcall.Machine.SlotTable
import Hostcall.Text.Utf8
import Hostcall.Tree.Basic

/-!
# The simulated machine

Everything that a simulated host keeps: the file tree and the current directory, the descriptor
table, the error register, the three standard streams, the clock, and how often each call was made.
Two settings make writes fail in the ways that a real host may: a cap on the bytes that one write
takes, and writes that take nothing at all.
-/

namespace Hostcall

/-- What a descriptor stands for. An open file is known by its path, so whoever removes the file
takes it from under the descriptor. -/
inductive OpenFile where
  | stdin
  | stdout
  | stderr
  | file (path : String) (position : Nat) (flags : OpenFlags)
deriving DecidableEq, Repr

/-- How often each call was made. -/
structure CallCounts where
  write : Nat := 0
  read : Nat := 0
  openFile : Nat := 0
  close : Nat := 0
  unlink : Nat := 0
  mkdir : Nat := 0
  chdir : Nat := 0
  getcwd : Nat := 0
  lseek : Nat := 0
  errno : Nat := 0
  strerror : Nat := 0
  sleep : Nat := 0
  usleep : Nat := 0
  exit : Nat := 0
  abort : Nat := 0
deriving DecidableEq, Repr

namespace CallCounts

/-- One more of a call that is answered. -/
def add (c : CallCounts) : Request → CallCounts
  | .write .. => { c with write := c.write + 1 }
  | .read .. => { c with read := c.read + 1 }
  | .openFile .. => { c with openFile := c.openFile + 1 }
  | .close .. => { c with close := c.close + 1 }
  | .unlink .. => { c with unlink := c.unlink + 1 }
  | .mkdir .. => { c with mkdir := c.mkdir + 1 }
  | .chdir .. => { c with chdir := c.chdir + 1 }
  | .getcwd .. => { c with getcwd := c.getcwd + 1 }
  | .lseek .. => { c with lseek := c.lseek + 1 }
  | .errno => { c with errno := c.errno + 1 }
  | .strerror .. => { c with strerror := c.strerror + 1 }
  | .sleep .. => { c with sleep := c.sleep + 1 }
  | .usleep .. => { c with usleep := c.usleep + 1 }

/-- One more of a call that ends the applet. -/
def addStop (c : CallCounts) : Stop → CallCounts
  | .exit _ => { c with exit := c.exit + 1 }
  | .abort => { c with abort := c.abort + 1 }

end CallCounts

/-- The state of a simulated host. -/
structure Machine where
  tree : Tree
  cwd : String
  files : SlotTable OpenFile
  /-- The error register, which keeps its number until the next failure. -/
  errno : Int := 0
  stdin : Bytes := []
  stdinPosition : Nat := 0
  stdout : Contents := .empty
  stderr : Contents := .empty
  /-- The number of bytes that one write takes at most. -/
  writeCap : Option Nat := none
  /-- Whether writes take nothing, without failing. -/
  stalled : Bool := false
  /-- The microseconds slept, fewer than `clockEnd`. -/
  slept : Nat := 0
  calls : CallCounts := {}

namespace Machine

/-- The descriptors that are open from the start. -/
def standardFiles : SlotTable OpenFile := .ofList [.stdin, .stdout, .stderr]

/-- The machine with an empty tree and nothing set. -/
def initial : Machine := { tree := .rootOnly, cwd := "/", files := standardFiles }

/-- What a descriptor stands for. -/
def entry? (m : Machine) (fd : Fd) : Option OpenFile :=
  if fd.number < 0 then none else m.files.get? fd.number.toNat

/-- The number of open descriptors. -/
def openCount (m : Machine) : Nat := m.files.count

/-- The place that a path names, seen from the current directory. -/
def resolve (m : Machine) (path : String) : Option String := Path.resolve m.cwd path

/-- What a file holds, by any path to it. -/
def contents? (m : Machine) (path : String) : Option Contents :=
  (m.resolve path).bind m.tree.contents?

/-- Whether a path leads to a node. -/
def leadsTo (m : Machine) (path : String) : Bool := (m.resolve path).any m.tree.contains

/-- The mode of the node that a path leads to. -/
def mode? (m : Machine) (path : String) : Option Mode :=
  ((m.resolve path).bind m.tree.get?).map Node.mode

/-- What was written to the standard output, and the machine that has forgotten it. -/
def takeStdout (m : Machine) : Bytes × Machine :=
  (m.stdout.bytes, { m with stdout := .empty })

/-- What was written to the standard error, and the machine that has forgotten it. -/
def takeStderr (m : Machine) : Bytes × Machine :=
  (m.stderr.bytes, { m with stderr := .empty })

/-- The machine with all counts at zero. -/
def resetCalls (m : Machine) : Machine := { m with calls := {} }

end Machine

end Hostcall
