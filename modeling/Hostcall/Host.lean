import Hostcall.CString
import Hostcall.Fd
import Hostcall.Mode
import Hostcall.OpenFlags

/-!
# Hosts

A host answers fifteen primitive calls. Thirteen of them give an answer, in the conventions of C: a
negative number, or nothing where a pointer was expected, says that the call failed, and the reason
waits in the error register, which the call `errno` reads. Two calls end the applet and give no
answer. A call that fills a caller's buffer takes the buffer as it is and answers with its bytes
afterwards.
-/

namespace Hostcall

/-- A primitive call that the host answers. -/
inductive Request where
  | write (fd : Fd) (data : Bytes)
  | read (fd : Fd) (buffer : Bytes)
  | openFile (path : CString) (flags : OpenFlags) (mode : Mode)
  | close (fd : Fd)
  | unlink (path : CString)
  | mkdir (path : CString) (mode : Mode)
  | chdir (path : CString)
  | getcwd (buffer : Bytes)
  | lseek (fd : Fd) (offset : Int) (whence : Int)
  | errno
  | strerror (code : Int)
  | sleep (seconds : Nat)
  | usleep (micros : Nat)
deriving DecidableEq, Repr

/-- What a call is answered with. -/
@[reducible] def Request.Reply : Request → Type
  | .write .. => Int
  | .read .. => Int × Bytes
  | .openFile .. => Int
  | .close .. => Int
  | .unlink .. => Int
  | .mkdir .. => Int
  | .chdir .. => Int
  | .getcwd .. => Option Bytes × Bytes
  | .lseek .. => Int
  | .errno => Int
  | .strerror .. => Option Bytes
  | .sleep .. => Nat
  | .usleep .. => Int

/-- A primitive call that ends the applet. -/
inductive Stop where
  | exit (status : Int)
  | abort
deriving DecidableEq, Repr

/-- A host with states of type `σ`. -/
structure Host (σ : Type) where
  answer : (request : Request) → σ → request.Reply × σ
  stop : Stop → σ → σ

end Hostcall
