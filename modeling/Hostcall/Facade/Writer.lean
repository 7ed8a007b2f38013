import Hostcall.Facade.Derived

/-!
# Formatted output

Formatting hands out a text in pieces. A writer sends each piece to a descriptor and keeps the error
of the latest piece that failed, because formatting itself can only say that it failed.
-/

namespace Hostcall

/-- A destination for pieces of text, with the latest failure. -/
structure Writer where
  fd : Fd
  failure : Option Error := none
deriving DecidableEq, Repr

namespace Writer

/-- Sends a piece and says whether all of it was written. -/
def write (f : Facade) (w : Writer) (piece : String) : Program (Bool × Writer) := do
  match ← f.writeAll w.fd (Utf8.encode piece) with
  | .ok () => return (true, w)
  | .error e => return (false, { w with failure := some e })

/-- The failure that is kept, which is then forgotten. -/
def takeError (w : Writer) : Option Error × Writer := (w.failure, { w with failure := none })

/-- Sends pieces one after the other until one fails, and says whether none did. -/
def writeWhile (f : Facade) (w : Writer) : List String → Program (Bool × Writer)
  | [] => return (true, w)
  | piece :: pieces => do
    let (good, w) ← w.write f piece
    if good then w.writeWhile f pieces else return (false, w)

end Writer

/-- A value as its formatting hands it out: pieces, and possibly a failure of its own after
them. -/
structure Formatted where
  pieces : List String
  fails : Bool := false
deriving DecidableEq, Repr

/-- Formats a value to a descriptor. A value that fails on its own ends the output and is no error
here. -/
def Facade.writeFormatted (f : Facade) (fd : Fd) (v : Formatted) :
    Program (Except Error Unit) := do
  let (good, w) ← Writer.writeWhile f ⟨fd, none⟩ v.pieces
  if good && !v.fails then return .ok ()
  else
    match w.takeError.1 with
    | some e => return .error e
    | none => return .ok ()

/-- Formats a value to a descriptor and forgets what comes of it. -/
def Facade.print (f : Facade) (fd : Fd) (v : Formatted) : Program Unit := do
  let _ ← f.writeFormatted fd v

/-- Formats a value and a newline to a descriptor and forgets what comes of it. -/
def Facade.printLine (f : Facade) (fd : Fd) (v : Formatted) : Program Unit :=
  f.print fd { v with pieces := v.pieces ++ (if v.fails then [] else ["\n"]) }

end Hostcall
