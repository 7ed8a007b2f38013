/-!
# Errors of the system operations

What an applet sees when an operation fails, and the sentence that says so. Only the host knows the
meaning of its numbers, so the sentence of a host error names the number and no more; a
description in words has to be asked of the host (`Facade.describe`).
-/

namespace Hostcall

/-- A number read from the host's error register; 0 stands for no error. -/
structure Errno where
  code : Int
deriving DecidableEq, Repr

namespace Errno

/-- The number that stands for no error. -/
def noError : Errno := ⟨0⟩

/-- Whether the number stands for no error. -/
def isNone (e : Errno) : Bool := e == noError

/-- The number as messages show it. -/
def text (e : Errno) : String := "errno=" ++ toString e.code

end Errno

/-- Why a system operation failed. -/
inductive Error where
  /-- The host call failed and left this number in the error register. -/
  | host (errno : Errno)
  /-- The host accepted nothing although bytes remained. -/
  | shortWrite (remaining : Nat)
  /-- A result was asked for in a buffer that holds nothing. -/
  | emptyBuffer
  /-- There is no host. -/
  | unsupported
deriving DecidableEq, Repr

namespace Error

/-- The description of the number 0. -/
def noErrorText : String := "no error"

/-- The description of a number that the host has no text for. -/
def unknownText : String := "unknown error"

/-- The description where there is no host to ask. -/
def unsupportedText : String := "unsupported (host build)"

/-- The register's number, if the error came from the host. -/
def errno? : Error → Option Errno
  | host e => some e
  | _ => none

/-- The error in one sentence, without asking the host. -/
def message : Error → String
  | host e => "host error (" ++ e.text ++ ")"
  | shortWrite remaining =>
    "short write: " ++ toString remaining ++ " bytes left unwritten"
  | emptyBuffer => "zero-sized buffer"
  | unsupported => unsupportedText

end Error

end Hostcall
