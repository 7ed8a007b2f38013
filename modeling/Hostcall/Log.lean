/-!
# Log messages
-/

namespace Hostcall

/-- How much a message matters, the least first. -/
inductive Level where
  | trace
  | debug
  | info
  | warn
  | error
deriving DecidableEq, Repr

/-- The name of a level in the log. -/
def Level.name : Level → String
  | trace => "TRACE"
  | debug => "DEBUG"
  | info => "INFO"
  | warn => "WARN"
  | error => "ERROR"

/-- One message of the log. -/
structure LogEntry where
  level : Level
  message : String
deriving DecidableEq, Repr

end Hostcall
