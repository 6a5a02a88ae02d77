/-!
# Log events

An event has a level, a target that tells which part of the service reports it, a message, and named
fields.
-/

namespace Catalogue

/-- Levels of events, the gravest first. -/
inductive Level where
  | error
  | warn
  | info
  | debug
  | trace
  deriving DecidableEq, Repr

/-- The name of a level as it is logged. -/
def Level.name : Level → String
  | .error => "ERROR"
  | .warn => "WARN"
  | .info => "INFO"
  | .debug => "DEBUG"
  | .trace => "TRACE"

/-- The value of a field of an event. -/
inductive FieldValue where
  | text (value : String)
  | number (value : Int)
  deriving DecidableEq, Repr

/-- Something worth logging. -/
structure Event where
  level : Level
  target : String
  message : String
  fields : List (String × FieldValue)
  deriving DecidableEq, Repr

end Catalogue
