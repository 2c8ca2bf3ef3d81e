/-!
# Log records

What the host reports while it runs: a level, a message, and named fields in the order in which
they were given.
-/

namespace Stagehand

/-- How much a record matters. -/
inductive Level where
  | error
  | warn
  | info
  | debug
  deriving DecidableEq, Repr

/-- The name of a level as it is written. -/
def Level.name : Level → String
  | .error => "ERROR"
  | .warn => "WARN"
  | .info => "INFO"
  | .debug => "DEBUG"

/-- One record. -/
structure LogRecord where
  level : Level
  message : String
  fields : List (String × String) := []
  /-- Who speaks, when it is not the host itself. -/
  target : Option String := none
  deriving DecidableEq, Repr

/-- A record of the host. -/
def Level.report (level : Level) (message : String) (fields : List (String × String)) : LogRecord :=
  ⟨level, message, fields, none⟩

namespace LogRecord

/-- The record is for those who run the host; what is left is for those who look for a fault. -/
def isPublic (r : LogRecord) : Bool := r.level != .debug

/-- The record on one line. -/
def line (r : LogRecord) : String :=
  let speaker := match r.target with
    | some name => name ++ ": "
    | none => ""
  let fields := r.fields.map fun (name, value) => " " ++ name ++ "=" ++ value
  r.level.name ++ " " ++ speaker ++ r.message ++ String.join fields

end LogRecord
end Stagehand
