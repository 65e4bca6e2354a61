import TelemetryRouter.Error
import TelemetryRouter.Text.Lowercase

/-!
# Log levels and formats by name

Names are compared in lower case. An unknown level means the level of ordinary messages; an unknown format is an error.
-/

namespace TelemetryRouter

/-- The importance from which on messages are written. -/
inductive LogLevel where
  | trace
  | debug
  | info
  | warn
  | error
  deriving DecidableEq, Repr

namespace LogLevel

/-- The level of a lower-case name. -/
def ofName? : String → Option LogLevel
  | "trace" => some .trace
  | "debug" => some .debug
  | "info" => some .info
  | "warn" => some .warn
  | "error" => some .error
  | _ => none

/-- The level of a name in any case, that of ordinary messages when the name is unknown. -/
def read (text : String) : LogLevel := (ofName? (Lowercase.lowercase text)).getD .info

/-- The name of a level as messages show it. -/
def shown : LogLevel → String
  | .trace => "TRACE"
  | .debug => "DEBUG"
  | .info => "INFO"
  | .warn => "WARN"
  | .error => "ERROR"

end LogLevel

/-- How messages are written. -/
inductive LogFormat where
  | json
  | text
  deriving DecidableEq, Repr

namespace LogFormat

/-- The format of a lower-case name. -/
def ofName? : String → Option LogFormat
  | "json" => some .json
  | "text" => some .text
  | _ => none

/-- The format of a name in any case. -/
def read (text : String) : Except RouterError LogFormat :=
  let name := Lowercase.lowercase text
  match ofName? name with
  | some f => .ok f
  | none => .error (.configuration ("Invalid log format: " ++ name))

/-- The name of a format as descriptions show it. -/
def shown : LogFormat → String
  | .json => "Json"
  | .text => "Text"

end LogFormat

end TelemetryRouter
