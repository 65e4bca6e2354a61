/-!
# Kinds of telemetry

A batch holds items of one signal.
-/

namespace TelemetryRouter

/-- The kind of telemetry a batch holds. -/
inductive Signal where
  | traces
  | logs
  | metrics
  deriving DecidableEq, Repr

namespace Signal

/-- The name of a signal. -/
def name : Signal → String
  | .traces => "traces"
  | .logs => "logs"
  | .metrics => "metrics"

/-- The signal of a name. -/
def ofName? : String → Option Signal
  | "traces" => some .traces
  | "logs" => some .logs
  | "metrics" => some .metrics
  | _ => none

end Signal

end TelemetryRouter
