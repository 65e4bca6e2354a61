import TelemetryRouter.Duration.Basic
import TelemetryRouter.Text.Quoted

/-!
# The metrics of the router

A recorder keeps counters, gauges and histograms, each under its name and labels. A handle decides which recorder is written to
and carries the name of the resolver that labels the metrics of discovery and of the pool.
-/

namespace TelemetryRouter

/-- A metric and its labels. -/
structure MetricKey where
  name : String
  labels : List (String × String)
  deriving DecidableEq, Repr

/-- The text of a metric and its labels, the labels sorted. -/
def MetricKey.text (k : MetricKey) : String :=
  let labels := (k.labels.map (fun l => l.1 ++ "=" ++ l.2)).mergeSort (fun a b => !decide (b < a))
  k.name ++ "\x7b" ++ String.intercalate "," labels ++ "\x7d"

/-- What is known of one metric. -/
inductive MetricState where
  | counter (count : Nat)
  | gauge (value : Nat)
  | histogram (samples : List Float)

/-- All that a recorder has seen, in order of first use. -/
structure MetricBook where
  entries : List (MetricKey × MetricState)

namespace MetricBook

/-- A recorder that has seen nothing. -/
def empty : MetricBook := ⟨[]⟩

/-- What is known of a metric. -/
def find? (b : MetricBook) (k : MetricKey) : Option MetricState := (b.entries.find? (fun e => e.1 == k)).map (·.2)

/-- Replaces what is known of a metric. -/
def set (b : MetricBook) (k : MetricKey) (s : MetricState) : MetricBook :=
  if b.entries.any (fun e => e.1 == k) then ⟨b.entries.map (fun e => if e.1 == k then (k, s) else e)⟩
  else ⟨b.entries ++ [(k, s)]⟩

/-- Counts one event. -/
def increment (b : MetricBook) (k : MetricKey) : MetricBook :=
  match b.find? k with
  | some (.counter n) => b.set k (.counter (n + 1))
  | _ => b.set k (.counter 1)

/-- Sets a gauge. -/
def setGauge (b : MetricBook) (k : MetricKey) (value : Nat) : MetricBook := b.set k (.gauge value)

/-- Adds a sample. -/
def addSample (b : MetricBook) (k : MetricKey) (sample : Float) : MetricBook :=
  match b.find? k with
  | some (.histogram samples) => b.set k (.histogram (samples ++ [sample]))
  | _ => b.set k (.histogram [sample])

/-- The label of a truth value. -/
def flag (b : Bool) : String := if b then "true" else "false"

/-- The counter of resolutions of a resolver. -/
def resolutionsKey (resolver : String) (success : Bool) : MetricKey :=
  ⟨"loadbalancer_num_resolutions", [("resolver", resolver), ("success", flag success)]⟩

/-- The gauge of exporters in the pool. -/
def backendsKey (resolver : String) : MetricKey := ⟨"loadbalancer_num_backends", [("resolver", resolver)]⟩

/-- The counter of changes of the pool. -/
def backendUpdatesKey (resolver : String) : MetricKey := ⟨"loadbalancer_num_backend_updates", [("resolver", resolver)]⟩

/-- The latencies of exports to an endpoint. -/
def latencyKey (endpoint : String) : MetricKey := ⟨"loadbalancer_backend_latency", [("endpoint", endpoint)]⟩

/-- The counter of outcomes of exports to an endpoint. -/
def outcomeKey (endpoint : String) (success : Bool) : MetricKey :=
  ⟨"loadbalancer_backend_outcome", [("endpoint", endpoint), ("success", flag success)]⟩

/-- A resolution came to an end. -/
def recordResolution (b : MetricBook) (resolver : String) (success : Bool) : MetricBook :=
  b.increment (resolutionsKey resolver success)

/-- The pool holds so many exporters. -/
def recordBackends (b : MetricBook) (resolver : String) (count : Nat) : MetricBook := b.setGauge (backendsKey resolver) count

/-- The set of exporters changed. -/
def recordBackendUpdate (b : MetricBook) (resolver : String) : MetricBook := b.increment (backendUpdatesKey resolver)

/-- An export came to an end. -/
def recordExport (b : MetricBook) (endpoint : String) (latency : Duration) (success : Bool) : MetricBook :=
  (b.addSample (latencyKey endpoint) latency.milliseconds).increment (outcomeKey endpoint success)

end MetricBook

/-- Which recorder a handle writes to: the one of the process, one of its own, or none. -/
inductive MetricSink where
  | shared
  | own
  | discard
  deriving DecidableEq, Repr

/-- A handle for recording metrics. -/
structure Telemetry where
  sink : MetricSink
  resolver : String
  deriving DecidableEq, Repr

namespace Telemetry

/-- The resolver of a handle that was given none. -/
def unknownResolver : String := "unknown"

/-- A handle of a kind of recorder, not yet bound to a resolver. -/
def ofSink (sink : MetricSink) : Telemetry := ⟨sink, unknownResolver⟩

/-- The handle with another resolver. -/
def forResolver (t : Telemetry) (resolver : String) : Telemetry := { t with resolver := resolver }

/-- The name of a kind of recorder. -/
def sinkName : MetricSink → String
  | .shared => "global"
  | .own => "local"
  | .discard => "noop"

/-- The description of a handle. -/
def describe (t : Telemetry) : String :=
  "LoadBalancerTelemetry \x7b sink: " ++ Quoted.quote (sinkName t.sink) ++ ", resolver: " ++ Quoted.quote t.resolver ++ " \x7d"

/-- The recorders that exist: that of the process and the handle's own. -/
structure Recorders where
  shared : MetricBook
  own : MetricBook

/-- Writes to the recorder of a handle. -/
def record (t : Telemetry) (r : Recorders) (change : MetricBook → MetricBook) : Recorders :=
  match t.sink with
  | .shared => { r with shared := change r.shared }
  | .own => { r with own := change r.own }
  | .discard => r

end Telemetry

end TelemetryRouter
