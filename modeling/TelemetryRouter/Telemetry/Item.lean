import TelemetryRouter.RoutingKey
import TelemetryRouter.Telemetry.Batch

/-!
# Spans, log records and metrics

The three kinds of item a batch may hold.
-/

namespace TelemetryRouter

/-- The role of a span in a call. -/
inductive SpanKind where
  | unspecified
  | internal
  | server
  | client
  | producer
  | consumer
  deriving DecidableEq, Repr

/-- The name of a role. -/
def SpanKind.name : SpanKind → String
  | .unspecified => "unspecified"
  | .internal => "internal"
  | .server => "server"
  | .client => "client"
  | .producer => "producer"
  | .consumer => "consumer"

/-- The role of a name. -/
def SpanKind.ofName? : String → Option SpanKind
  | "unspecified" => some .unspecified
  | "internal" => some .internal
  | "server" => some .server
  | "client" => some .client
  | "producer" => some .producer
  | "consumer" => some .consumer
  | _ => none

/-- One step of a trace. -/
structure Span where
  traceId : TraceId
  spanId : SpanId
  parentSpanId : SpanId
  name : String
  kind : SpanKind
  startTime : UInt64
  endTime : UInt64
  attributes : List Attribute
  deriving DecidableEq, Repr

/-- A span with nothing but its trace and its name. -/
def Span.named (traceId : TraceId) (name : String) : Span :=
  ⟨traceId, SpanId.empty, SpanId.empty, name, .unspecified, 0, 0, []⟩

/-- The severity of a log record, from 1 to 24; 0 means that none is given. -/
structure Severity where
  number : UInt8
  deriving DecidableEq, Repr

namespace Severity

/-- No severity. -/
def unspecified : Severity := ⟨0⟩

/-- The severity of a common level name, no severity for any other text. -/
def ofLevel : String → Severity
  | "DEBUG" => ⟨5⟩
  | "INFO" => ⟨9⟩
  | "WARN" => ⟨13⟩
  | "ERROR" => ⟨17⟩
  | _ => unspecified

end Severity

/-- One log record, which may belong to a span. -/
structure LogRecord where
  time : UInt64
  severity : Severity
  severityText : String
  body : Option AttributeValue
  traceId : TraceId
  spanId : SpanId
  attributes : List Attribute
  deriving DecidableEq, Repr

/-- A record with nothing but a body. -/
def LogRecord.ofBody (body : AttributeValue) : LogRecord :=
  ⟨0, .unspecified, "", some body, TraceId.empty, SpanId.empty, []⟩

/-- A measured number. -/
inductive NumberValue where
  | int (n : Int64)
  | double (x : Float)
  deriving DecidableEq, Repr

/-- One measurement. -/
structure NumberPoint where
  attributes : List Attribute
  time : UInt64
  value : NumberValue
  deriving DecidableEq, Repr

/-- A measurement with nothing but its value. -/
def NumberPoint.ofValue (value : NumberValue) : NumberPoint := ⟨[], 0, value⟩

/-- One distribution of measurements over buckets. -/
structure HistogramPoint where
  attributes : List Attribute
  time : UInt64
  count : UInt64
  sum : Float
  bucketCounts : List UInt64
  explicitBounds : List Float
  deriving DecidableEq, Repr

/-- The points of a metric, by its kind. -/
inductive MetricData where
  | gauge (points : List NumberPoint)
  | sum (points : List NumberPoint) (monotonic : Bool)
  | histogram (points : List HistogramPoint)
  deriving DecidableEq, Repr

/-- The number of points. -/
def MetricData.pointCount : MetricData → Nat
  | .gauge points => points.length
  | .sum points _ => points.length
  | .histogram points => points.length

/-- One named stream of points. -/
structure Metric where
  name : String
  description : String
  unit : String
  data : MetricData
  deriving DecidableEq, Repr

/-- A gauge. -/
def Metric.gauge (name : String) (points : List NumberPoint) : Metric := ⟨name, "", "", .gauge points⟩

/-- A sum. -/
def Metric.sum (name : String) (points : List NumberPoint) (monotonic : Bool) : Metric := ⟨name, "", "", .sum points monotonic⟩

end TelemetryRouter
