import TelemetryRouter.Json.Basic
import TelemetryRouter.Telemetry.Item

/-!
# Telemetry as JSON

Each kind of value is written with all its fields and read back with defaults for those that may be left out. Reading refuses a
missing required field, a value of another kind and a number out of its range; fields of other names are passed over. Integers
and doubles stay apart: an attribute or a point holds the kind of number that was written. A double that is not finite is
written as null.
-/

namespace TelemetryRouter

open Json (Fields)

/-- A list of values. -/
def encodeList {α : Type} (encode : α → Json) (xs : List α) : Json := .list (xs.map encode)

/-- A string of bytes as numbers. -/
def encodeBytes (bytes : List UInt8) : Json := encodeList (fun b => .int b.toNat) bytes

/-- Exactly so many bytes. -/
def decodeBytes (n : Nat) (v : Json) : Option (Vector UInt8 n) := (v.listOf? Json.uint8?).bind (bytesOfList? n)

namespace RoutingKey

/-- A key as JSON. -/
def toJson (key : RoutingKey) : Json := encodeBytes key.bytes.toList

/-- A key from JSON. -/
def ofJson? (v : Json) : Option RoutingKey := (decodeBytes 16 v).map RoutingKey.mk

end RoutingKey

namespace TraceId

/-- A trace identifier as JSON. -/
def toJson (id : TraceId) : Json := encodeBytes id.bytes.toList

/-- A trace identifier from JSON. -/
def ofJson? (v : Json) : Option TraceId := (decodeBytes 16 v).map TraceId.mk

end TraceId

namespace SpanId

/-- A span identifier as JSON. -/
def toJson (id : SpanId) : Json := encodeBytes id.bytes.toList

/-- A span identifier from JSON. -/
def ofJson? (v : Json) : Option SpanId := (decodeBytes 8 v).map SpanId.mk

end SpanId

namespace AttributeValue

/-- A value as JSON: the kind of JSON value tells the kind of attribute value, unless it is a double that is not finite. -/
def toJson : AttributeValue → Json
  | .bool b => .bool b
  | .int n => .int n.toInt
  | .double x => Json.ofFloat x
  | .text s => .text s

/-- A value from JSON; an integer that does not fit becomes a double. -/
def ofJson? : Json → Option AttributeValue
  | .bool b => some (.bool b)
  | .int n => match (Json.int n).int64? with
    | some i => some (.int i)
    | none => some (.double (Json.floatOfInt n))
  | .double x => some (.double x)
  | .text s => some (.text s)
  | _ => none

end AttributeValue

namespace Attribute

/-- An attribute as JSON. -/
def toJson (a : Attribute) : Json := .record [("key", .text a.key), ("value", a.value.toJson)]

/-- An attribute from JSON. -/
def ofJson? (v : Json) : Option Attribute := do
  let fs ← v.fields? 2
  let key ← fs.need "key" 0 Json.text?
  let value ← fs.need "value" 1 AttributeValue.ofJson?
  pure ⟨key, value⟩

end Attribute

/-- A list of attributes from JSON. -/
def decodeAttributes (v : Json) : Option (List Attribute) := v.listOf? Attribute.ofJson?

namespace Resource

/-- A resource as JSON. -/
def toJson (r : Resource) : Json :=
  .record [("attributes", encodeList Attribute.toJson r.attributes), ("dropped_attributes_count", .int r.droppedAttributes.toNat)]

/-- A resource from JSON. -/
def ofJson? (v : Json) : Option Resource := do
  let fs ← v.fields? 2
  let attributes ← fs.orElse "attributes" 0 [] decodeAttributes
  let dropped ← fs.orElse "dropped_attributes_count" 1 0 Json.uint32?
  pure ⟨attributes, dropped⟩

end Resource

namespace Scope

/-- A scope as JSON. -/
def toJson (s : Scope) : Json :=
  .record [("name", .text s.name), ("version", .text s.version), ("attributes", encodeList Attribute.toJson s.attributes)]

/-- A scope from JSON. -/
def ofJson? (v : Json) : Option Scope := do
  let fs ← v.fields? 3
  let name ← fs.orElse "name" 0 "" Json.text?
  let version ← fs.orElse "version" 1 "" Json.text?
  let attributes ← fs.orElse "attributes" 2 [] decodeAttributes
  pure ⟨name, version, attributes⟩

end Scope

section Groups

variable {α : Type}

/-- A scope group as JSON. -/
def ScopeGroup.toJson (item : α → Json) (sg : ScopeGroup α) : Json :=
  .record [("scope", sg.scope.toJson), ("schema_url", .text sg.schemaUrl), ("items", encodeList item sg.items)]

/-- A scope group from JSON. -/
def ScopeGroup.ofJson? (item : Json → Option α) (v : Json) : Option (ScopeGroup α) := do
  let fs ← v.fields? 3
  let scope ← fs.orElse "scope" 0 Scope.empty Scope.ofJson?
  let schemaUrl ← fs.orElse "schema_url" 1 "" Json.text?
  let items ← fs.need "items" 2 (Json.listOf? item)
  pure ⟨scope, schemaUrl, items⟩

/-- A resource group as JSON. -/
def ResourceGroup.toJson (item : α → Json) (rg : ResourceGroup α) : Json :=
  .record [("resource", rg.resource.toJson), ("schema_url", .text rg.schemaUrl),
    ("scope_groups", encodeList (ScopeGroup.toJson item) rg.scopeGroups)]

/-- A resource group from JSON. -/
def ResourceGroup.ofJson? (item : Json → Option α) (v : Json) : Option (ResourceGroup α) := do
  let fs ← v.fields? 3
  let resource ← fs.orElse "resource" 0 Resource.empty Resource.ofJson?
  let schemaUrl ← fs.orElse "schema_url" 1 "" Json.text?
  let scopeGroups ← fs.need "scope_groups" 2 (Json.listOf? (ScopeGroup.ofJson? item))
  pure ⟨resource, schemaUrl, scopeGroups⟩

/-- A batch as JSON. -/
def Batch.toJson (item : α → Json) (b : Batch α) : Json :=
  .record [("resource_groups", encodeList (ResourceGroup.toJson item) b.resourceGroups)]

/-- A batch from JSON. -/
def Batch.ofJson? (item : Json → Option α) (v : Json) : Option (Batch α) := do
  let fs ← v.fields? 1
  let groups ← fs.need "resource_groups" 0 (Json.listOf? (ResourceGroup.ofJson? item))
  pure ⟨groups⟩

end Groups

namespace Span

/-- A span as JSON. -/
def toJson (s : Span) : Json :=
  .record [("trace_id", s.traceId.toJson), ("span_id", s.spanId.toJson), ("parent_span_id", s.parentSpanId.toJson),
    ("name", .text s.name), ("kind", .text s.kind.name), ("start_time_unix_nano", .int s.startTime.toNat),
    ("end_time_unix_nano", .int s.endTime.toNat), ("attributes", encodeList Attribute.toJson s.attributes)]

/-- A span from JSON. -/
def ofJson? (v : Json) : Option Span := do
  let fs ← v.fields? 8
  let traceId ← fs.need "trace_id" 0 TraceId.ofJson?
  let spanId ← fs.orElse "span_id" 1 SpanId.empty SpanId.ofJson?
  let parentSpanId ← fs.orElse "parent_span_id" 2 SpanId.empty SpanId.ofJson?
  let name ← fs.orElse "name" 3 "" Json.text?
  let kind ← fs.orElse "kind" 4 SpanKind.unspecified (fun k => k.choice?.bind SpanKind.ofName?)
  let startTime ← fs.orElse "start_time_unix_nano" 5 0 Json.uint64?
  let endTime ← fs.orElse "end_time_unix_nano" 6 0 Json.uint64?
  let attributes ← fs.orElse "attributes" 7 [] decodeAttributes
  pure ⟨traceId, spanId, parentSpanId, name, kind, startTime, endTime, attributes⟩

end Span

namespace LogRecord

/-- A body, which may be absent, as JSON. -/
def bodyToJson : Option AttributeValue → Json
  | none => .null
  | some v => v.toJson

/-- A body from JSON. -/
def bodyOfJson? : Json → Option (Option AttributeValue)
  | .null => some none
  | v => (AttributeValue.ofJson? v).map some

/-- A log record as JSON. -/
def toJson (r : LogRecord) : Json :=
  .record [("time_unix_nano", .int r.time.toNat), ("severity_number", .int r.severity.number.toNat),
    ("severity_text", .text r.severityText), ("body", bodyToJson r.body), ("trace_id", r.traceId.toJson),
    ("span_id", r.spanId.toJson), ("attributes", encodeList Attribute.toJson r.attributes)]

/-- A log record from JSON. -/
def ofJson? (v : Json) : Option LogRecord := do
  let fs ← v.fields? 7
  let time ← fs.orElse "time_unix_nano" 0 0 Json.uint64?
  let severity ← fs.orElse "severity_number" 1 Severity.unspecified (fun n => n.uint8?.map Severity.mk)
  let severityText ← fs.orElse "severity_text" 2 "" Json.text?
  let body ← fs.orElse "body" 3 none bodyOfJson?
  let traceId ← fs.orElse "trace_id" 4 TraceId.empty TraceId.ofJson?
  let spanId ← fs.orElse "span_id" 5 SpanId.empty SpanId.ofJson?
  let attributes ← fs.orElse "attributes" 6 [] decodeAttributes
  pure ⟨time, severity, severityText, body, traceId, spanId, attributes⟩

end LogRecord

namespace NumberValue

/-- A measured number as JSON. -/
def toJson : NumberValue → Json
  | .int n => .int n.toInt
  | .double x => Json.ofFloat x

/-- A measured number from JSON; an integer that does not fit becomes a double. -/
def ofJson? : Json → Option NumberValue
  | .int n => match (Json.int n).int64? with
    | some i => some (.int i)
    | none => some (.double (Json.floatOfInt n))
  | .double x => some (.double x)
  | _ => none

end NumberValue

namespace NumberPoint

/-- A measurement as JSON. -/
def toJson (p : NumberPoint) : Json :=
  .record [("attributes", encodeList Attribute.toJson p.attributes), ("time_unix_nano", .int p.time.toNat),
    ("value", p.value.toJson)]

/-- A measurement from JSON. -/
def ofJson? (v : Json) : Option NumberPoint := do
  let fs ← v.fields? 3
  let attributes ← fs.orElse "attributes" 0 [] decodeAttributes
  let time ← fs.orElse "time_unix_nano" 1 0 Json.uint64?
  let value ← fs.need "value" 2 NumberValue.ofJson?
  pure ⟨attributes, time, value⟩

end NumberPoint

namespace HistogramPoint

/-- A distribution as JSON. -/
def toJson (p : HistogramPoint) : Json :=
  .record [("attributes", encodeList Attribute.toJson p.attributes), ("time_unix_nano", .int p.time.toNat),
    ("count", .int p.count.toNat), ("sum", Json.ofFloat p.sum),
    ("bucket_counts", encodeList (fun n : UInt64 => .int n.toNat) p.bucketCounts),
    ("explicit_bounds", encodeList Json.ofFloat p.explicitBounds)]

/-- A distribution from JSON. -/
def ofJson? (v : Json) : Option HistogramPoint := do
  let fs ← v.fields? 6
  let attributes ← fs.orElse "attributes" 0 [] decodeAttributes
  let time ← fs.orElse "time_unix_nano" 1 0 Json.uint64?
  let count ← fs.need "count" 2 Json.uint64?
  let sum ← fs.need "sum" 3 Json.float?
  let bucketCounts ← fs.need "bucket_counts" 4 (Json.listOf? Json.uint64?)
  let explicitBounds ← fs.need "explicit_bounds" 5 (Json.listOf? Json.float?)
  pure ⟨attributes, time, count, sum, bucketCounts, explicitBounds⟩

end HistogramPoint

namespace MetricData

/-- The points of a metric as JSON, told apart by a field for the kind. -/
def toJson : MetricData → Json
  | .gauge points => .record [("type", .text "gauge"), ("data_points", encodeList NumberPoint.toJson points)]
  | .sum points monotonic =>
    .record [("type", .text "sum"), ("data_points", encodeList NumberPoint.toJson points), ("is_monotonic", .bool monotonic)]
  | .histogram points => .record [("type", .text "histogram"), ("data_points", encodeList HistogramPoint.toJson points)]

/-- The kind of a metric and its other fields. In a list the kind comes first. -/
def kindOfJson? : Json → Option (String × Json)
  | .record fields => do
    let kind ← (Json.record fields).field? "type"
    let name ← kind.text?
    pure (name, .record fields)
  | .list (.text name :: rest) => some (name, .list rest)
  | _ => none

/-- The points of a metric from JSON. -/
def ofJson? (v : Json) : Option MetricData := do
  let (kind, content) ← kindOfJson? v
  match kind with
  | "gauge" =>
    let fs ← content.fields? 1
    let points ← fs.need "data_points" 0 (Json.listOf? NumberPoint.ofJson?)
    pure (.gauge points)
  | "sum" =>
    let fs ← content.fields? 2
    let points ← fs.need "data_points" 0 (Json.listOf? NumberPoint.ofJson?)
    let monotonic ← fs.need "is_monotonic" 1 Json.bool?
    pure (.sum points monotonic)
  | "histogram" =>
    let fs ← content.fields? 1
    let points ← fs.need "data_points" 0 (Json.listOf? HistogramPoint.ofJson?)
    pure (.histogram points)
  | _ => none

end MetricData

namespace Metric

/-- A metric as JSON. -/
def toJson (m : Metric) : Json :=
  .record [("name", .text m.name), ("description", .text m.description), ("unit", .text m.unit), ("data", m.data.toJson)]

/-- A metric from JSON. -/
def ofJson? (v : Json) : Option Metric := do
  let fs ← v.fields? 4
  let name ← fs.need "name" 0 Json.text?
  let description ← fs.orElse "description" 1 "" Json.text?
  let unit ← fs.orElse "unit" 2 "" Json.text?
  let data ← fs.need "data" 3 MetricData.ofJson?
  pure ⟨name, description, unit, data⟩

end Metric

end TelemetryRouter
