import TelemetryRouter.Ring
import TelemetryRouter.Signal
import TelemetryRouter.Telemetry.Item
import TelemetryRouter.Telemetry.Partition

/-!
# Which key an item is routed by

An adapter knows the items of one signal: it finds the routing key of an item in its resource or in the item itself. Items
without a key share the empty key, so that they too go to one fixed endpoint.
-/

namespace TelemetryRouter

/-- What spans are routed by. -/
inductive TraceRouting where
  | traceId
  | service
  deriving DecidableEq, Repr

/-- What metrics are routed by. -/
inductive MetricRouting where
  | resource
  | service
  | metric
  deriving DecidableEq, Repr

/-- The routing knowledge about the items of one signal. -/
structure Adapter (α : Type) where
  signal : Signal
  key : Resource → α → Option RoutingKey

namespace Adapter

/-- Spans go by their trace, or by the service of their resource. -/
def traces (routing : TraceRouting) : Adapter Span :=
  { signal := .traces
    key := fun resource span =>
      match routing with
      | .traceId => span.traceId.routingKey
      | .service => resource.serviceName.map RoutingKey.ofText }

/-- Log records go by the trace they belong to. -/
def logs : Adapter LogRecord := { signal := .logs, key := fun _ record => record.traceId.routingKey }

/-- Metrics go by the identity of their resource, by its service, or by their own name. -/
def metrics (routing : MetricRouting) : Adapter Metric :=
  { signal := .metrics
    key := fun resource metric =>
      match routing with
      | .resource => if resource.attributes.isEmpty then none else some (RoutingKey.ofText resource.identity)
      | .service => resource.serviceName.map RoutingKey.ofText
      | .metric => some (RoutingKey.ofText metric.name) }

variable {α : Type}

/-- The key of an item, the empty key when it carries none. -/
def keyOrEmpty (a : Adapter α) (resource : Resource) (item : α) : RoutingKey := (a.key resource item).getD RoutingKey.empty

/-- Splits a batch by a choice of endpoint for every item. -/
def regroup (_ : Adapter α) (choose : Resource → Scope → α → Endpoint) (b : Batch α) : List (Endpoint × Batch α) :=
  (b.partitionBy (fun (_ : Unit) resource scope item => (choose resource scope item, ())) ()).1

/-- Splits a batch by the owners of its keys on a ring under a hash; none when the ring has no owner for the empty key. -/
def regroupOnWith (hash : ByteArray → UInt64) (a : Adapter α) (ring : Ring) (b : Batch α) : Option (List (Endpoint × Batch α)) :=
  (ring.ownerWith hash RoutingKey.empty).map (fun fallback =>
    a.regroup (fun resource _ item => (ring.ownerWith hash (a.keyOrEmpty resource item)).getD fallback) b)

/-- Splits a batch by the owners of its keys on a ring. -/
def regroupOn (a : Adapter α) (ring : Ring) (b : Batch α) : Option (List (Endpoint × Batch α)) :=
  a.regroupOnWith Sha256.position ring b

end Adapter

end TelemetryRouter
