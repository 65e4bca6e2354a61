import TelemetryRouter.Config.Basic
import TelemetryRouter.Duration.Text
import TelemetryRouter.Json.Basic

/-!
# Configurations as JSON

A configuration is written with all its sections; options that are not set are left out, and durations are text. Reading fills
in the defaults of what is left out, takes null for an option that is not set, and refuses values of another kind.
-/

namespace TelemetryRouter

open Json (Fields)

/-- The fields of a record, those that are not set left out. -/
def presentFields (fields : List (String × Option Json)) : Json :=
  .record (fields.filterMap (fun f => f.2.map (fun v => (f.1, v))))

/-- An option from JSON, null meaning that it is not set. -/
def decodeOption {α : Type} (decode : Json → Option α) : Json → Option (Option α)
  | .null => some none
  | v => (decode v).map some

/-- A duration from its text. -/
def decodeDuration (v : Json) : Option Duration := v.text?.bind (fun t => (Duration.read t).toOption)

/-- A duration as its text. -/
def encodeDuration (d : Duration) : Json := .text d.print

namespace TraceRouting

/-- The name of a choice. -/
def name : TraceRouting → String
  | .traceId => "trace_id"
  | .service => "service"

/-- The choice of a name; traces have an older spelling too. -/
def ofName? : String → Option TraceRouting
  | "trace_id" => some .traceId
  | "traceID" => some .traceId
  | "service" => some .service
  | _ => none

end TraceRouting

namespace MetricRouting

/-- The name of a choice. -/
def name : MetricRouting → String
  | .resource => "resource"
  | .service => "service"
  | .metric => "metric"

/-- The choice of a name. -/
def ofName? : String → Option MetricRouting
  | "resource" => some .resource
  | "service" => some .service
  | "metric" => some .metric
  | _ => none

end MetricRouting

namespace StaticDiscovery

/-- The section as JSON. -/
def toJson (s : StaticDiscovery) : Json := .record [("hostnames", .list (s.hostnames.map Json.text))]

/-- The section from JSON. -/
def ofJson? (v : Json) : Option StaticDiscovery := do
  let fs ← v.fields? 1
  let hostnames ← fs.need "hostnames" 0 (Json.listOf? Json.text?)
  pure ⟨hostnames⟩

end StaticDiscovery

namespace DnsDiscovery

/-- The section as JSON. -/
def toJson (d : DnsDiscovery) : Json :=
  presentFields [("hostname", some (.text d.hostname)), ("port", d.port.map (fun p => .int p.toNat)),
    ("interval", some (encodeDuration d.interval)), ("timeout", some (encodeDuration d.timeout))]

/-- The section from JSON. -/
def ofJson? (v : Json) : Option DnsDiscovery := do
  let fs ← v.fields? 4
  let hostname ← fs.need "hostname" 0 Json.text?
  let port ← fs.orElse "port" 1 none (decodeOption Json.uint16?)
  let interval ← fs.orElse "interval" 2 default.interval decodeDuration
  let timeout ← fs.orElse "timeout" 3 default.timeout decodeDuration
  pure ⟨hostname, port, interval, timeout⟩

end DnsDiscovery

namespace ClusterDiscovery

/-- The section as JSON. -/
def toJson (c : ClusterDiscovery) : Json :=
  presentFields [("service", some (.text c.service)), ("namespace", c.space.map Json.text),
    ("ports", some (.list (c.ports.map (fun p => .int p.toNat)))), ("interval", some (encodeDuration c.interval)),
    ("timeout", some (encodeDuration c.timeout)), ("kubeconfig_path", c.kubeconfigPath.map Json.text)]

/-- The section from JSON. -/
def ofJson? (v : Json) : Option ClusterDiscovery := do
  let fs ← v.fields? 6
  let service ← fs.need "service" 0 Json.text?
  let space ← fs.orElse "namespace" 1 none (decodeOption Json.text?)
  let ports ← fs.orElse "ports" 2 default.ports (Json.listOf? Json.uint16?)
  let interval ← fs.orElse "interval" 3 default.interval decodeDuration
  let timeout ← fs.orElse "timeout" 4 default.timeout decodeDuration
  let kubeconfigPath ← fs.orElse "kubeconfig_path" 5 none (decodeOption Json.text?)
  pure ⟨service, space, ports, interval, timeout, kubeconfigPath⟩

end ClusterDiscovery

namespace DiscoveryConfig

/-- The section as JSON. -/
def toJson (d : DiscoveryConfig) : Json :=
  presentFields [("static", d.fixed.map StaticDiscovery.toJson), ("dns", d.dns.map DnsDiscovery.toJson),
    ("k8s", d.cluster.map ClusterDiscovery.toJson)]

/-- The section from JSON. -/
def ofJson? (v : Json) : Option DiscoveryConfig := do
  let fs ← v.fields? 3
  let fixed ← fs.orElse "static" 0 none (decodeOption StaticDiscovery.ofJson?)
  let dns ← fs.orElse "dns" 1 none (decodeOption DnsDiscovery.ofJson?)
  let cluster ← fs.orElse "k8s" 2 none (decodeOption ClusterDiscovery.ofJson?)
  pure ⟨fixed, dns, cluster⟩

end DiscoveryConfig

namespace RoutingConfig

/-- The section as JSON. -/
def toJson (r : RoutingConfig) : Json := .record [("traces", .text r.traces.name), ("metrics", .text r.metrics.name)]

/-- The section from JSON. -/
def ofJson? (v : Json) : Option RoutingConfig := do
  let fs ← v.fields? 2
  let traces ← fs.orElse "traces" 0 default.traces (fun c => c.choice?.bind TraceRouting.ofName?)
  let metrics ← fs.orElse "metrics" 1 default.metrics (fun c => c.choice?.bind MetricRouting.ofName?)
  pure ⟨traces, metrics⟩

end RoutingConfig

namespace RingConfig

/-- The section as JSON. -/
def toJson (r : RingConfig) : Json := .record [("virtual_nodes", .int r.virtualNodes.toNat)]

/-- The section from JSON. -/
def ofJson? (v : Json) : Option RingConfig := do
  let fs ← v.fields? 1
  let virtualNodes ← fs.orElse "virtual_nodes" 0 default.virtualNodes Json.uint64?
  pure ⟨virtualNodes⟩

end RingConfig

namespace PoolConfig

/-- The section as JSON. -/
def toJson (p : PoolConfig) : Json :=
  .record [("drain_timeout", encodeDuration p.drainTimeout), ("reconcile_interval", encodeDuration p.reconcileInterval)]

/-- The section from JSON. -/
def ofJson? (v : Json) : Option PoolConfig := do
  let fs ← v.fields? 2
  let drainTimeout ← fs.orElse "drain_timeout" 0 default.drainTimeout decodeDuration
  let reconcileInterval ← fs.orElse "reconcile_interval" 1 default.reconcileInterval decodeDuration
  pure ⟨drainTimeout, reconcileInterval⟩

end PoolConfig

namespace ProtocolConfig

/-- The section as JSON. -/
def toJson (p : ProtocolConfig) : Json :=
  presentFields [("default_port", some (.int p.defaultPort.toNat)), ("timeout", p.timeout.map encodeDuration)]

/-- The section from JSON. -/
def ofJson? (v : Json) : Option ProtocolConfig := do
  let fs ← v.fields? 2
  let defaultPort ← fs.orElse "default_port" 0 default.defaultPort Json.uint16?
  let timeout ← fs.orElse "timeout" 1 none (decodeOption decodeDuration)
  pure ⟨defaultPort, timeout⟩

end ProtocolConfig

namespace LoggingConfig

/-- The section as JSON. -/
def toJson (l : LoggingConfig) : Json := .record [("level", .text l.level), ("format", .text l.format)]

/-- The section from JSON. -/
def ofJson? (v : Json) : Option LoggingConfig := do
  let fs ← v.fields? 2
  let level ← fs.orElse "level" 0 default.level Json.text?
  let format ← fs.orElse "format" 1 default.format Json.text?
  pure ⟨level, format⟩

end LoggingConfig

namespace RouterConfig

/-- A configuration as JSON. -/
def toJson (c : RouterConfig) : Json :=
  .record [("resolver", c.discovery.toJson), ("routing", c.routing.toJson), ("ring", c.ring.toJson), ("pool", c.pool.toJson),
    ("protocol", c.protocol.toJson), ("logging", c.logging.toJson)]

/-- A configuration from JSON. -/
def ofJson? (v : Json) : Option RouterConfig := do
  let fs ← v.fields? 6
  let discovery ← fs.orElse "resolver" 0 default.discovery DiscoveryConfig.ofJson?
  let routing ← fs.orElse "routing" 1 default.routing RoutingConfig.ofJson?
  let ring ← fs.orElse "ring" 2 default.ring RingConfig.ofJson?
  let pool ← fs.orElse "pool" 3 default.pool PoolConfig.ofJson?
  let protocol ← fs.orElse "protocol" 4 default.protocol ProtocolConfig.ofJson?
  let logging ← fs.orElse "logging" 5 default.logging LoggingConfig.ofJson?
  pure ⟨discovery, routing, ring, pool, protocol, logging⟩

end RouterConfig

end TelemetryRouter
