import TelemetryRouter.Duration.Basic
import TelemetryRouter.Ring
import TelemetryRouter.Routing.Adapter

/-!
# The configuration of a router

Exactly one of three ways of discovery is meant to be set: a fixed list of hosts, a hostname that is looked up, or a service of
a cluster. The other sections choose the routing keys, the size of the ring, the timing of the pool, the settings handed to the
exporters, and the log. Every section and nearly every field has a default.
-/

namespace TelemetryRouter

/-- A fixed list of backends. -/
structure StaticDiscovery where
  hostnames : List String
  deriving DecidableEq, Repr

/-- Backends found by looking up a hostname. The port completes every address; without one the addresses stay bare. -/
structure DnsDiscovery where
  hostname : String
  port : Option UInt16
  interval : Duration
  timeout : Duration
  deriving DecidableEq, Repr

/-- Backends found behind a service of a cluster. -/
structure ClusterDiscovery where
  service : String
  space : Option String
  ports : List UInt16
  interval : Duration
  timeout : Duration
  kubeconfigPath : Option String
  deriving DecidableEq, Repr

/-- The ways of discovery that are set. -/
structure DiscoveryConfig where
  fixed : Option StaticDiscovery
  dns : Option DnsDiscovery
  cluster : Option ClusterDiscovery
  deriving DecidableEq, Repr

/-- What each signal is routed by; logs always go by trace. -/
structure RoutingConfig where
  traces : TraceRouting
  metrics : MetricRouting
  deriving DecidableEq, Repr

/-- The size of the ring. -/
structure RingConfig where
  virtualNodes : UInt64
  deriving DecidableEq, Repr

/-- The timing of the pool. -/
structure PoolConfig where
  drainTimeout : Duration
  reconcileInterval : Duration
  deriving DecidableEq, Repr

/-- Settings for the exporters. -/
structure ProtocolConfig where
  defaultPort : UInt16
  timeout : Option Duration
  deriving DecidableEq, Repr

/-- The level and the format of the log, by name. -/
structure LoggingConfig where
  level : String
  format : String
  deriving DecidableEq, Repr

/-- A whole configuration. -/
structure RouterConfig where
  discovery : DiscoveryConfig
  routing : RoutingConfig
  ring : RingConfig
  pool : PoolConfig
  protocol : ProtocolConfig
  logging : LoggingConfig
  deriving DecidableEq, Repr

/-- The port of a backend whose address and configuration name none. -/
def standardPort : UInt16 := 4317

/-- The fixed list without hosts. -/
def StaticDiscovery.default : StaticDiscovery := ⟨[]⟩

/-- A lookup every five seconds that may take one, of no host yet. -/
def DnsDiscovery.default : DnsDiscovery := ⟨"", none, .ofSeconds 5, .ofSeconds 1⟩

/-- A query every ten seconds that may take five, for no service yet. -/
def ClusterDiscovery.default : ClusterDiscovery := ⟨"", none, [standardPort], .ofSeconds 10, .ofSeconds 5, none⟩

/-- No way of discovery. -/
def DiscoveryConfig.default : DiscoveryConfig := ⟨none, none, none⟩

/-- Spans go by trace and metrics by resource. -/
def RoutingConfig.default : RoutingConfig := ⟨.traceId, .resource⟩

/-- The usual number of positions for each endpoint. -/
def RingConfig.default : RingConfig := ⟨150⟩

/-- Half a minute for draining, half a minute between passes. -/
def PoolConfig.default : PoolConfig := ⟨.ofSeconds 30, .ofSeconds 30⟩

/-- The standard port, and exports without a time limit. -/
def ProtocolConfig.default : ProtocolConfig := ⟨standardPort, none⟩

/-- Ordinary messages as text. -/
def LoggingConfig.default : LoggingConfig := ⟨"info", "text"⟩

/-- All defaults. -/
def RouterConfig.default : RouterConfig :=
  ⟨.default, .default, .default, .default, .default, .default⟩

/-- The number of ways of discovery that are set. -/
def DiscoveryConfig.count (d : DiscoveryConfig) : Nat :=
  (if d.fixed.isSome then 1 else 0) + (if d.dns.isSome then 1 else 0) + (if d.cluster.isSome then 1 else 0)

/-- Splits a text at its first dot. -/
def splitFirstDot : List Char → Option (List Char × List Char)
  | [] => none
  | c :: rest => if c = '.' then some ([], rest) else (splitFirstDot rest).map (fun p => (c :: p.1, p.2))

/-- The name and the namespace of the service. A namespace that is given wins; else the service is split at its first dot if
something follows it; else the namespace is `default`. -/
def ClusterDiscovery.serviceAndSpace (c : ClusterDiscovery) : String × String :=
  match c.space with
  | some space => (c.service, space)
  | none =>
    match splitFirstDot c.service.toList with
    | some (name, x :: rest) => (String.ofList name, String.ofList (x :: rest))
    | _ => (c.service, "default")

/-- What the balancer needs to know of a configuration. -/
structure BalancerSettings where
  virtualNodes : Nat
  drainTimeout : Duration
  reconcileInterval : Duration
  deriving DecidableEq, Repr

/-- The settings used when nothing else is asked for. -/
def BalancerSettings.default : BalancerSettings := ⟨Ring.defaultVirtualNodes, .ofSeconds 30, .ofSeconds 30⟩

/-- The settings of a configuration. -/
def RouterConfig.settings (c : RouterConfig) : BalancerSettings :=
  ⟨c.ring.virtualNodes.toNat, c.pool.drainTimeout, c.pool.reconcileInterval⟩

end TelemetryRouter
