import TelemetryRouter.Config.Basic
import TelemetryRouter.Error
import TelemetryRouter.Observability.Logging
import TelemetryRouter.Text.Blank

/-!
# Validation

A configuration is checked as a whole: every problem is reported, in the order of the sections, and the error lists them line by
line.
-/

namespace TelemetryRouter

/-- The sentences whose condition holds. -/
def complaints (checks : List (Bool × String)) : List String := (checks.filter (·.1)).map (·.2)

/-- The problems with the number of ways of discovery. -/
def DiscoveryConfig.countProblems (d : DiscoveryConfig) : List String :=
  match d.count with
  | 0 => ["no resolver specified, configure one of: static, dns, k8s"]
  | 1 => []
  | _ => ["multiple resolvers specified, configure only one of: static, dns, k8s"]

/-- The problems of a fixed list. -/
def StaticDiscovery.problems (s : StaticDiscovery) : List String :=
  complaints [(s.hostnames.isEmpty, "static resolver requires at least one hostname")] ++
    (s.hostnames.zipIdx.filter (fun h => Blank.isBlankText h.1)).map
      (fun h => "static resolver hostname " ++ toString h.2 ++ " is empty")

/-- The problems of a lookup. -/
def DnsDiscovery.problems (d : DnsDiscovery) : List String :=
  complaints [
    (Blank.isBlankText d.hostname, "dns resolver hostname cannot be empty"),
    (d.interval.isZero, "dns resolver interval must be greater than 0"),
    (d.timeout.isZero, "dns resolver timeout must be greater than 0"),
    (d.port == some 0, "dns resolver port must be greater than 0")]

/-- The problems of a cluster service. -/
def ClusterDiscovery.problems (c : ClusterDiscovery) : List String :=
  complaints [
    (Blank.isBlankText c.service, "k8s resolver service cannot be empty"),
    (c.ports.any (· == 0), "k8s resolver ports must be greater than 0"),
    (c.interval.isZero, "k8s resolver interval must be greater than 0"),
    (c.timeout.isZero, "k8s resolver timeout must be greater than 0")]

/-- The problems of the discovery section. -/
def DiscoveryConfig.problems (d : DiscoveryConfig) : List String :=
  d.countProblems ++ (d.fixed.map StaticDiscovery.problems).getD [] ++ (d.dns.map DnsDiscovery.problems).getD [] ++
    (d.cluster.map ClusterDiscovery.problems).getD []

namespace RouterConfig

/-- All problems of a configuration. -/
def problems (c : RouterConfig) : List String :=
  c.discovery.problems ++ complaints [
    (c.ring.virtualNodes == 0, "ring virtual_nodes must be greater than 0"),
    (c.pool.reconcileInterval.isZero, "pool reconcile_interval must be greater than 0"),
    (c.protocol.defaultPort == 0, "protocol default_port must be greater than 0"),
    ((LogLevel.ofName? (Lowercase.lowercase c.logging.level)).isNone, "Invalid log level: " ++ c.logging.level),
    ((LogFormat.ofName? (Lowercase.lowercase c.logging.format)).isNone, "Invalid log format: " ++ c.logging.format)]

/-- Accepts a configuration without problems. -/
def validate (c : RouterConfig) : Except RouterError Unit :=
  match c.problems with
  | [] => .ok ()
  | ps => .error (.configuration ("Configuration validation failed:\n" ++ String.intercalate "\n" ps))

end RouterConfig

end TelemetryRouter
