import TelemetryRouter.Config.Codec
import TelemetryRouter.Config.Environment
import TelemetryRouter.Config.Validation
import TelemetryRouter.Yaml.Typed

/-!
# Configuration documents

A configuration is read from a YAML text and then validated. A blank text and a document without content stand for all defaults;
a section that is left out has its own defaults.
-/

namespace TelemetryRouter

open Yaml (Decoder Section)

/-- A duration from its text. -/
def durationDecoder : Decoder Duration := Decoder.parsed (fun s => (Duration.read s).toOption)

/-- A fixed list from its section. -/
def StaticDiscovery.decoder : Decoder StaticDiscovery := fun d n => do
  let s ← Section.ofNode? ["hostnames"] d n
  let hostnames ← s.need "hostnames" (Decoder.list Decoder.text)
  pure ⟨hostnames⟩

/-- A lookup from its section. -/
def DnsDiscovery.decoder : Decoder DnsDiscovery := fun d n => do
  let s ← Section.ofNode? ["hostname", "port", "interval", "timeout"] d n
  let hostname ← s.need "hostname" Decoder.text
  let port ← s.orElse "port" none (Decoder.option Decoder.uint16)
  let interval ← s.orElse "interval" default.interval durationDecoder
  let timeout ← s.orElse "timeout" default.timeout durationDecoder
  pure ⟨hostname, port, interval, timeout⟩

/-- A cluster service from its section. -/
def ClusterDiscovery.decoder : Decoder ClusterDiscovery := fun d n => do
  let s ← Section.ofNode? ["service", "namespace", "ports", "interval", "timeout", "kubeconfig_path"] d n
  let service ← s.need "service" Decoder.text
  let space ← s.orElse "namespace" none (Decoder.option Decoder.text)
  let ports ← s.orElse "ports" default.ports (Decoder.list Decoder.uint16)
  let interval ← s.orElse "interval" default.interval durationDecoder
  let timeout ← s.orElse "timeout" default.timeout durationDecoder
  let kubeconfigPath ← s.orElse "kubeconfig_path" none (Decoder.option Decoder.text)
  pure ⟨service, space, ports, interval, timeout, kubeconfigPath⟩

/-- The ways of discovery from their section. -/
def DiscoveryConfig.decoder : Decoder DiscoveryConfig := fun d n => do
  let s ← Section.ofNode? ["static", "dns", "k8s"] d n
  let fixed ← s.orElse "static" none (Decoder.option StaticDiscovery.decoder)
  let dns ← s.orElse "dns" none (Decoder.option DnsDiscovery.decoder)
  let cluster ← s.orElse "k8s" none (Decoder.option ClusterDiscovery.decoder)
  pure ⟨fixed, dns, cluster⟩

/-- The routing keys from their section. -/
def RoutingConfig.decoder : Decoder RoutingConfig := fun d n => do
  let s ← Section.ofNode? ["traces", "metrics"] d n
  let traces ← s.orElse "traces" default.traces (fun d n => (Decoder.choice d n).bind TraceRouting.ofName?)
  let metrics ← s.orElse "metrics" default.metrics (fun d n => (Decoder.choice d n).bind MetricRouting.ofName?)
  pure ⟨traces, metrics⟩

/-- The size of the ring from its section. -/
def RingConfig.decoder : Decoder RingConfig := fun d n => do
  let s ← Section.ofNode? ["virtual_nodes"] d n
  let virtualNodes ← s.orElse "virtual_nodes" default.virtualNodes Decoder.uint64
  pure ⟨virtualNodes⟩

/-- The timing of the pool from its section. -/
def PoolConfig.decoder : Decoder PoolConfig := fun d n => do
  let s ← Section.ofNode? ["drain_timeout", "reconcile_interval"] d n
  let drainTimeout ← s.orElse "drain_timeout" default.drainTimeout durationDecoder
  let reconcileInterval ← s.orElse "reconcile_interval" default.reconcileInterval durationDecoder
  pure ⟨drainTimeout, reconcileInterval⟩

/-- The settings for exporters from their section. -/
def ProtocolConfig.decoder : Decoder ProtocolConfig := fun d n => do
  let s ← Section.ofNode? ["default_port", "timeout"] d n
  let defaultPort ← s.orElse "default_port" default.defaultPort Decoder.uint16
  let timeout ← s.orElse "timeout" none (Decoder.option durationDecoder)
  pure ⟨defaultPort, timeout⟩

/-- The log from its section. -/
def LoggingConfig.decoder : Decoder LoggingConfig := fun d n => do
  let s ← Section.ofNode? ["level", "format"] d n
  let level ← s.orElse "level" default.level Decoder.text
  let format ← s.orElse "format" default.format Decoder.text
  pure ⟨level, format⟩

namespace RouterConfig

/-- A configuration from its mapping. -/
def decoder : Decoder RouterConfig := fun d n => do
  let s ← Section.ofNode? ["resolver", "routing", "ring", "pool", "protocol", "logging"] d n
  let discovery ← s.orElse "resolver" default.discovery DiscoveryConfig.decoder
  let routing ← s.orElse "routing" default.routing RoutingConfig.decoder
  let ring ← s.orElse "ring" default.ring RingConfig.decoder
  let pool ← s.orElse "pool" default.pool PoolConfig.decoder
  let protocol ← s.orElse "protocol" default.protocol ProtocolConfig.decoder
  let logging ← s.orElse "logging" default.logging LoggingConfig.decoder
  pure ⟨discovery, routing, ring, pool, protocol, logging⟩

/-- The configuration that a document describes; nothing if the text is malformed or describes something else. -/
def ofDocument? (content : String) : Option RouterConfig := do
  let d ← Yaml.Document.read content
  match d.root with
  | none => pure default
  | some n => decoder d n

/-- Reads a configuration, without validation. -/
def read (content : String) : Except RouterError RouterConfig :=
  if Blank.isBlankText content then .ok default
  else
    match ofDocument? content with
    | some c => .ok c
    | none => .error (.yaml "")

/-- Reads and validates a configuration. -/
def parse (content : String) : Except RouterError RouterConfig := do
  let c ← read content
  c.validate
  pure c

/-- The configuration of a file's content with the overrides of the environment, validated at the end. -/
def load (env : Environment) (content : String) : Except RouterError RouterConfig := do
  let c ← read content
  let (c, applied) := c.applyEnvironment env
  applied
  c.validate
  pure c

/-- The error for a file that cannot be read. -/
def unreadableFile (file reason : String) : RouterError :=
  .configuration ("Failed to read config file " ++ file ++ ": " ++ reason)

end RouterConfig

end TelemetryRouter
