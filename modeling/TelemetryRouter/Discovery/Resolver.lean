import TelemetryRouter.Config.Basic
import TelemetryRouter.Discovery.Source
import TelemetryRouter.Schedule.Gate

/-!
# Resolvers

A resolver owns the current list of endpoints and tells one subscriber when it changes. A fixed resolver never changes; a polling
one asks a source at regular intervals, one resolution at a time, and keeps its list when the source fails; a manual one is driven
from outside.
-/

namespace TelemetryRouter

/-- The number of a mailbox. -/
abbrev MailboxId : Type := Nat

/-- How a resolver comes to its list. -/
inductive ResolverKind where
  /-- The list was given at the start. -/
  | fixed
  /-- A source is asked, at intervals and with a limit on the time of an answer. -/
  | polling (source : Source) (interval timeout : Duration)
  /-- The list is set from outside, under a name of its own; starting and stopping may fail. -/
  | manual (name : String) (startError stopError : Option RouterError)

/-- A resolver: its kind, the list it knows, its subscriber, the task that polls, the gate of resolutions, and the counts of
requests made and of stops. -/
structure Resolver where
  kind : ResolverKind
  known : List Endpoint
  subscriber : Option MailboxId
  poller : Option TaskId
  gate : Gate
  polls : Nat
  requests : List String
  stops : Nat

namespace Resolver

/-- A resolver that was not used yet. -/
def new (kind : ResolverKind) (known : List Endpoint) : Resolver := ⟨kind, known, none, none, Gate.free, 0, [], 0⟩

/-- The short name of a resolver. -/
def name (r : Resolver) : String :=
  match r.kind with
  | .fixed => "static"
  | .polling source _ _ => source.name
  | .manual name _ _ => name

/-- The resolver of a fixed list, which must not be empty. -/
def fixed (endpoints : List Endpoint) : Except RouterError Resolver :=
  match Endpoint.normalize endpoints with
  | [] => .error (.configuration "static resolver requires at least one endpoint")
  | known => .ok (new .fixed known)

/-- The resolver that polls a source. -/
def polling (source : Source) (interval timeout : Duration) : Resolver := new (.polling source interval timeout) []

/-- The resolver that is driven from outside. -/
def manual (name : String) (endpoints : List Endpoint) (startError stopError : Option RouterError) : Resolver :=
  new (.manual name startError stopError) endpoints

/-- Access to the cluster of a section: by the file that it names, or without one. -/
def connect (platform : Platform) (c : ClusterDiscovery) : Except RouterError ClusterClient :=
  let failed (what reason : String) : RouterError := .configuration ("Failed to " ++ what ++ ": " ++ reason)
  match c.kubeconfigPath with
  | some path => do
    let kubeconfig ← (platform.readKubeconfig path).mapError (failed "read kubeconfig")
    let config ← (platform.clientConfig kubeconfig).mapError (failed "create kube config")
    (platform.client config).mapError (failed "create kube client")
  | none => platform.defaultClient.mapError (failed "create default kube client")

/-- The resolver of a cluster service. -/
def ofCluster (platform : Platform) (c : ClusterDiscovery) : Except RouterError Resolver := do
  if Blank.isBlankText c.service then .error (.configuration "k8s resolver requires a service")
  else
    let client ← connect platform c
    let (service, space) := c.serviceAndSpace
    .ok (polling (.ofClient client service space c.ports) c.interval c.timeout)

/-- The resolver that a configuration asks for: exactly one way of discovery must be set. -/
def ofConfig (platform : Platform) (d : DiscoveryConfig) : Except RouterError Resolver := do
  match d.count with
  | 0 => .error (.configuration "no resolver specified")
  | 1 =>
    match d.fixed, d.dns, d.cluster with
    | some s, _, _ => fixed (s.hostnames.map Endpoint.mk)
    | none, some l, _ =>
      let source ← Source.ofHost platform l.hostname l.port
      .ok (polling source l.interval l.timeout)
    | none, none, some c => ofCluster platform c
    | none, none, none => .error (.configuration "no resolver specified")
  | _ => .error (.configuration "multiple resolvers specified")

/-- Asks the source: its next answer, and the resolver with the request on record. -/
def ask (r : Resolver) : SourceAnswer × Resolver :=
  match r.kind with
  | .polling source interval timeout =>
    let (answer, script) := source.script.next
    (answer, { r with
      kind := .polling { source with script := script } interval timeout
      polls := if source.counted then r.polls + 1 else r.polls
      requests := match source.request with
        | some line => r.requests ++ [line]
        | none => r.requests })
  | _ => (.nothing, r)

/-- The resolver whose source has more answers to give. -/
def extendScript (r : Resolver) (answers : List SourceAnswer) : Resolver :=
  match r.kind with
  | .polling source interval timeout =>
    { r with kind := .polling { source with script := source.script.append answers } interval timeout }
  | _ => r

end Resolver

end TelemetryRouter
