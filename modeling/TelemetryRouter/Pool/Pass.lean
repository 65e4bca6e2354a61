import TelemetryRouter.Pool.Basic
import TelemetryRouter.Ring
import TelemetryRouter.Schedule.Timer

/-!
# Reconciliation passes

A pass brings the pool in line with a list of endpoints. Once inside the gate it starts an exporter for every endpoint that has
none, all at the same time; then it publishes the new ring, if it brings one; then it retires the exporters of all
other endpoints, again all at the same time: each is marked, drained of its leases, shut down and taken out of the pool.
-/

namespace TelemetryRouter

/-- What a pass changed. -/
structure ReconcileOutcome where
  added : List Endpoint
  removed : List Endpoint
  failed : List Endpoint
  deriving DecidableEq, Repr

namespace ReconcileOutcome

/-- Whether nothing was changed or tried. -/
def isNoop (o : ReconcileOutcome) : Bool := o.added.isEmpty && o.removed.isEmpty && o.failed.isEmpty

/-- Whether the set of exporters changed. -/
def changed (o : ReconcileOutcome) : Bool := !o.added.isEmpty || !o.removed.isEmpty

end ReconcileOutcome

/-- How far the start of a new exporter is. -/
inductive AttemptPhase where
  | pending
  | creating (address : String) (plain : Bool) (wake : Nat)
  | starting (id : ExporterId) (wake : Nat)
  | started
  | failed
  deriving DecidableEq, Repr

/-- The start of a new exporter for an endpoint. -/
structure Attempt where
  endpoint : Endpoint
  phase : AttemptPhase
  deriving DecidableEq, Repr

/-- Whether an attempt is over. -/
def Attempt.isOver (a : Attempt) : Bool :=
  match a.phase with
  | .started | .failed => true
  | _ => false

/-- How far the retirement of an exporter is. -/
inductive RetirementPhase where
  /-- The exporter is not marked yet. -/
  | pending
  /-- The leases are about to be counted. -/
  | counting (deadline : Instant)
  /-- There were leases, and the notice that there are none is about to be waited for. -/
  | registering (deadline : Instant)
  /-- The notice is being waited for. -/
  | waiting (deadline : Instant)
  /-- The exporter is being shut down, until a tick. -/
  | closing (wake : Nat)
  /-- The exporter is out of the pool. -/
  | retired
  deriving DecidableEq, Repr

/-- The retirement of an exporter. -/
structure Retirement where
  id : ExporterId
  phase : RetirementPhase
  deriving DecidableEq, Repr

/-- Whether a retirement is over. -/
def Retirement.isOver (r : Retirement) : Bool := decide (r.phase = .retired)

/-- What a pass brings the pool in line with: a list, or the members of the ring published when the pass gets its turn. -/
inductive PassTarget where
  | members (endpoints : List Endpoint)
  | publishedRing
  deriving DecidableEq, Repr

/-- How far a pass is. -/
inductive PassPhase where
  | queued
  | adding (wanted : List Endpoint) (attempts : List Attempt)
  | retiring (added failed : List Endpoint) (retirements : List Retirement)
  deriving DecidableEq, Repr

/-- A pass: its target, the ring it publishes, and how far it is. -/
structure Pass where
  target : PassTarget
  publish : Option Ring
  phase : PassPhase

namespace Pass

/-- A pass for a list that publishes no ring. -/
def of (endpoints : List Endpoint) : Pass := ⟨.members endpoints, none, .queued⟩

/-- A pass for the members of a ring that publishes the ring. -/
def publishing (ring : Ring) : Pass := ⟨.members ring.endpoints, some ring, .queued⟩

/-- A pass for the members of the published ring. -/
def refresh : Pass := ⟨.publishedRing, none, .queued⟩

/-- The endpoints of the attempts in a phase, sorted. -/
def endpointsIn (attempts : List Attempt) (phase : AttemptPhase) : List Endpoint :=
  Endpoint.sort ((attempts.filter (fun a => a.phase = phase)).map Attempt.endpoint)

end Pass

end TelemetryRouter
