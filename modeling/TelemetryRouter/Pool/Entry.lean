import TelemetryRouter.Downstream.Event
import TelemetryRouter.Endpoint

/-!
# Entries of the pool

An entry is one exporter with its life so far. It starts, runs, stops and is stopped, in this order; a start that fails ends its
life at once. A lease keeps a running exporter from being stopped; the entry counts its leases. Giving a lease back takes two steps:
the count goes down, and then, if it came to zero, a notice is left for whoever waits for that. In between the notice is owed. Notices that
nobody waits for do not add up; whoever waits takes the first one, and another one may be left before it is taken.
-/

namespace TelemetryRouter

/-- The stage of an exporter's life. -/
inductive ExporterState where
  | starting
  | running
  | stopping
  | stopped
  deriving DecidableEq, Repr

/-- The name of a stage. -/
def ExporterState.name : ExporterState → String
  | .starting => "starting"
  | .running => "running"
  | .stopping => "stopping"
  | .stopped => "stopped"

/-- An exporter of an endpoint: the address it was made with, its stage, its live leases, how many notices that there are none have been
left and not taken, how many are owed, whether one is waited for, whether its shutdown has been called, and its exports in progress. -/
structure Entry where
  endpoint : Endpoint
  address : String
  plain : Bool
  state : ExporterState
  leases : Nat
  notices : Nat
  owed : Nat
  awaited : Bool
  closed : Bool
  inProgress : Nat
  deriving DecidableEq, Repr

namespace Entry

/-- A new exporter that is about to be started. -/
def make (endpoint : Endpoint) (address : String) (plain : Bool) : Entry :=
  ⟨endpoint, address, plain, .starting, 0, 0, 0, false, false, 0⟩

/-- The entry with one more lease, if its exporter runs. -/
def lease? (e : Entry) : Option Entry := if e.state = .running then some { e with leases := e.leases + 1 } else none

/-- The entry with one lease less; whoever gives the last one back owes a notice. -/
def release (e : Entry) : Entry := { e with leases := e.leases - 1, owed := if e.leases = 1 then e.owed + 1 else e.owed }

/-- The entry with one of the notices that are owed, if any is. -/
def notify (e : Entry) : Entry :=
  if e.owed = 0 then e
  else { e with notices := min (e.notices + 1) (if e.awaited then 2 else 1), owed := e.owed - 1 }

/-- Whether there is a notice to take. -/
def idleNotice (e : Entry) : Bool := e.notices != 0

/-- The entry when somebody begins to wait for a notice. -/
def await (e : Entry) : Entry := { e with awaited := true }

/-- The entry when the notice that was waited for is taken. -/
def takeNotice (e : Entry) : Entry := { e with notices := e.notices - 1, awaited := false }

end Entry

end TelemetryRouter
