import TelemetryRouter.Pool.Entry
import TelemetryRouter.Schedule.Gate

/-!
# The pool of exporters

The pool remembers every exporter that was made, by number, and which endpoint has which of them now. An endpoint has at most one.
The gate lets one reconciliation pass in at a time; looking up and leasing an exporter does not go through it.
-/

namespace TelemetryRouter

/-- All exporters ever made, the current exporter of each endpoint, and the gate for passes. -/
structure Pool where
  made : List Entry
  current : List (Endpoint × ExporterId)
  gate : Gate
  deriving DecidableEq, Repr

namespace Pool

/-- A pool without exporters. -/
def empty : Pool := ⟨[], [], Gate.free⟩

/-- An exporter by number. -/
def entry? (p : Pool) (id : ExporterId) : Option Entry := p.made[id]?

/-- Changes an exporter. -/
def change (p : Pool) (id : ExporterId) (f : Entry → Entry) : Pool := { p with made := p.made.modify id f }

/-- The number of the current exporter of an endpoint. -/
def find? (p : Pool) (e : Endpoint) : Option ExporterId := p.current.lookup e

/-- Whether an endpoint has an exporter. -/
def contains (p : Pool) (e : Endpoint) : Bool := (p.find? e).isSome

/-- The number that the next exporter gets. -/
def nextId (p : Pool) : ExporterId := p.made.length

/-- Adds a new exporter as the current one of its endpoint. -/
def insert (p : Pool) (entry : Entry) : Pool :=
  { p with
    made := p.made ++ [entry]
    current := p.current.filter (fun c => c.1 ≠ entry.endpoint) ++ [(entry.endpoint, p.nextId)] }

/-- Takes the current exporter from an endpoint. -/
def erase (p : Pool) (e : Endpoint) : Pool := { p with current := p.current.filter (fun c => c.1 ≠ e) }

/-- Leases the running exporter of an endpoint. -/
def lease? (p : Pool) (e : Endpoint) : Option (ExporterId × Pool) := do
  let id ← p.find? e
  let entry ← p.entry? id
  let leased ← entry.lease?
  pure (id, p.change id (fun _ => leased))

/-- Gives a lease back, but for the notice. -/
def release (p : Pool) (id : ExporterId) : Pool := p.change id Entry.release

/-- An exporter for which a notice is owed, if there is one. -/
def owing? (p : Pool) : Option ExporterId := p.made.findIdx? (fun entry => entry.owed != 0)

/-- The stage of the current exporter of an endpoint. -/
def state? (p : Pool) (e : Endpoint) : Option ExporterState := ((p.find? e).bind p.entry?).map Entry.state

/-- The number of endpoints that have an exporter. -/
def size (p : Pool) : Nat := p.current.length

/-- The endpoints whose exporter runs, sorted. -/
def running (p : Pool) : List Endpoint :=
  Endpoint.sort ((p.current.filter (fun c => (p.entry? c.2).map Entry.state == some .running)).map (·.1))

/-- The members of a list that have no exporter, in normal form. -/
def missing (p : Pool) (wanted : List Endpoint) : List Endpoint := (Endpoint.normalize wanted).filter (fun e => !p.contains e)

/-- The exporters of endpoints outside a list. -/
def extra (p : Pool) (wanted : List Endpoint) : List ExporterId :=
  (p.current.filter (fun c => !wanted.contains c.1)).map (·.2)

end Pool

end TelemetryRouter
