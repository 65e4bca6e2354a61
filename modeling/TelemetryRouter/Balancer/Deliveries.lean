import TelemetryRouter.Balancer.Resolutions

/-!
# The steps of a dispatch

A dispatch looks at the published ring once, cuts the batch by it and delivers all parcels at the same time, each through a lease
of its endpoint's exporter. While the exporter works, cancellation is looked at before the deadline, and the deadline before the
exporter's own result.
-/

namespace TelemetryRouter

namespace Balancer

variable {α : Type}

/-! ## Exports -/

/-- Calls an exporter with a batch. It may refuse at once, or be at work until a tick; a plain one is done at once. -/
def callExport (b : Balancer α) (id : ExporterId) (batch : Batch α) : Balancer α × Except RouterError Nat :=
  match b.pool.entry? id with
  | none => (b, .error (.exportFailed "export after shutdown"))
  | some entry =>
    if entry.closed && !entry.plain then
      (b.logEntry id .exportRefused, .error (.exportFailed "export after shutdown"))
    else
      let b := b.logEntry id (.exporting batch.itemCount)
      let delay := if entry.plain then 0 else b.backends.delay entry.address .deliver
      (b.changeEntry id (fun x => { x with inProgress := x.inProgress + 1 }), .ok (b.now + delay))

/-- Keeps a batch that an exporter took. -/
def keepDelivered (b : Balancer α) (address : String) (batch : Batch α) : Balancer α :=
  { b with delivered := b.delivered ++ [(address, batch)] }

/-- An exporter's work on a batch ends. -/
def concludeExport (b : Balancer α) (id : ExporterId) (batch : Batch α) : Balancer α × Except RouterError Unit :=
  match b.pool.entry? id with
  | none => (b, .ok ())
  | some entry =>
    let (result, b) := (b.changeEntry id (fun x => { x with inProgress := x.inProgress - 1 })).concludeCall entry .deliver
    match result with
    | .ok _ => ((b.logEntry id .exported).keepDelivered entry.address batch, .ok ())
    | .error e => (b.logEntry id .exportFailed, .error e)

/-- An exporter's work on a batch is given up. -/
def abandonExport (b : Balancer α) (id : ExporterId) : Balancer α :=
  (b.changeEntry id (fun x => { x with inProgress := x.inProgress - 1 })).logEntry id .exportAbandoned

/-! ## Parcels -/

/-- What ends the delivery of a parcel whatever its exporter does: cancellation, or else the deadline. -/
def interruption? (b : Balancer α) (started : Nat) (deadline : Option Instant) (token : Option String) : Option RouterError :=
  if token.any b.cancelledTokens.contains then some .cancelled
  else
    match deadline with
    | none => none
    | some d =>
      if Instant.reached d b.now then
        some (.timeout (UInt64.ofNat (Instant.millisecondsSince d (Instant.ofTick started))))
      else none

/-- The lease of a parcel is given back and the export recorded. -/
def concludeParcel (b : Balancer α) (p : Parcel α) (id : ExporterId) (since : Nat) (result : Except RouterError Unit) :
    Balancer α × Parcel α :=
  let b := { b with pool := b.pool.release id }
  let latency := (Duration.ofNanoseconds? (Instant.ofTick (b.now - since))).getD Duration.zero
  match result with
  | .ok _ => (b.record (·.recordExport p.endpoint.address latency true), { p with phase := .delivered })
  | .error e => (b.record (·.recordExport p.endpoint.address latency false), { p with phase := .failed e })

/-- The next step of the delivery of a parcel. -/
def stepParcel (b : Balancer α) (started : Nat) (deadline : Option Instant) (token : Option String) (p : Parcel α) :
    Option (Balancer α × Parcel α) :=
  match p.phase with
  | .pending =>
    match b.pool.lease? p.endpoint with
    | none => some (b, { p with phase := .failed (.endpointNotReady p.endpoint) })
    | some (id, pool) => some ({ b with pool := pool }, { p with phase := .leased id b.now })
  | .leased id since =>
    match b.interruption? started deadline token with
    | some e => some (b.concludeParcel p id since (.error e))
    | none =>
      match b.callExport id p.batch with
      | (b, .error e) => some (b.concludeParcel p id since (.error e))
      | (b, .ok wake) => some (b, { p with phase := .exporting id since wake })
  | .exporting id since wake =>
    match b.interruption? started deadline token with
    | some e => some ((b.abandonExport id).concludeParcel p id since (.error e))
    | none =>
      if wake ≤ b.now then
        let (b, result) := b.concludeExport id p.batch
        some (b.concludeParcel p id since result)
      else none
  | .delivered => none
  | .failed _ => none

/-- The deadline of a dispatch, if it has one: the caller's, or else that of the time limit of exports. The result is none when the
deadline is beyond the range of the clock. -/
def deadlineFor (b : Balancer α) (context : DispatchContext) : Option (Option Instant) :=
  match context.deadline, b.options.exportTimeout with
  | some d, _ => some (some d)
  | none, none => some none
  | none, some limit => (Instant.after? b.now limit).map some

/-- The first step of a dispatch: an empty batch needs nothing, an empty ring can route nothing, and otherwise the batch is cut
and the deadline is fixed. -/
def beginDispatch (b : Balancer α) (t : TaskId) (rest : List (Work α)) (batch : Batch α)
    (context : DispatchContext) : Balancer α :=
  if batch.isEmpty then b.finish t rest (.dispatched (.report []))
  else
    match b.adapter.regroupOn b.ring batch with
    | none => b.finish t rest (.dispatched (.failed (.routing .noEndpoints)))
    | some groups =>
      match b.deadlineFor context with
      | none => b.finish t rest (.dispatched .clockOverflow)
      | some deadline =>
        let parcels := groups.map (fun g => Parcel.mk g.1 g.2 .pending)
        b.withWorks t (.deliver b.now deadline context.token parcels :: rest)

/-- The step of a dispatch in one of its ways: the parcel with that number, or the end. -/
def stepDeliver (b : Balancer α) (t : TaskId) (rest : List (Work α)) (started : Nat) (deadline : Option Instant)
    (token : Option String) (parcels : List (Parcel α)) (way : Nat) : Option (Balancer α) :=
  if parcels.all Parcel.isOver then some (b.finish t rest (.dispatched (Parcel.result parcels)))
  else
    (parcels[way]?.bind (b.stepParcel started deadline token ·)).map (fun r =>
      r.1.withWorks t (.deliver started deadline token (parcels.set way r.2) :: rest))

/-- The ticks at which a dispatch may go on, if nothing else happens. -/
def wakesOfDeliver (deadline : Option Instant) (parcels : List (Parcel α)) : List Nat :=
  (deadline.map Instant.tick).toList ++ parcels.filterMap (fun p => match p.phase with
    | .exporting _ _ wake => some wake
    | _ => none)

/-! ## Leases held from outside -/

/-- Gives a lease back if it is unused. -/
def releaseIfUnused (b : Balancer α) (l : HeldLease) : Balancer α :=
  if l.isUnused then { b with pool := b.pool.release l.exporter } else b

/-- Gives back the leases that have neither a name nor an export. -/
def releaseUnused (b : Balancer α) : Balancer α :=
  b.leases.foldl releaseIfUnused { b with leases := b.leases.map HeldLease.settle }

/-- Takes the name from the lease that is held under it. -/
def dropName (b : Balancer α) (name : String) : Balancer α :=
  let leases := b.leases.map (fun l => if l.name = some name then { l with name := none } else l)
  ({ b with leases := leases } : Balancer α).releaseUnused

/-- Whether a lease is held under a name. -/
def holdsLease (b : Balancer α) (name : String) : Bool := b.leases.any (fun l => l.name = some name)

/-- Leases the running exporter of an endpoint under a name, which an older lease then loses. -/
def leaseAs (b : Balancer α) (e : Endpoint) (name : String) : Except RouterError (Balancer α) :=
  match b.pool.lease? e with
  | none => .error (.endpointNotReady e)
  | some (id, pool) =>
    let b := ({ b with pool := pool } : Balancer α).dropName name
    .ok { b with leases := b.leases ++ [⟨id, some name, 0, false⟩] }

/-- Changes the number of exports that use a lease. -/
def useLease (b : Balancer α) (lease : LeaseId) (f : Nat → Nat) : Balancer α :=
  ({ b with leases := b.leases.modify lease (fun l => { l with users := f l.users }) } : Balancer α).releaseUnused

/-- The step of an export through a lease held from outside. -/
def stepExportLeased (b : Balancer α) (t : TaskId) (rest : List (Work α)) (lease : LeaseId) (batch : Batch α)
    (wake : Option Nat) : Option (Balancer α) :=
  let outcome (result : Except RouterError Unit) : Outcome α := match result with
    | .ok _ => .done
    | .error e => .failed e
  match b.leases[lease]? with
  | none => none
  | some held =>
    match wake with
    | none =>
      match b.callExport held.exporter batch with
      | (b, .error e) => some ((b.useLease lease (· - 1)).finish t rest (.failed e))
      | (b, .ok wake) => some (b.withWorks t (.exportLeased lease batch (some wake) :: rest))
    | some wake =>
      if wake ≤ b.now then
        let (b, result) := b.concludeExport held.exporter batch
        some ((b.useLease lease (· - 1)).finish t rest (outcome result))
      else none

end Balancer

end TelemetryRouter
