import TelemetryRouter.Routing.Adapter
import TelemetryRouter.Downstream.Event
import TelemetryRouter.Schedule.Timer

/-!
# Dispatching a batch

A batch is cut into one parcel for each endpoint that owns any of its items, and all parcels are delivered at the same time. The
result says for every parcel either that it was delivered or why it was not, and hands back what was not delivered.
-/

namespace TelemetryRouter

/-- What a caller asks for besides the delivery: an instant by which it must be over, and a token that cancels it. -/
structure DispatchContext where
  deadline : Option Instant
  token : Option String
  deriving DecidableEq, Repr

/-- A parcel that reached its endpoint. -/
structure Delivery where
  endpoint : Endpoint
  items : Nat
  deriving DecidableEq, Repr

/-- A parcel that did not reach its endpoint. -/
structure FailedDelivery (α : Type) where
  endpoint : Endpoint
  error : RouterError
  batch : Batch α

/-- Why a dispatch failed: nothing could be routed, or some parcels were not delivered. -/
inductive DispatchError (α : Type) where
  | routing (error : RouterError)
  | undelivered (delivered : List Delivery) (failed : List (FailedDelivery α))

namespace DispatchError

variable {α : Type}

/-- The endpoints of the parcels that were not delivered. -/
def failedEndpoints : DispatchError α → List Endpoint
  | .routing _ => []
  | .undelivered _ failed => failed.map FailedDelivery.endpoint

/-- The parcels that were delivered. -/
def delivered : DispatchError α → List Delivery
  | .routing _ => []
  | .undelivered delivered _ => delivered

/-- Whether every failure is worth a retry. -/
def isRetryable : DispatchError α → Bool
  | .routing e => e.isRetryable
  | .undelivered _ failed => failed.all (fun f => f.error.isRetryable)

/-- The batches that were not delivered. -/
def failedBatches : DispatchError α → List (Batch α)
  | .routing _ => []
  | .undelivered _ failed => failed.map FailedDelivery.batch

/-- The error behind the failure: the first one, if there are several. -/
def cause? : DispatchError α → Option RouterError
  | .routing e => some e
  | .undelivered _ failed => failed.head?.map FailedDelivery.error

/-- The sentence shown for a failure. -/
def message : DispatchError α → String
  | .routing e => "Dispatch rejected: " ++ e.message
  | .undelivered delivered failed =>
    "Dispatch partially failed: " ++ toString failed.length ++ " of " ++ toString (failed.length + delivered.length) ++
      " sub-batches failed" ++ String.join (failed.map (fun f => "; " ++ f.endpoint.address ++ ": " ++ f.error.message))

end DispatchError

/-- The result of a dispatch. The last case is a deadline beyond the range of the clock. -/
inductive DispatchResult (α : Type) where
  | report (deliveries : List Delivery)
  | failed (error : DispatchError α)
  | clockOverflow

/-- How far the delivery of a parcel is. -/
inductive ParcelPhase where
  /-- No exporter has been leased. -/
  | pending
  /-- An exporter is leased since a tick, and not yet called. -/
  | leased (id : ExporterId) (since : Nat)
  /-- The exporter leased since a tick is at work until another. -/
  | exporting (id : ExporterId) (since wake : Nat)
  /-- The parcel was delivered. -/
  | delivered
  /-- The parcel was not delivered. -/
  | failed (error : RouterError)
  deriving DecidableEq, Repr

/-- The part of a batch for one endpoint. -/
structure Parcel (α : Type) where
  endpoint : Endpoint
  batch : Batch α
  phase : ParcelPhase

namespace Parcel

variable {α : Type}

/-- Whether the delivery is over. -/
def isOver (p : Parcel α) : Bool :=
  match p.phase with
  | .delivered | .failed _ => true
  | _ => false

/-- The result for the parcels of a batch once every delivery is over. -/
def result (parcels : List (Parcel α)) : DispatchResult α :=
  let delivered := parcels.filterMap (fun p => match p.phase with
    | .delivered => some (Delivery.mk p.endpoint p.batch.itemCount)
    | _ => none)
  let failed := parcels.filterMap (fun p => match p.phase with
    | .failed e => some (FailedDelivery.mk p.endpoint e p.batch)
    | _ => none)
  if failed.isEmpty then .report delivered else .failed (.undelivered delivered failed)

end Parcel

end TelemetryRouter
