import TelemetryRouter.Config.Validation
import TelemetryRouter.Discovery.Resolver
import TelemetryRouter.Dispatch.Basic
import TelemetryRouter.Downstream.Behaviour
import TelemetryRouter.Observability.Metrics
import TelemetryRouter.Pool.Pass
import TelemetryRouter.Schedule.Mailbox

/-!
# The load balancer

The balancer ties a resolver, the published ring and the pool of exporters together. Everything that takes time is the work of a
task: a task is a stack of works, of which the topmost goes on and the others wait for it. The state of the balancer holds all
tasks besides the data they share, so that a run is a sequence of states.
-/

namespace TelemetryRouter

/-- How far a resolution is. -/
inductive ResolutionPhase where
  /-- It waits at the resolver's gate. -/
  | queued
  /-- The source was asked: when the answer arrives, if ever, what it says, and when it is given up. -/
  | listing (arrival : Option Nat) (result : Except RouterError (List Endpoint)) (deadline : Instant)
  /-- A changed list is known, and the subscriber is about to be told. -/
  | announcing (endpoints : List Endpoint)
  /-- The subscriber's mailbox has been found, and room in it is waited for. -/
  | sending (box : MailboxId) (endpoints : List Endpoint)
  /-- The resolution is about to end. -/
  | ending

/-- The number of a lease that is held from outside. -/
abbrev LeaseId : Type := Nat

/-- A lease that is held from outside: its exporter, the name it is held under until it is dropped, the exports that use it, and
whether it was given back. -/
structure HeldLease where
  exporter : ExporterId
  name : Option String
  users : Nat
  returned : Bool
  deriving DecidableEq, Repr

/-- Whether nobody needs a lease any more that was not given back. -/
def HeldLease.isUnused (l : HeldLease) : Bool := l.name.isNone && l.users == 0 && !l.returned

/-- The lease, as one that was given back if it is unused. -/
def HeldLease.settle (l : HeldLease) : HeldLease := if l.isUnused then { l with returned := true } else l

/-- One piece of work of a task. -/
inductive Work (α : Type) where
  /-- A reconciliation pass. -/
  | pass (p : Pass)
  /-- A resolution. -/
  | resolution (phase : ResolutionPhase)
  /-- The start of the resolver for a mailbox. -/
  | startResolver (box : MailboxId)
  /-- The last part of the start of a polling resolver. -/
  | registerPoller (box : MailboxId)
  /-- The stop of the resolver. -/
  | stopResolver
  /-- Waiting for another task to end. -/
  | awaitEnd (task : TaskId)
  /-- The last part of the stop of the resolver. -/
  | forgetSubscriber
  /-- The start of the balancer. -/
  | startBalancer
  /-- The first ring, made of the list that the resolver knows. -/
  | applyBaseline
  /-- The launch of the task that applies updates. -/
  | launchConsumer (box : MailboxId)
  /-- The end of the task that applies updates. -/
  | stopConsumer
  /-- The last ring, which is empty. -/
  | clear
  /-- The polls of a resolver, at the signals of a ticker that is there once the task has begun. -/
  | poll (ticker : Option Ticker)
  /-- The updates from a mailbox and the regular passes, while the mailbox can still receive something. -/
  | consume (box : MailboxId) (ticker : Option Ticker) (isOpen : Bool)
  /-- The dispatch of a batch. -/
  | dispatch (batch : Batch α) (context : DispatchContext)
  /-- The delivery of the parcels of a batch, dispatched at a tick. -/
  | deliver (started : Nat) (deadline : Option Instant) (token : Option String) (parcels : List (Parcel α))
  /-- An export through a lease held from outside, until a tick once it has been called. -/
  | exportLeased (lease : LeaseId) (batch : Batch α) (wake : Option Nat)
  /-- A new list of a manual resolver, told to the subscriber. -/
  | push (endpoints : List Endpoint)
  /-- A list on its way into a mailbox. -/
  | send (box : MailboxId) (endpoints : List Endpoint)
  /-- Nothing, until a tick. -/
  | pause (wake : Nat)
  /-- Success, whatever the works before gave. -/
  | succeed

/-- What a task gave in the end. -/
inductive Outcome (α : Type) where
  | done
  | failed (error : RouterError)
  | resolved (endpoints : List Endpoint)
  | reconciled (outcome : ReconcileOutcome)
  | dispatched (result : DispatchResult α)
  | sent
  | receiverGone
  | unsubscribed

/-- A task: its works, the topmost first, and the outcome of the last work that ended. -/
structure Task (α : Type) where
  works : List (Work α)
  outcome : Outcome α

/-- Whether a task has ended. -/
def Task.isOver {α : Type} (t : Task α) : Bool := t.works.isEmpty

/-- What a balancer is made with: the settings, the time limit of exports that have no other, and the port that completes the
addresses of exporters, if they are completed. -/
structure BalancerOptions where
  settings : BalancerSettings
  exportTimeout : Option Duration
  defaultPort : Option UInt16
  deriving DecidableEq, Repr

/-- The state of a balancer and of what surrounds it: the mailboxes among `inboxes` are read from outside. -/
structure Balancer (α : Type) where
  options : BalancerOptions
  adapter : Adapter α
  now : Nat
  resolver : Resolver
  ring : Ring
  pool : Pool
  background : Option TaskId
  tasks : List (Task α)
  stopRequests : List TaskId
  mailboxes : List (Mailbox (List Endpoint))
  inboxes : List MailboxId
  leases : List HeldLease
  cancelledTokens : List String
  backends : Backends
  events : List Event
  delivered : List (String × Batch α)
  metrics : MetricBook

namespace Balancer

variable {α : Type}

/-- A balancer before anything happened. -/
def new (options : BalancerOptions) (adapter : Adapter α) (resolver : Resolver) (backends : Backends) : Balancer α :=
  { options := options
    adapter := adapter
    now := 0
    resolver := resolver
    ring := Ring.build [] options.settings.virtualNodes
    pool := Pool.empty
    background := none
    tasks := []
    stopRequests := []
    mailboxes := []
    inboxes := []
    leases := []
    cancelledTokens := []
    backends := backends
    events := []
    delivered := []
    metrics := MetricBook.empty }

/-- The balancer of a configuration, which is validated first. Its exporters are made for addresses with a port. -/
def ofConfig (platform : Platform) (c : RouterConfig) (adapter : Adapter α) (backends : Backends) :
    Except RouterError (Balancer α) := do
  c.validate
  let resolver ← Resolver.ofConfig platform c.discovery
  pure (new ⟨c.settings, c.protocol.timeout, some c.protocol.defaultPort⟩ adapter resolver backends)

/-! ## Tasks -/

/-- The task with a number. -/
def task? (b : Balancer α) (t : TaskId) : Option (Task α) := b.tasks[t]?

/-- The works of a task, the topmost first. A task that does not exist has none. -/
def works (b : Balancer α) (t : TaskId) : List (Work α) := ((b.task? t).map Task.works).getD []

/-- Whether a task has ended. -/
def hasEnded (b : Balancer α) (t : TaskId) : Bool := (b.task? t).any Task.isOver

/-- Starts a task. -/
def spawn (b : Balancer α) (works : List (Work α)) : Balancer α := { b with tasks := b.tasks ++ [⟨works, .done⟩] }

/-- The number of the next task. -/
def nextTask (b : Balancer α) : TaskId := b.tasks.length

/-- Replaces the works of a task. -/
def withWorks (b : Balancer α) (t : TaskId) (works : List (Work α)) : Balancer α :=
  { b with tasks := b.tasks.modify t (fun task => { task with works := works }) }

/-- Ends the topmost work of a task with an outcome and goes on with the others. -/
def finish (b : Balancer α) (t : TaskId) (rest : List (Work α)) (outcome : Outcome α) : Balancer α :=
  { b with tasks := b.tasks.modify t (fun _ => ⟨rest, outcome⟩) }

/-- Ends a task with an error. -/
def fail (b : Balancer α) (t : TaskId) (e : RouterError) : Balancer α := b.finish t [] (.failed e)

/-! ## Mailboxes -/

/-- Adds an empty mailbox. -/
def openMailbox (b : Balancer α) (capacity : Nat) : Balancer α := { b with mailboxes := b.mailboxes ++ [Mailbox.empty capacity] }

/-- The number of the next mailbox. -/
def nextMailbox (b : Balancer α) : MailboxId := b.mailboxes.length

/-- Changes a mailbox. -/
def changeMailbox (b : Balancer α) (box : MailboxId) (f : Mailbox (List Endpoint) → Mailbox (List Endpoint)) : Balancer α :=
  { b with mailboxes := b.mailboxes.modify box f }

/-- Whether a work may still put something into a mailbox. -/
def sends (box : MailboxId) : Work α → Bool
  | .startResolver x => x == box
  | .registerPoller x => x == box
  | .resolution (.sending x _) => x == box
  | .send x _ => x == box
  | _ => false

/-- Whether a work may still take something out of a mailbox. -/
def receives (box : MailboxId) : Work α → Bool
  | .launchConsumer x => x == box
  | .consume x _ _ => x == box
  | _ => false

/-- Whether anybody may still put something into a mailbox. -/
def hasSender (b : Balancer α) (box : MailboxId) : Bool :=
  b.resolver.subscriber == some box || b.tasks.any (fun t => t.works.any (sends box))

/-- Whether anybody may still take something out of a mailbox. -/
def hasReceiver (b : Balancer α) (box : MailboxId) : Bool :=
  b.inboxes.contains box || b.tasks.any (fun t => t.works.any (receives box))

/-! ## Records -/

/-- Adds an event to the log. -/
def log (b : Balancer α) (address : String) (exporter : Option ExporterId) (plain : Bool) (what : Occurrence) : Balancer α :=
  { b with events := b.events ++ [⟨b.now, address, exporter, plain, what⟩] }

/-- Adds an event of an exporter to the log. -/
def logEntry (b : Balancer α) (id : ExporterId) (what : Occurrence) : Balancer α :=
  match b.pool.entry? id with
  | some entry => b.log entry.address (some id) entry.plain what
  | none => b

/-- Changes the metrics. -/
def record (b : Balancer α) (f : MetricBook → MetricBook) : Balancer α := { b with metrics := f b.metrics }

/-- Changes an exporter. -/
def changeEntry (b : Balancer α) (id : ExporterId) (f : Entry → Entry) : Balancer α := { b with pool := b.pool.change id f }

end Balancer

end TelemetryRouter
