import TelemetryRouter.Balancer.Moves

/-!
# Requests

A request from outside either changes the state at once, or starts a task whose outcome answers it. Starting a task makes no move
of it: the task goes on with the next moves of the run.
-/

namespace TelemetryRouter

/-- What takes a task. -/
inductive Request (α : Type) where
  | start
  | shutdown
  | update (endpoints : List Endpoint)
  | reconcile (endpoints : List Endpoint)
  | reconcileToRing
  | retireAll
  | resolve
  | startResolver (box : MailboxId)
  | stopResolver
  | push (endpoints : List Endpoint)
  | dispatch (batch : Batch α) (context : DispatchContext)
  | exportLeased (lease : LeaseId) (batch : Batch α)
  | pause (milliseconds : Nat)

/-- What can still come out of a mailbox that is read from outside: there is no mailbox, somebody may still put something in, or
nobody can. -/
inductive InboxState where
  | missing
  | live
  | closed
  deriving DecidableEq, Repr

namespace Balancer

variable {α : Type}

/-! ## Requests that take a task -/

/-- Starts the task of a request, which has no works yet. -/
def begin (b : Balancer α) (t : TaskId) : Request α → Balancer α
  | .start => b.withWorks t [.startBalancer]
  | .shutdown => b.withWorks t [.stopResolver, .stopConsumer, .clear, .succeed]
  | .update endpoints => b.beginPass t [] (b.applyPass endpoints)
  | .reconcile endpoints => b.beginPass t [] (Pass.of endpoints)
  | .reconcileToRing => b.beginPass t [] Pass.refresh
  | .retireAll => b.beginPass t [] (Pass.of [])
  | .resolve => b.beginResolution t []
  | .startResolver box => b.withWorks t [.startResolver box]
  | .stopResolver => b.withWorks t [.stopResolver]
  | .push endpoints => b.withWorks t [.push endpoints]
  | .dispatch batch context => b.withWorks t [.dispatch batch context]
  | .exportLeased lease batch => (b.withWorks t [.exportLeased lease batch none]).useLease lease (· + 1)
  | .pause milliseconds => b.withWorks t [.pause (b.now + milliseconds)]

/-- Adds a task for a request. The result names the task. -/
def request (b : Balancer α) (r : Request α) : Balancer α × TaskId := ((b.spawn []).begin b.nextTask r, b.nextTask)

/-- The outcome of a task that has ended. -/
def outcome? (b : Balancer α) (t : TaskId) : Option (Outcome α) :=
  match b.task? t with
  | some task => if task.isOver then some task.outcome else none
  | none => none

/-! ## Requests that are answered at once -/

/-- Fires a cancellation token. -/
def cancel (b : Balancer α) (token : String) : Balancer α := { b with cancelledTokens := b.cancelledTokens ++ [token] }

/-- Whether a cancellation token has fired. -/
def isCancelled (b : Balancer α) (token : String) : Bool := b.cancelledTokens.contains token

/-- The lease that is held under a name. -/
def leaseNamed? (b : Balancer α) (name : String) : Option LeaseId := b.leases.findIdx? (fun l => l.name = some name)

/-- Changes the behaviour of the exporters of an address. -/
def changeBehaviour (b : Balancer α) (address : String) (f : Behaviour → Behaviour) : Balancer α :=
  { b with backends := b.backends.set address (f (b.backends.behaviour address)) }

/-- Gives the source of the resolver more answers. -/
def extendScript (b : Balancer α) (answers : List SourceAnswer) : Balancer α :=
  { b with resolver := b.resolver.extendScript answers }

/-- Takes the subscriber from the resolver. -/
def unsubscribe (b : Balancer α) : Balancer α := { b with resolver := { b.resolver with subscriber := none } }

/-! ## Mailboxes that are read from outside -/

/-- Opens a mailbox that is read from outside. -/
def openInbox (b : Balancer α) (capacity : Nat) : Balancer α × MailboxId :=
  ({ b.openMailbox capacity with inboxes := b.inboxes ++ [b.nextMailbox] }, b.nextMailbox)

/-- Stops reading from all mailboxes but those that are kept. -/
def keepInboxes (b : Balancer α) (keep : List MailboxId) : Balancer α :=
  { b with inboxes := b.inboxes.filter keep.contains }

/-- Takes everything out of a mailbox that is read from outside, and tells what can still come. -/
def receive (b : Balancer α) (box : Option MailboxId) : List (List Endpoint) × InboxState × Balancer α :=
  match box with
  | none => ([], .missing, b)
  | some box =>
    let messages := ((b.mailboxes[box]?).map Mailbox.messages).getD []
    (messages, if b.hasSender box then .live else .closed, b.changeMailbox box (fun m => m.takeAll.2))

end Balancer

end TelemetryRouter
