import TelemetryRouter.Balancer.Deliveries

/-!
# Starting and stopping

Starting the balancer starts the resolver, applies the list it knows and launches a task that applies updates. Stopping it stops
the resolver, ends that task and runs a pass that empties the ring and the pool. Neither is atomic: other tasks go on between the
steps.
-/

namespace TelemetryRouter

namespace Balancer

variable {α : Type}

/-- The number of lists that wait for the balancer before its resolver has to. -/
def updateCapacity : Nat := 16

/-! ## The resolver -/

/-- The step that starts the resolver for a mailbox. A polling resolver that is polled already refuses; otherwise it resolves once
before it gets its subscriber. -/
def stepStartResolver (b : Balancer α) (t : TaskId) (rest : List (Work α)) (box : MailboxId) : Balancer α :=
  match b.resolver.kind with
  | .fixed => (b.record (·.recordResolution b.resolver.name true)).finish t rest .done
  | .manual _ startError _ =>
    match startError with
    | some e => b.fail t e
    | none => ({ b with resolver := { b.resolver with subscriber := some box } } : Balancer α).finish t rest .done
  | .polling _ _ _ =>
    if b.resolver.poller.isSome then b.fail t (.configuration (b.resolver.name ++ " resolver already started"))
    else b.beginResolution t (.registerPoller box :: rest)

/-- The step that gives a polling resolver its subscriber and the task that polls. -/
def stepRegisterPoller (b : Balancer α) (t : TaskId) (rest : List (Work α)) (box : MailboxId) : Balancer α :=
  let resolver := { b.resolver with subscriber := some box, poller := some b.nextTask }
  (({ b with resolver := resolver } : Balancer α).spawn [.poll none]).finish t rest .done

/-- Asks a task to stop, and waits for its end. -/
def stopTask (b : Balancer α) (t : TaskId) (rest : List (Work α)) (task : TaskId) : Balancer α :=
  ({ b with stopRequests := b.stopRequests ++ [task] } : Balancer α).withWorks t (.awaitEnd task :: rest)

/-- The step that stops the resolver. -/
def stepStopResolver (b : Balancer α) (t : TaskId) (rest : List (Work α)) : Balancer α :=
  match b.resolver.kind with
  | .fixed => b.finish t rest .done
  | .manual _ _ stopError =>
    let b := { b with resolver := { b.resolver with subscriber := none, stops := b.resolver.stops + 1 } }
    match stopError with
    | some e => b.finish t rest (.failed e)
    | none => b.finish t rest .done
  | .polling _ _ _ =>
    let poller := b.resolver.poller
    let b := { b with resolver := { b.resolver with poller := none } }
    match poller with
    | some task => b.stopTask t (.forgetSubscriber :: rest) task
    | none => b.withWorks t (.forgetSubscriber :: rest)

/-- The step after the polls have ended: the subscriber is forgotten. -/
def stepForgetSubscriber (b : Balancer α) (t : TaskId) (rest : List (Work α)) : Balancer α :=
  ({ b with resolver := { b.resolver with subscriber := none } } : Balancer α).finish t rest .done

/-- The step of a task that polls: it begins, ends because it was asked to, or resolves at a signal of its ticker. Without time
between the signals it ends at once. -/
def stepPoll (b : Balancer α) (t : TaskId) (rest : List (Work α)) (ticker : Option Ticker) (way : Nat) : Option (Balancer α) :=
  match ticker with
  | none =>
    match b.resolver.kind with
    | .polling _ interval _ =>
      match Ticker.start? b.now interval with
      | some ticker => some (b.withWorks t (.poll (some ticker) :: rest))
      | none => some (b.finish t rest .done)
    | _ => some (b.finish t rest .done)
  | some ticker =>
    match way with
    | 0 => if b.stopRequests.contains t then some (b.finish t rest .done) else none
    | _ =>
      if Instant.reached ticker.due b.now then some (b.beginResolution t (.poll (some (ticker.take b.now)) :: rest)) else none

/-! ## The balancer -/

/-- The first step of starting the balancer: it is refused while a background task is known. -/
def stepStartBalancer (b : Balancer α) (t : TaskId) (rest : List (Work α)) : Balancer α :=
  if b.background.isSome then b.fail t (.configuration "load balancer already started")
  else
    let box := b.nextMailbox
    (b.openMailbox updateCapacity).withWorks t (.startResolver box :: .applyBaseline :: .launchConsumer box :: rest)

/-- The step that begins the first pass, for the list that the resolver knows. -/
def stepApplyBaseline (b : Balancer α) (t : TaskId) (rest : List (Work α)) : Balancer α :=
  b.beginPass t rest (b.applyPass b.resolver.known)

/-- The step that launches the background task. -/
def stepLaunchConsumer (b : Balancer α) (t : TaskId) (rest : List (Work α)) (box : MailboxId) : Balancer α :=
  (({ b with background := some b.nextTask } : Balancer α).spawn [.consume box none true]).finish t rest .done

/-- The step of the background task: it begins, ends because it was asked to, applies an update, learns that there will be no
more, or starts a regular pass. -/
def stepConsume (b : Balancer α) (t : TaskId) (rest : List (Work α)) (box : MailboxId) (ticker : Option Ticker) (isOpen : Bool)
    (way : Nat) : Option (Balancer α) :=
  match ticker with
  | none =>
    match Ticker.start? b.now b.options.settings.reconcileInterval with
    | some ticker => some (b.withWorks t (.consume box (some ticker) isOpen :: rest))
    | none => some (b.finish t rest .done)
  | some ticker =>
    match way with
    | 0 => if b.stopRequests.contains t then some (b.finish t rest .done) else none
    | 1 =>
      if !isOpen then none
      else
        match (b.mailboxes[box]?).bind Mailbox.take? with
        | some (endpoints, mailbox) =>
          let b := b.changeMailbox box (fun _ => mailbox)
          some (b.beginPass t (.consume box (some ticker) isOpen :: rest) (b.applyPass endpoints))
        | none => if b.hasSender box then none else some (b.withWorks t (.consume box (some ticker) false :: rest))
    | _ =>
      if Instant.reached ticker.due b.now then
        some (b.beginPass t (.consume box (some (ticker.take b.now)) isOpen :: rest) Pass.refresh)
      else none

/-- The step that ends the background task, if one is known. -/
def stepStopConsumer (b : Balancer α) (t : TaskId) (rest : List (Work α)) : Balancer α :=
  let background := b.background
  let b := { b with background := none }
  match background with
  | some task => b.stopTask t rest task
  | none => b.finish t rest .done

/-- The step that begins the last pass, which empties the ring and the pool. -/
def stepClear (b : Balancer α) (t : TaskId) (rest : List (Work α)) : Balancer α := b.beginPass t rest (b.applyPass [])

end Balancer

end TelemetryRouter
