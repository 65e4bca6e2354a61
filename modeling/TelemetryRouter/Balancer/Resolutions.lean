import TelemetryRouter.Balancer.Passes

/-!
# The steps of a resolution

A polling resolver resolves behind its gate: it asks its source, waits for the answer up to the time limit, and if the normal form
of a successful answer differs from the list it knows, keeps it and tells its subscriber. Any failure leaves the list as it was.
-/

namespace TelemetryRouter

namespace Balancer

variable {α : Type}

/-- A source's answer is in: it is counted, and a different list becomes the known one. -/
def concludeListing (b : Balancer α) (result : Except RouterError (List Endpoint)) : Balancer α × ResolutionPhase :=
  let name := b.resolver.name
  match result with
  | .error _ => (b.record (·.recordResolution name false), .ending)
  | .ok [] => (b.record (·.recordResolution name false), .ending)
  | .ok endpoints =>
    let b := b.record (·.recordResolution name true)
    let known := Endpoint.normalize endpoints
    if b.resolver.known = known then (b, .ending)
    else ({ b with resolver := { b.resolver with known := known } }, .announcing known)

/-- Asks the source of the resolver. -/
def callSource (b : Balancer α) : Balancer α × ResolutionPhase :=
  match b.resolver.kind with
  | .polling _ _ timeout =>
    let (answer, resolver) := b.resolver.ask
    let arrival := if answer.hangs then none else some (b.now + answer.delay)
    ({ b with resolver := resolver }, .listing arrival answer.result (Instant.after b.now timeout))
  | _ => (b, .ending)

/-- The next step of a resolution. An answer that arrives when the time is up still counts. -/
def stepResolution (b : Balancer α) (t : TaskId) (rest : List (Work α)) (phase : ResolutionPhase) : Option (Balancer α) :=
  let go (r : Balancer α × ResolutionPhase) : Option (Balancer α) := some (r.1.withWorks t (.resolution r.2 :: rest))
  match phase with
  | .queued =>
    (b.resolver.gate.enter? t).bind
      (fun gate => go ({ b with resolver := { b.resolver with gate := gate } } : Balancer α).callSource)
  | .listing arrival result deadline =>
    if arrival.any (· ≤ b.now) then go (b.concludeListing result)
    else if Instant.reached deadline b.now then
      go (b.concludeListing (.error (.discovery b.resolver.name "resolution timed out")))
    else none
  | .announcing endpoints =>
    match b.resolver.subscriber with
    | none => go (b, .ending)
    | some box => go (b.changeMailbox box (·.join t), .sending box endpoints)
  | .sending box endpoints =>
    if !b.hasReceiver box then go (b.changeMailbox box (·.leave t), .ending)
    else if (b.mailboxes[box]?).any (·.ready t) then go (b.changeMailbox box (·.put t endpoints), .ending)
    else none
  | .ending =>
    let resolver := { b.resolver with gate := b.resolver.gate.leave t }
    some (({ b with resolver := resolver } : Balancer α).finish t rest (.resolved b.resolver.known))

/-- A task comes to the resolver with a resolution. Only a polling resolver has anything to ask; a fixed one counts a success. -/
def beginResolution (b : Balancer α) (t : TaskId) (rest : List (Work α)) : Balancer α :=
  match b.resolver.kind with
  | .polling _ _ _ =>
    let resolver := { b.resolver with gate := b.resolver.gate.join t }
    ({ b with resolver := resolver } : Balancer α).withWorks t (.resolution .queued :: rest)
  | .fixed => (b.record (·.recordResolution b.resolver.name true)).finish t rest (.resolved b.resolver.known)
  | .manual _ _ _ => b.finish t rest (.resolved b.resolver.known)

/-- The step of a list on its way into a mailbox. -/
def stepSend (b : Balancer α) (t : TaskId) (rest : List (Work α)) (box : MailboxId) (endpoints : List Endpoint) :
    Option (Balancer α) :=
  if !b.hasReceiver box then some ((b.changeMailbox box (·.leave t)).finish t rest .receiverGone)
  else if (b.mailboxes[box]?).any (·.ready t) then some ((b.changeMailbox box (·.put t endpoints)).finish t rest .sent)
  else none

/-- The step that sets the list of a manual resolver and finds its subscriber. -/
def stepPush (b : Balancer α) (t : TaskId) (rest : List (Work α)) (endpoints : List Endpoint) : Balancer α :=
  let b := { b with resolver := { b.resolver with known := endpoints } }
  match b.resolver.subscriber with
  | none => b.finish t rest .unsubscribed
  | some box => (b.changeMailbox box (·.join t)).withWorks t (.send box endpoints :: rest)

/-- The ticks at which a resolution may go on, if nothing else happens. -/
def wakesOfResolution : ResolutionPhase → List Nat
  | .listing arrival _ deadline => arrival.toList ++ [deadline.tick]
  | _ => []

end Balancer

end TelemetryRouter
