import TelemetryRouter.Balancer.Basic

/-!
# The steps of a pass

A step is the smallest part of a pass that nothing else can interrupt. Starts and retirements of one pass take turns in any order;
everything else of a pass happens in sequence. A pass publishes its ring after the last start and before the first
retirement, so a published endpoint is never one that is being retired by this pass.
-/

namespace TelemetryRouter

namespace Balancer

variable {α : Type}

/-- The address that an exporter of an endpoint is made with. -/
def addressFor (b : Balancer α) (e : Endpoint) : String :=
  match b.options.defaultPort with
  | some port => (e.withDefaultPort port).address
  | none => e.address

/-! ## Calls of exporters -/

/-- Calls the maker of exporters for an endpoint. -/
def callCreate (b : Balancer α) (e : Endpoint) : Balancer α × AttemptPhase :=
  let address := b.addressFor e
  let behaviour := b.backends.behaviour address
  (b.log address none behaviour.plain .creating, .creating address behaviour.plain (b.now + behaviour.create.delay))

/-- The call of the maker ends: either there is no exporter, or the exporter is in the pool and its start is called. -/
def concludeCreate (b : Balancer α) (e : Endpoint) (address : String) (plain : Bool) : Balancer α × AttemptPhase :=
  let (result, backends) := b.backends.conclude address .create
  let b := { b with backends := backends }
  match result with
  | .error _ => (b.log address none plain .createFailed, .failed)
  | .ok _ =>
    let id := b.pool.nextId
    let b := { b with pool := b.pool.insert (Entry.make e address plain) }
    let b := (b.logEntry id .created).logEntry id .starting
    (b, .starting id (b.now + if plain then 0 else b.backends.delay address .start))

/-- A call of an exporter ends, with its result. A plain exporter is no script's: its calls succeed. -/
def concludeCall (b : Balancer α) (entry : Entry) (kind : CallKind) : Except RouterError Unit × Balancer α :=
  if entry.plain then (.ok (), b)
  else
    let (result, backends) := b.backends.conclude entry.address kind
    (result, { b with backends := backends })

/-- The start of an exporter ends: it runs, or it leaves the pool again. -/
def concludeStart (b : Balancer α) (e : Endpoint) (id : ExporterId) : Balancer α × AttemptPhase :=
  match b.pool.entry? id with
  | none => (b, .failed)
  | some entry =>
    let (result, b) := b.concludeCall entry .start
    match result with
    | .ok _ => ((b.changeEntry id (fun x => { x with state := .running })).logEntry id .started, .started)
    | .error _ =>
      let b := (b.changeEntry id (fun x => { x with state := .stopped })).logEntry id .startFailed
      ({ b with pool := b.pool.erase e }, .failed)

/-- Calls the shutdown of an exporter. -/
def callStop (b : Balancer α) (id : ExporterId) : Balancer α × RetirementPhase :=
  match b.pool.entry? id with
  | none => (b, .retired)
  | some entry =>
    let b := b.logEntry id (.stopping entry.inProgress)
    (b.changeEntry id (fun x => { x with closed := true }),
      .closing (b.now + if entry.plain then 0 else b.backends.delay entry.address .stop))

/-- The shutdown of an exporter ends, and the exporter leaves the pool whether or not it succeeded. -/
def concludeStop (b : Balancer α) (id : ExporterId) : Balancer α × RetirementPhase :=
  match b.pool.entry? id with
  | none => (b, .retired)
  | some entry =>
    let (result, b) := b.concludeCall entry .stop
    let b := b.logEntry id (match result with | .ok _ => .stopped | .error _ => .stopFailed)
    let b := b.changeEntry id (fun x => { x with state := .stopped })
    ({ b with pool := b.pool.erase entry.endpoint }, .retired)

/-! ## Starts and retirements -/

/-- The next step of a start. -/
def stepAttempt (b : Balancer α) (a : Attempt) : Option (Balancer α × Attempt) :=
  let go (r : Balancer α × AttemptPhase) : Option (Balancer α × Attempt) := some (r.1, { a with phase := r.2 })
  match a.phase with
  | .pending => go (b.callCreate a.endpoint)
  | .creating address plain wake => if wake ≤ b.now then go (b.concludeCreate a.endpoint address plain) else none
  | .starting id wake => if wake ≤ b.now then go (b.concludeStart a.endpoint id) else none
  | .started => none
  | .failed => none

/-- The next step of a retirement. Leases are counted before the time limit is looked at, so an exporter without leases is drained
whatever the limit is. -/
def stepRetirement (b : Balancer α) (r : Retirement) : Option (Balancer α × Retirement) :=
  let go (p : Balancer α × RetirementPhase) : Option (Balancer α × Retirement) := some (p.1, { r with phase := p.2 })
  match r.phase with
  | .pending =>
    go (b.changeEntry r.id (fun x => { x with state := .stopping }),
      .counting (Instant.after b.now b.options.settings.drainTimeout))
  | .counting deadline =>
    if ((b.pool.entry? r.id).map Entry.leases).getD 0 = 0 then go (b.callStop r.id) else go (b, .registering deadline)
  | .registering deadline => go (b.changeEntry r.id Entry.await, .waiting deadline)
  | .waiting deadline =>
    if (b.pool.entry? r.id).any Entry.idleNotice then
      go (b.changeEntry r.id Entry.takeNotice, .counting deadline)
    else if Instant.reached deadline b.now then go (b.callStop r.id)
    else none
  | .closing wake => if wake ≤ b.now then go (b.concludeStop r.id) else none
  | .retired => none

/-! ## Passes -/

/-- The endpoints that a pass wants. -/
def wanted (b : Balancer α) : PassTarget → List Endpoint
  | .members endpoints => endpoints
  | .publishedRing => b.ring.endpoints

/-- The step between the starts and the retirements: the ring is published, and what is to be retired is found. -/
def publishPass (b : Balancer α) (p : Pass) (wanted : List Endpoint) (attempts : List Attempt) : Balancer α × Pass :=
  let retirements := (b.pool.extra wanted).map (fun id => Retirement.mk id .pending)
  let phase := PassPhase.retiring (Pass.endpointsIn attempts .started) (Pass.endpointsIn attempts .failed) retirements
  ({ b with ring := p.publish.getD b.ring }, { p with phase := phase })

/-- What a pass changed, once every retirement is over. -/
def passOutcome (b : Balancer α) (added failed : List Endpoint) (retirements : List Retirement) : ReconcileOutcome :=
  ⟨added, Endpoint.sort (retirements.filterMap (fun r => (b.pool.entry? r.id).map Entry.endpoint)), failed⟩

/-- The end of a pass: the metrics are recorded and the gate is left. -/
def concludePass (b : Balancer α) (t : TaskId) (rest : List (Work α)) (outcome : ReconcileOutcome) : Balancer α :=
  let name := b.resolver.name
  let b := if outcome.changed then b.record (·.recordBackendUpdate name) else b
  let b := b.record (·.recordBackends name b.pool.size)
  ({ b with pool := { b.pool with gate := b.pool.gate.leave t } } : Balancer α).finish t rest (.reconciled outcome)

/-- The number of ways in which a pass may go on. -/
def waysOfPass (p : Pass) : Nat :=
  match p.phase with
  | .queued => 1
  | .adding _ attempts => max attempts.length 1
  | .retiring _ _ retirements => max retirements.length 1

/-- The step of a pass in one of its ways: the start or the retirement with that number, or the only way. -/
def stepPass (b : Balancer α) (t : TaskId) (rest : List (Work α)) (p : Pass) (way : Nat) : Option (Balancer α) :=
  let go (b : Balancer α) (phase : PassPhase) : Option (Balancer α) :=
    some (b.withWorks t (.pass { p with phase := phase } :: rest))
  match p.phase with
  | .queued =>
    (b.pool.gate.enter? t).bind (fun gate =>
      let endpoints := b.wanted p.target
      let attempts := (b.pool.missing endpoints).map (fun e => ⟨e, .pending⟩)
      go { b with pool := { b.pool with gate := gate } } (.adding endpoints attempts))
  | .adding endpoints attempts =>
    if attempts.all Attempt.isOver then
      let (b, p) := b.publishPass p endpoints attempts
      some (b.withWorks t (.pass p :: rest))
    else
      (attempts[way]?.bind (b.stepAttempt ·)).bind (fun r => go r.1 (.adding endpoints (attempts.set way r.2)))
  | .retiring added failed retirements =>
    if retirements.all Retirement.isOver then some (b.concludePass t rest (b.passOutcome added failed retirements))
    else
      (retirements[way]?.bind (b.stepRetirement ·)).bind (fun r => go r.1 (.retiring added failed (retirements.set way r.2)))

/-- A task comes to the gate of the pool with a pass. -/
def beginPass (b : Balancer α) (t : TaskId) (rest : List (Work α)) (p : Pass) : Balancer α :=
  ({ b with pool := { b.pool with gate := b.pool.gate.join t } } : Balancer α).withWorks t (.pass p :: rest)

/-- The pass that brings the ring and the pool in line with a list of endpoints. -/
def applyPass (b : Balancer α) (endpoints : List Endpoint) : Pass :=
  Pass.publishing (Ring.build endpoints b.options.settings.virtualNodes)

/-- The ticks at which a pass may go on, if nothing else happens. -/
def wakesOfPass (p : Pass) : List Nat :=
  match p.phase with
  | .queued => []
  | .adding _ attempts => attempts.filterMap (fun a => match a.phase with
    | .creating _ _ wake => some wake
    | .starting _ wake => some wake
    | _ => none)
  | .retiring _ _ retirements => retirements.filterMap (fun r => match r.phase with
    | .waiting deadline => some deadline.tick
    | .closing wake => some wake
    | _ => none)

end Balancer

end TelemetryRouter
