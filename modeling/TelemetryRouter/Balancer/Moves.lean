import TelemetryRouter.Balancer.Lifecycle

/-!
# Runs

A task moves in one of the ways that its topmost work has; a way that is blocked now may open later. What happens in a run is a
sequence of moves, of notices that are left, of passing time, and of requests from outside. `settle` makes moves until every task is
blocked, always one of the first task that can move, with no notice owed for longer than it has to be, and `complete` lets time pass between
to the next tick at which a task may go on.
-/

namespace TelemetryRouter

namespace Balancer

variable {α : Type}

/-! ## Moves -/

/-- The number of ways of a work. -/
def waysOf : Work α → Nat
  | .pass p => waysOfPass p
  | .deliver _ _ _ parcels => max parcels.length 1
  | .poll _ => 2
  | .consume _ _ _ => 3
  | _ => 1

/-- The step of a task's topmost work in one of its ways. -/
def step (b : Balancer α) (t : TaskId) (rest : List (Work α)) (way : Nat) : Work α → Option (Balancer α)
  | .pass p => b.stepPass t rest p way
  | .resolution phase => b.stepResolution t rest phase
  | .startResolver box => some (b.stepStartResolver t rest box)
  | .registerPoller box => some (b.stepRegisterPoller t rest box)
  | .stopResolver => some (b.stepStopResolver t rest)
  | .awaitEnd task => if b.hasEnded task then some (b.finish t rest .done) else none
  | .forgetSubscriber => some (b.stepForgetSubscriber t rest)
  | .startBalancer => some (b.stepStartBalancer t rest)
  | .applyBaseline => some (b.stepApplyBaseline t rest)
  | .launchConsumer box => some (b.stepLaunchConsumer t rest box)
  | .stopConsumer => some (b.stepStopConsumer t rest)
  | .clear => some (b.stepClear t rest)
  | .poll ticker => b.stepPoll t rest ticker way
  | .consume box ticker isOpen => b.stepConsume t rest box ticker isOpen way
  | .dispatch batch context => some (b.beginDispatch t rest batch context)
  | .deliver started deadline token parcels => b.stepDeliver t rest started deadline token parcels way
  | .exportLeased lease batch wake => b.stepExportLeased t rest lease batch wake
  | .push endpoints => some (b.stepPush t rest endpoints)
  | .send box endpoints => b.stepSend t rest box endpoints
  | .pause wake => if wake ≤ b.now then some (b.finish t rest .done) else none
  | .succeed => some (b.finish t rest .done)

/-- The move of a task in one of the ways of its topmost work. -/
def move (b : Balancer α) (t : TaskId) (way : Nat) : Option (Balancer α) :=
  match b.works t with
  | [] => none
  | work :: rest => b.step t rest way work

/-- The number of ways of a task. -/
def waysOfTask (b : Balancer α) (t : TaskId) : Nat :=
  match b.works t with
  | [] => 0
  | work :: _ => waysOf work

/-- The move of a task in the first way that is open. -/
def firstMove (b : Balancer α) (t : TaskId) : Option (Balancer α) := (List.range (b.waysOfTask t)).findSome? (b.move t)

/-- Whoever has given back the last lease of an exporter leaves the notice, if it is owed. -/
def notify (b : Balancer α) (id : ExporterId) : Balancer α := b.changeEntry id Entry.notify

/-- A notice that is owed, or a move of the first task that can move. -/
def anyMove (b : Balancer α) : Option (Balancer α) :=
  match b.pool.owing? with
  | some id => some (b.notify id)
  | none => (List.range b.tasks.length).findSome? b.firstMove

/-! ## Giving up -/

/-- What giving up a parcel leaves to be done: the lease goes back, and the exporter's work on it is abandoned. -/
def dropParcel (b : Balancer α) (p : Parcel α) : Balancer α :=
  match p.phase with
  | .leased id _ => { b with pool := b.pool.release id }
  | .exporting id _ _ =>
    let b := b.abandonExport id
    { b with pool := b.pool.release id }
  | _ => b

/-- What giving up a work leaves to be done: gates and mailboxes forget the task, and leases go back. Exporters that were being
started or retired stay as they are. -/
def dropWork (t : TaskId) (b : Balancer α) (work : Work α) : Balancer α :=
  match work with
  | .pass _ => { b with pool := { b.pool with gate := b.pool.gate.leave t } }
  | .resolution phase =>
    let b := { b with resolver := { b.resolver with gate := b.resolver.gate.leave t } }
    match phase with
    | .sending box _ => b.changeMailbox box (·.leave t)
    | _ => b
  | .send box _ => b.changeMailbox box (·.leave t)
  | .deliver _ _ _ parcels => parcels.foldl dropParcel b
  | .exportLeased lease _ wake =>
    let b := match wake, b.leases[lease]? with
      | some _, some held => b.abandonExport held.exporter
      | _, _ => b
    b.useLease lease (· - 1)
  | _ => b

/-- Gives a task up, wherever it is. -/
def abandon (b : Balancer α) (t : TaskId) : Balancer α := ((b.works t).foldl (dropWork t) b).withWorks t []

/-! ## Time -/

/-- The ticks at which a work may go on, if nothing else happens. -/
def wakesOf : Work α → List Nat
  | .pass p => wakesOfPass p
  | .resolution phase => wakesOfResolution phase
  | .poll (some ticker) => [ticker.due.tick]
  | .consume _ (some ticker) _ => [ticker.due.tick]
  | .deliver _ deadline _ parcels => wakesOfDeliver deadline parcels
  | .exportLeased _ _ (some wake) => [wake]
  | .pause wake => [wake]
  | _ => []

/-- The later ticks at which some task may go on. -/
def laterWakes (b : Balancer α) : List Nat :=
  (b.tasks.flatMap (fun t => (t.works.head?.map wakesOf).getD [])).filter (fun w => b.now < w)

/-- The next tick at which some task may go on, but not after a limit. -/
def nextTick (b : Balancer α) (limit : Nat) : Nat := b.laterWakes.foldl min limit

/-- Lets time pass. -/
def advanceTo (b : Balancer α) (tick : Nat) : Balancer α := { b with now := max b.now tick }

/-! ## Runs -/

/-- Makes moves until every task is blocked, at most so many. -/
def settle : Nat → Balancer α → Balancer α
  | 0, b => b
  | fuel + 1, b =>
    match b.anyMove with
    | none => b
    | some b => settle fuel b

/-- More moves than a run makes without time passing. -/
def settleFuel : Nat := 1000000

/-- Makes moves until a task ends, every task is blocked or the given number of moves is made. -/
def settleUntil (t : TaskId) : Nat → Balancer α → Balancer α
  | 0, b => b
  | fuel + 1, b =>
    if b.hasEnded t then b
    else
      match b.anyMove with
      | none => b
      | some b => settleUntil t fuel b

/-- Runs until a task ends or a tick is over, passing time only when every task is blocked. -/
def runUntil (t : TaskId) (limit : Nat) : Nat → Balancer α → Balancer α
  | 0, b => b
  | fuel + 1, b =>
    let b := settleUntil t settleFuel b
    if b.hasEnded t || limit ≤ b.now then b else runUntil t limit fuel (b.advanceTo (b.nextTick limit))

/-- How long a task may take before it is given up. -/
def patience : Nat := 600000

/-- Runs until a task ends or has taken too long, and then until every task is blocked. The result tells whether the task ended in
time. -/
def await (b : Balancer α) (t : TaskId) : Balancer α × Bool :=
  let b := runUntil t (b.now + patience) (patience + 2) b
  (settle settleFuel b, b.hasEnded t)

/-- Runs until a task ends or has taken too long, in which case it is given up, and then until every task is blocked. The result
tells whether the task ended in time. -/
def complete (b : Balancer α) (t : TaskId) : Balancer α × Bool :=
  let b := runUntil t (b.now + patience) (patience + 2) b
  let ended := b.hasEnded t
  (settle settleFuel (if ended then b else b.abandon t), ended)

end Balancer

end TelemetryRouter
