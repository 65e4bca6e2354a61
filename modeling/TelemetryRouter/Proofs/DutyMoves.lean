import TelemetryRouter.Balancer.Moves

/-!
# The branches of the steps of duties

A step of a start, of a retirement, of a pass, of a parcel, of a delivery or of an export through a lease held from outside is one of a
few calls. This module takes each of the step functions apart once: a step that can be made is one of the calls, together with the
condition under which it is made. What the calls do to the exporters, to the log and to the metrics is proved of the calls.
-/

namespace TelemetryRouter

variable {α : Type}

namespace Balancer

/-! ## Starts and retirements -/

/-- What the next step of a start calls. -/
inductive AttemptMove (b : Balancer α) (e : Endpoint) : AttemptPhase → Balancer α → AttemptPhase → Prop
  | call : AttemptMove b e .pending (b.callCreate e).1 (b.callCreate e).2
  | made {address : String} {plain : Bool} {wake : Nat} (due : wake ≤ b.now) :
    AttemptMove b e (.creating address plain wake) (b.concludeCreate e address plain).1 (b.concludeCreate e address plain).2
  | started {id : ExporterId} {wake : Nat} (due : wake ≤ b.now) :
    AttemptMove b e (.starting id wake) (b.concludeStart e id).1 (b.concludeStart e id).2

theorem AttemptMove.of_step {b b' : Balancer α} {a a' : Attempt} (h : b.stepAttempt a = some (b', a')) :
    a'.endpoint = a.endpoint ∧ AttemptMove b a.endpoint a.phase b' a'.phase := by
  obtain ⟨e, phase⟩ := a
  unfold stepAttempt at h
  cases phase with
  | pending =>
    cases h
    exact ⟨rfl, .call⟩
  | creating address plain wake =>
    dsimp only at h
    split at h
    · rename_i hdue
      cases h
      exact ⟨rfl, .made hdue⟩
    · cases h
  | starting id wake =>
    dsimp only at h
    split at h
    · rename_i hdue
      cases h
      exact ⟨rfl, .started hdue⟩
    · cases h
  | started => cases h
  | failed => cases h

/-- What the next step of a retirement calls. -/
inductive RetirementMove (b : Balancer α) (id : ExporterId) : RetirementPhase → Balancer α → RetirementPhase → Prop
  | mark : RetirementMove b id .pending (b.changeEntry id (fun x => { x with state := .stopping }))
    (.counting (Instant.after b.now b.options.settings.drainTimeout))
  | close {deadline : Instant} (idle : ((b.pool.entry? id).map Entry.leases).getD 0 = 0) :
    RetirementMove b id (.counting deadline) (b.callStop id).1 (b.callStop id).2
  | stay {deadline : Instant} (leased : ¬((b.pool.entry? id).map Entry.leases).getD 0 = 0) :
    RetirementMove b id (.counting deadline) b (.registering deadline)
  | register {deadline : Instant} : RetirementMove b id (.registering deadline) (b.changeEntry id Entry.await) (.waiting deadline)
  | hear {deadline : Instant} (noticed : (b.pool.entry? id).any Entry.idleNotice = true) :
    RetirementMove b id (.waiting deadline) (b.changeEntry id Entry.takeNotice) (.counting deadline)
  | giveUp {deadline : Instant} (unnoticed : ¬(b.pool.entry? id).any Entry.idleNotice = true)
    (late : Instant.reached deadline b.now = true) :
    RetirementMove b id (.waiting deadline) (b.callStop id).1 (b.callStop id).2
  | stopped {wake : Nat} (due : wake ≤ b.now) :
    RetirementMove b id (.closing wake) (b.concludeStop id).1 (b.concludeStop id).2

theorem RetirementMove.of_step {b b' : Balancer α} {x x' : Retirement} (h : b.stepRetirement x = some (b', x')) :
    x'.id = x.id ∧ RetirementMove b x.id x.phase b' x'.phase := by
  obtain ⟨id, phase⟩ := x
  unfold stepRetirement at h
  cases phase with
  | pending =>
    cases h
    exact ⟨rfl, .mark⟩
  | counting deadline =>
    dsimp only at h
    split at h
    · rename_i hidle
      cases h
      exact ⟨rfl, .close hidle⟩
    · rename_i hleased
      cases h
      exact ⟨rfl, .stay hleased⟩
  | registering deadline =>
    cases h
    exact ⟨rfl, .register⟩
  | waiting deadline =>
    dsimp only at h
    split at h
    · rename_i hnotice
      cases h
      exact ⟨rfl, .hear hnotice⟩
    · rename_i hnotice
      split at h
      · rename_i hlate
        cases h
        exact ⟨rfl, .giveUp hnotice hlate⟩
      · cases h
  | closing wake =>
    dsimp only at h
    split at h
    · rename_i hdue
      cases h
      exact ⟨rfl, .stopped hdue⟩
    · cases h
  | retired => cases h

/-! ## Passes -/

/-- What the step of a pass in one of its ways is. -/
inductive PassMove (b : Balancer α) (t : TaskId) (rest : List (Work α)) (p : Pass) (way : Nat) : Balancer α → Prop
  | enter {gate : Gate} {wanted : List Endpoint} {attempts : List Attempt} (phase_eq : p.phase = .queued)
    (enters : b.pool.gate.enter? t = some gate) (wanted_eq : wanted = b.wanted p.target)
    (attempts_eq : attempts = (b.pool.missing wanted).map (fun e => ⟨e, .pending⟩)) :
    PassMove b t rest p way (({ b with pool := { b.pool with gate := gate } } : Balancer α).withWorks t
      (.pass { p with phase := .adding wanted attempts } :: rest))
  | attempt {wanted : List Endpoint} {attempts : List Attempt} {a a' : Attempt} {c : Balancer α}
    (phase_eq : p.phase = .adding wanted attempts) (unfinished : ¬attempts.all Attempt.isOver = true)
    (at_way : attempts[way]? = some a) (step : b.stepAttempt a = some (c, a')) :
    PassMove b t rest p way (c.withWorks t (.pass { p with phase := .adding wanted (attempts.set way a') } :: rest))
  | publish {wanted : List Endpoint} {attempts : List Attempt} (phase_eq : p.phase = .adding wanted attempts)
    (ended : attempts.all Attempt.isOver = true) :
    PassMove b t rest p way ((b.publishPass p wanted attempts).1.withWorks t (.pass (b.publishPass p wanted attempts).2 :: rest))
  | retire {added failed : List Endpoint} {retirements : List Retirement} {x x' : Retirement} {c : Balancer α}
    (phase_eq : p.phase = .retiring added failed retirements) (unfinished : ¬retirements.all Retirement.isOver = true)
    (at_way : retirements[way]? = some x) (step : b.stepRetirement x = some (c, x')) :
    PassMove b t rest p way (c.withWorks t (.pass { p with phase := .retiring added failed (retirements.set way x') } :: rest))
  | conclude {added failed : List Endpoint} {retirements : List Retirement}
    (phase_eq : p.phase = .retiring added failed retirements) (ended : retirements.all Retirement.isOver = true) :
    PassMove b t rest p way (b.concludePass t rest (b.passOutcome added failed retirements))

theorem PassMove.of_step {b b' : Balancer α} {t : TaskId} {rest : List (Work α)} {p : Pass} {way : Nat}
    (h : b.stepPass t rest p way = some b') : PassMove b t rest p way b' := by
  obtain ⟨target, publish, phase⟩ := p
  unfold stepPass at h
  cases phase with
  | queued =>
    obtain ⟨gate, hgate, h⟩ := Option.bind_eq_some_iff.1 h
    cases h
    exact .enter rfl hgate rfl rfl
  | adding wanted attempts =>
    dsimp only at h
    split at h
    · rename_i hover
      cases h
      exact .publish rfl hover
    · rename_i hopen
      obtain ⟨⟨c, a'⟩, hstep, h⟩ := Option.bind_eq_some_iff.1 h
      obtain ⟨a, hat, hstep⟩ := Option.bind_eq_some_iff.1 hstep
      cases h
      exact .attempt rfl hopen hat hstep
  | retiring added failed retirements =>
    dsimp only at h
    split at h
    · rename_i hover
      cases h
      exact .conclude rfl hover
    · rename_i hopen
      obtain ⟨⟨c, x'⟩, hstep, h⟩ := Option.bind_eq_some_iff.1 h
      obtain ⟨x, hat, hstep⟩ := Option.bind_eq_some_iff.1 hstep
      cases h
      exact .retire rfl hopen hat hstep

/-! ## Deliveries -/

/-- What the next step of a parcel calls, when this or nothing ends its delivery whatever its exporter does. -/
inductive ParcelMove (b : Balancer α) (cut : Option RouterError) (p : Parcel α) : Balancer α → Parcel α → Prop
  | unready (phase_eq : p.phase = .pending) (none : b.pool.lease? p.endpoint = none) :
    ParcelMove b cut p b { p with phase := .failed (.endpointNotReady p.endpoint) }
  | lease {id : ExporterId} {pool : Pool} (phase_eq : p.phase = .pending) (leased : b.pool.lease? p.endpoint = some (id, pool)) :
    ParcelMove b cut p { b with pool := pool } { p with phase := .leased id b.now }
  | cutEarly {b' : Balancer α} {p' : Parcel α} {id : ExporterId} {since : Nat} {error : RouterError}
    (phase_eq : p.phase = .leased id since) (cut_eq : cut = some error)
    (ends : b.concludeParcel p id since (.error error) = (b', p')) : ParcelMove b cut p b' p'
  | refuse {b' : Balancer α} {p' : Parcel α} {id : ExporterId} {since : Nat} {error : RouterError}
    (phase_eq : p.phase = .leased id since) (cut_eq : cut = none) (refused : (b.callExport id p.batch).2 = .error error)
    (ends : (b.callExport id p.batch).1.concludeParcel p id since (.error error) = (b', p')) : ParcelMove b cut p b' p'
  | call {id : ExporterId} {since wake : Nat} (phase_eq : p.phase = .leased id since) (cut_eq : cut = none)
    (called : (b.callExport id p.batch).2 = .ok wake) :
    ParcelMove b cut p (b.callExport id p.batch).1 { p with phase := .exporting id since wake }
  | cutLate {b' : Balancer α} {p' : Parcel α} {id : ExporterId} {since wake : Nat} {error : RouterError}
    (phase_eq : p.phase = .exporting id since wake) (cut_eq : cut = some error)
    (ends : (b.abandonExport id).concludeParcel p id since (.error error) = (b', p')) : ParcelMove b cut p b' p'
  | finish {b' : Balancer α} {p' : Parcel α} {id : ExporterId} {since wake : Nat} (phase_eq : p.phase = .exporting id since wake)
    (cut_eq : cut = none) (due : wake ≤ b.now)
    (ends : (b.concludeExport id p.batch).1.concludeParcel p id since (b.concludeExport id p.batch).2 = (b', p')) :
    ParcelMove b cut p b' p'

theorem ParcelMove.of_step {b b' : Balancer α} {started : Nat} {deadline : Option Instant} {token : Option String} {p p' : Parcel α}
    (h : b.stepParcel started deadline token p = some (b', p')) : ParcelMove b (b.interruption? started deadline token) p b' p' := by
  obtain ⟨e, batch, phase⟩ := p
  unfold stepParcel at h
  cases phase with
  | pending =>
    dsimp only at h
    split at h
    · rename_i hnone
      cases h
      exact .unready rfl hnone
    · rename_i id pool hlease
      cases h
      exact .lease rfl hlease
  | leased id since =>
    dsimp only at h
    split at h
    · rename_i error hcut
      exact .cutEarly rfl hcut (Option.some.inj h)
    · rename_i hcut
      rcases hcall : b.callExport id batch with ⟨c, error | wake⟩
      all_goals
        rw [hcall] at h
        obtain rfl : (b.callExport id batch).1 = c := congrArg Prod.fst hcall
        have hresult := congrArg Prod.snd hcall
      · exact .refuse rfl hcut hresult (Option.some.inj h)
      · cases h
        exact .call rfl hcut hresult
  | exporting id since wake =>
    dsimp only at h
    split at h
    · rename_i error hcut
      exact .cutLate rfl hcut (Option.some.inj h)
    · rename_i hcut
      split at h
      · rename_i hdue
        exact .finish rfl hcut hdue (Option.some.inj h)
      · cases h
  | delivered => cases h
  | failed error => cases h

/-- What the step of a delivery in one of its ways is. -/
inductive DeliverMove (b : Balancer α) (t : TaskId) (rest : List (Work α)) (started : Nat) (deadline : Option Instant)
    (token : Option String) (parcels : List (Parcel α)) (way : Nat) : Balancer α → Prop
  | parcel {p p' : Parcel α} {c : Balancer α} (at_way : parcels[way]? = some p)
    (step : b.stepParcel started deadline token p = some (c, p')) :
    DeliverMove b t rest started deadline token parcels way
      (c.withWorks t (.deliver started deadline token (parcels.set way p') :: rest))
  | finish (ended : parcels.all Parcel.isOver = true) :
    DeliverMove b t rest started deadline token parcels way (b.finish t rest (.dispatched (Parcel.result parcels)))

theorem DeliverMove.of_step {b b' : Balancer α} {t : TaskId} {rest : List (Work α)} {started : Nat} {deadline : Option Instant}
    {token : Option String} {parcels : List (Parcel α)} {way : Nat}
    (h : b.stepDeliver t rest started deadline token parcels way = some b') :
    DeliverMove b t rest started deadline token parcels way b' := by
  unfold stepDeliver at h
  split at h
  · rename_i hover
    cases h
    exact .finish hover
  · obtain ⟨⟨c, p'⟩, hstep, rfl⟩ := Option.map_eq_some_iff.1 h
    obtain ⟨p, hat, hstep⟩ := Option.bind_eq_some_iff.1 hstep
    exact .parcel hat hstep

/-! ## Exports through leases held from outside -/

/-- What the step of an export through a lease held from outside is. -/
inductive ExportMove (b : Balancer α) (t : TaskId) (rest : List (Work α)) (lease : LeaseId) (batch : Batch α) (held : HeldLease) :
    Option Nat → Balancer α → Prop
  | refuse {error : RouterError} (refused : (b.callExport held.exporter batch).2 = .error error) :
    ExportMove b t rest lease batch held none
      (((b.callExport held.exporter batch).1.useLease lease (· - 1)).finish t rest (.failed error))
  | call {wake : Nat} (called : (b.callExport held.exporter batch).2 = .ok wake) :
    ExportMove b t rest lease batch held none
      ((b.callExport held.exporter batch).1.withWorks t (.exportLeased lease batch (some wake) :: rest))
  | finish {wake : Nat} (due : wake ≤ b.now) :
    ExportMove b t rest lease batch held (some wake)
      (((b.concludeExport held.exporter batch).1.useLease lease (· - 1)).finish t rest
        (match (b.concludeExport held.exporter batch).2 with | .ok _ => .done | .error e => .failed e))

/-- Every step of an export through a lease held from outside is one of these. -/
theorem ExportMove.of_step {b b' : Balancer α} {t : TaskId} {rest : List (Work α)} {lease : LeaseId} {batch : Batch α}
    {wake : Option Nat} (h : b.stepExportLeased t rest lease batch wake = some b') :
    ∃ held, b.leases[lease]? = some held ∧ ExportMove b t rest lease batch held wake b' := by
  unfold stepExportLeased at h
  dsimp only at h
  split at h
  · cases h
  · rename_i held hheld
    refine ⟨held, hheld, ?_⟩
    cases wake with
    | none =>
      dsimp only at h
      rcases hcall : b.callExport held.exporter batch with ⟨c, error | wake⟩
      all_goals
        rw [hcall] at h
        obtain rfl : (b.callExport held.exporter batch).1 = c := congrArg Prod.fst hcall
        have hresult := congrArg Prod.snd hcall
        cases h
      · exact .refuse hresult
      · exact .call hresult
    | some wake =>
      dsimp only at h
      split at h
      · rename_i hdue
        cases h
        exact .finish hdue
      · cases h

end Balancer

end TelemetryRouter
