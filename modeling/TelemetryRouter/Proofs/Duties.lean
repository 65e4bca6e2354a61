import TelemetryRouter.Proofs.Runs

/-!
# What a step of a duty does

A step of a pass lets it in, makes a step of one of its starts or retirements, publishes its ring, or ends it. A step of a
delivery makes a step of one of its parcels or ends it. A step of an export through a lease held from outside calls the exporter
or ends the export. Each of them is opened once here.

All of them rely on what a duty refers to being there: in every state of a run, the exporters that duties, leases and the pool name
were made, and for the endpoints that they say.
-/

namespace TelemetryRouter

variable {α : Type}

/-- The exporter of a start, once it was made. -/
def AttemptPhase.exporter? : AttemptPhase → Option ExporterId
  | .starting id _ => some id
  | _ => none

namespace Balancer

/-- The endpoint that an exporter was made for. -/
def endpointOf? (b : Balancer α) (id : ExporterId) : Option Endpoint := (b.pool.entry? id).map Entry.endpoint

end Balancer

/-- Whether what a work refers to is there. -/
def Work.IsGrounded (b : Balancer α) : Work α → Prop
  | .pass p => match p.phase with
    | .queued => True
    | .adding _ attempts => ∀ a ∈ attempts, ∀ id ∈ a.phase.exporter?, b.endpointOf? id = some a.endpoint
    | .retiring _ _ retirements => ∀ r ∈ retirements, ∃ e, b.endpointOf? r.id = some e
  | .deliver _ _ _ parcels => ∀ p ∈ parcels, ∀ id ∈ p.phase.lease?, b.endpointOf? id = some p.endpoint
  | .exportLeased lease _ _ => lease < b.leases.length
  | _ => True

namespace Balancer

/-- Only topmost works are duties, and what duties, leases and the pool refer to is there. -/
structure Grounded (b : Balancer α) : Prop where
  tidy : b.Tidy
  current : ∀ c ∈ b.pool.current, b.endpointOf? c.2 = some c.1
  duties : ∀ (t : TaskId) (w : Work α), b.duty? t = some w → w.IsGrounded b
  leases : ∀ l ∈ b.leases, ∃ e, b.endpointOf? l.exporter = some e

/-! ## Passes -/

/-- What a step of a pass does. -/
inductive PassStep (b : Balancer α) (t : TaskId) (rest : List (Work α)) (p : Pass) : Balancer α → Prop
  | enter {gate : Gate} {wanted : List Endpoint} {attempts : List Attempt} (phase : p.phase = .queued)
    (enters : b.pool.gate.enter? t = some gate) (wanted_eq : wanted = b.wanted p.target)
    (attempts_eq : attempts = (b.pool.missing wanted).map (fun e => ⟨e, .pending⟩)) :
    PassStep b t rest p (({ b with pool := { b.pool with gate := gate } } : Balancer α).withWorks t
      (.pass { p with phase := .adding wanted attempts } :: rest))
  | attempt {wanted : List Endpoint} {attempts : List Attempt} {way : Nat} {a a' : Attempt} {c : Balancer α}
    (phase : p.phase = .adding wanted attempts) (at_way : attempts[way]? = some a) (endpoint : a'.endpoint = a.endpoint)
    (frame : Frame b c) (step : AttemptStep b a.endpoint a.phase c a'.phase) :
    PassStep b t rest p (c.withWorks t (.pass { p with phase := .adding wanted (attempts.set way a') } :: rest))
  | publish {wanted : List Endpoint} {attempts : List Attempt} (phase : p.phase = .adding wanted attempts)
    (ended : attempts.all Attempt.isOver = true) :
    PassStep b t rest p ((b.publishPass p wanted attempts).1.withWorks t (.pass (b.publishPass p wanted attempts).2 :: rest))
  | retire {added failed : List Endpoint} {retirements : List Retirement} {way : Nat} {r r' : Retirement} {entry : Entry}
    {c : Balancer α} (phase : p.phase = .retiring added failed retirements) (at_way : retirements[way]? = some r)
    (id : r'.id = r.id) (frame : Frame b c) (made : b.pool.entry? r.id = some entry)
    (step : RetirementStep b r.id entry r.phase c r'.phase) :
    PassStep b t rest p (c.withWorks t (.pass { p with phase := .retiring added failed (retirements.set way r') } :: rest))
  | conclude {added failed : List Endpoint} {retirements : List Retirement}
    (phase : p.phase = .retiring added failed retirements) (ended : retirements.all Retirement.isOver = true) :
    PassStep b t rest p (b.concludePass t rest (b.passOutcome added failed retirements))

/-- The end of a pass changes the metrics, the gate and its task. -/
theorem concludePass_eq (b : Balancer α) (t : TaskId) (rest : List (Work α)) (outcome : ReconcileOutcome) :
    ∃ metrics, b.concludePass t rest outcome =
      ({ b with metrics := metrics, pool := { b.pool with gate := b.pool.gate.leave t } } : Balancer α).finish t rest
        (.reconciled outcome) := by
  unfold concludePass
  split <;> exact ⟨_, rfl⟩

/-- The end of a pass leaves its task with the rest of its works. -/
theorem reworks_concludePass {b : Balancer α} {t : TaskId} (ht : t < b.tasks.length) (rest : List (Work α))
    (outcome : ReconcileOutcome) : Reworks b (b.concludePass t rest outcome) t rest := by
  obtain ⟨metrics, heq⟩ := concludePass_eq b t rest outcome
  rw [heq]
  exact reworks_finish ht rfl

theorem entry?_of_endpointOf? {b : Balancer α} {id : ExporterId} {e : Endpoint} (h : b.endpointOf? id = some e) :
    ∃ entry, b.pool.entry? id = some entry ∧ entry.endpoint = e :=
  Option.map_eq_some_iff.1 h

theorem endpointOf?_eq_some {b : Balancer α} {id : ExporterId} {entry : Entry} (h : b.pool.entry? id = some entry) :
    b.endpointOf? id = some entry.endpoint := by
  rw [endpointOf?, h]
  rfl

theorem entry?_of_starting {b : Balancer α} {p : Pass} {wanted : List Endpoint} {attempts : List Attempt} {a : Attempt}
    (hp : (Work.pass p : Work α).IsGrounded b) (hphase : p.phase = .adding wanted attempts) (ha : a ∈ attempts) (id : ExporterId)
    (wake : Nat) (hstarting : a.phase = .starting id wake) : ∃ entry, b.pool.entry? id = some entry := by
  rw [Work.IsGrounded, hphase] at hp
  obtain ⟨entry, he, _⟩ := entry?_of_endpointOf? (hp a ha id (by rw [hstarting]; rfl))
  exact ⟨entry, he⟩

theorem entry?_of_retirement {b : Balancer α} {p : Pass} {added failed : List Endpoint} {retirements : List Retirement}
    {x : Retirement} (hp : (Work.pass p : Work α).IsGrounded b) (hphase : p.phase = .retiring added failed retirements)
    (hx : x ∈ retirements) : ∃ entry, b.pool.entry? x.id = some entry := by
  rw [Work.IsGrounded, hphase] at hp
  obtain ⟨e, hmade⟩ := hp x hx
  obtain ⟨entry, he, _⟩ := entry?_of_endpointOf? hmade
  exact ⟨entry, he⟩

theorem entry?_of_parcel {b : Balancer α} {started : Nat} {deadline : Option Instant} {token : Option String}
    {parcels : List (Parcel α)} {p : Parcel α} (hparcels : (Work.deliver started deadline token parcels).IsGrounded b)
    (hp : p ∈ parcels) (id : ExporterId) (hid : id ∈ p.phase.lease?) : ∃ entry, b.pool.entry? id = some entry := by
  obtain ⟨entry, he, _⟩ := entry?_of_endpointOf? (hparcels p hp id hid)
  exact ⟨entry, he⟩

theorem stepPass_cases {b b' : Balancer α} {t : TaskId} {rest : List (Work α)} {p : Pass} {way : Nat}
    (hp : (Work.pass p : Work α).IsGrounded b) (h : b.stepPass t rest p way = some b') : PassStep b t rest p b' := by
  cases PassMove.of_step h with
  | enter phase_eq enters wanted_eq attempts_eq => exact .enter phase_eq enters wanted_eq attempts_eq
  | attempt phase_eq _ at_way step =>
    obtain ⟨hendpoint, hframe, hattempt⟩ := stepAttempt_spec (entry?_of_starting hp phase_eq (List.mem_of_getElem? at_way)) step
    exact .attempt phase_eq at_way hendpoint hframe hattempt
  | publish phase_eq ended => exact .publish phase_eq ended
  | retire phase_eq _ at_way step =>
    obtain ⟨entry, he⟩ := entry?_of_retirement hp phase_eq (List.mem_of_getElem? at_way)
    obtain ⟨hid, hframe, hretire⟩ := stepRetirement_spec he step
    exact .retire phase_eq at_way hid hframe he hretire
  | conclude phase_eq ended => exact .conclude phase_eq ended

/-! ## Deliveries -/

/-- What a step of a delivery does. -/
inductive DeliverStep (b : Balancer α) (t : TaskId) (rest : List (Work α)) (started : Nat) (deadline : Option Instant)
    (token : Option String) (parcels : List (Parcel α)) (way : Nat) : Balancer α → Prop
  | parcel {p p' : Parcel α} {c : Balancer α} (at_way : parcels[way]? = some p) (endpoint : p'.endpoint = p.endpoint)
    (batch : p'.batch = p.batch) (frame : Frame b c)
    (step : ParcelStep b p.endpoint p.batch (b.interruption? started deadline token) p.phase c p'.phase) :
    DeliverStep b t rest started deadline token parcels way
      (c.withWorks t (.deliver started deadline token (parcels.set way p') :: rest))
  | finish (ended : parcels.all Parcel.isOver = true) : DeliverStep b t rest started deadline token parcels way
      (b.finish t rest (.dispatched (Parcel.result parcels)))

theorem stepDeliver_cases {b b' : Balancer α} {t : TaskId} {rest : List (Work α)} {started : Nat} {deadline : Option Instant}
    {token : Option String} {parcels : List (Parcel α)} {way : Nat}
    (hp : (Work.deliver started deadline token parcels).IsGrounded b)
    (h : b.stepDeliver t rest started deadline token parcels way = some b') :
    DeliverStep b t rest started deadline token parcels way b' := by
  cases DeliverMove.of_step h with
  | finish ended => exact .finish ended
  | parcel at_way step =>
    obtain ⟨hendpoint, hbatch, hframe, hparcel⟩ := stepParcel_spec (entry?_of_parcel hp (List.mem_of_getElem? at_way)) step
    exact .parcel at_way hendpoint hbatch hframe hparcel

/-! ## Exports through leases held from outside -/

/-- What a step of an export through a lease held from outside does. -/
inductive ExportStep (b : Balancer α) (t : TaskId) (rest : List (Work α)) (lease : LeaseId) (batch : Batch α)
    (held : HeldLease) (entry : Entry) : Option Nat → Balancer α → Prop
  | refuse {c : Balancer α} {error : RouterError} (frame : Frame b c) (current : c.pool.current = b.pool.current)
    (touches : Touches b c held.exporter entry entry [.exportRefused]) :
    ExportStep b t rest lease batch held entry none ((c.useLease lease (· - 1)).finish t rest (.failed error))
  | call {c : Balancer α} {wake : Nat} (frame : Frame b c) (current : c.pool.current = b.pool.current)
    (touches : Touches b c held.exporter entry { entry with inProgress := entry.inProgress + 1 } [.exporting batch.itemCount]) :
    ExportStep b t rest lease batch held entry none (c.withWorks t (.exportLeased lease batch (some wake) :: rest))
  | finish {c : Balancer α} {wake : Nat} {what : Occurrence} {outcome : Outcome α} (frame : Frame b c)
    (current : c.pool.current = b.pool.current) (what_eq : what = .exported ∨ what = .exportFailed)
    (touches : Touches b c held.exporter entry { entry with inProgress := entry.inProgress - 1 } [what]) :
    ExportStep b t rest lease batch held entry (some wake) ((c.useLease lease (· - 1)).finish t rest outcome)

/-- Every step of an export through a lease held from outside is one of these. -/
theorem stepExportLeased_cases {b b' : Balancer α} (hb : b.Grounded) {t : TaskId} {rest : List (Work α)} {lease : LeaseId}
    {batch : Batch α} {wake : Option Nat} (h : b.stepExportLeased t rest lease batch wake = some b') :
    ∃ held entry, b.leases[lease]? = some held ∧ b.pool.entry? held.exporter = some entry ∧
      ExportStep b t rest lease batch held entry wake b' := by
  obtain ⟨held, hheld, hmove⟩ := ExportMove.of_step h
  obtain ⟨e, hmade⟩ := hb.leases held (List.mem_of_getElem? hheld)
  obtain ⟨entry, he, _⟩ := entry?_of_endpointOf? hmade
  refine ⟨held, entry, hheld, he, ?_⟩
  cases hmove with
  | refuse refused =>
    obtain ⟨hframe, hcurrent, ⟨_, _, htouches⟩ | ⟨_, hresult, _⟩⟩ := callExport_spec he batch
    · exact .refuse hframe hcurrent htouches
    · cases refused.symm.trans hresult
  | call called =>
    obtain ⟨hframe, hcurrent, ⟨_, hresult, _⟩ | ⟨_, _, htouches⟩⟩ := callExport_spec he batch
    · cases called.symm.trans hresult
    · exact .call hframe hcurrent htouches
  | finish _ =>
    obtain ⟨hframe, hcurrent, ⟨_, _, htouches⟩ | ⟨_, _, htouches⟩⟩ := concludeExport_spec he batch
    · exact .finish hframe hcurrent (.inl rfl) htouches
    · exact .finish hframe hcurrent (.inr rfl) htouches

end Balancer

end TelemetryRouter
