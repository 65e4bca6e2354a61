import TelemetryRouter.Proofs.Turns

/-!
# When the recorder is written to

Metrics are recorded in three places: a resolution is counted when its answer is in, an export when its parcel gives the lease back, and
the pool is measured when a pass ends. `Balancer.recording_perform` says so for every action, and the first section says what is found
under each metric after it was recorded.
-/

namespace TelemetryRouter

variable {α : Type}

/-- Whether the delivery of a parcel has failed. -/
def ParcelPhase.isLost : ParcelPhase → Bool
  | .failed _ => true
  | _ => false

/-- The kind of a resolver without the answers that its source has still to give. -/
def ResolverKind.unscripted : ResolverKind → ResolverKind
  | .polling source interval timeout => .polling { source with script := .ofList [] } interval timeout
  | kind => kind

/-- The name of a resolver does not depend on the script of its source. -/
theorem Resolver.name_congr {resolver resolver' : Resolver} (h : resolver.kind.unscripted = resolver'.kind.unscripted) :
    resolver.name = resolver'.name := by
  have hname : ∀ x : Resolver, x.name = ({ x with kind := x.kind.unscripted } : Resolver).name := by
    intro x
    unfold name
    cases hkind : x.kind <;> rfl
  rw [hname resolver, hname resolver']
  unfold name
  dsimp only
  rw [h]

/-! ## Recorders -/

namespace MetricBook

/-- The samples that were taken of a metric. -/
def samples (b : MetricBook) (k : MetricKey) : List Float :=
  match b.find? k with
  | some (.histogram samples) => samples
  | _ => []

/-- Whether a recorder says the same as another one of everything but resolutions. -/
def Agrees (b b' : MetricBook) : Prop := ∀ k : MetricKey, k.name ≠ "loadbalancer_num_resolutions" → b'.find? k = b.find? k

theorem Agrees.refl (b : MetricBook) : b.Agrees b := fun _ _ => rfl

theorem Agrees.of_eq {b b' : MetricBook} (h : b' = b) : b.Agrees b' := h ▸ .refl b

theorem find?_increment_of_ne (b : MetricBook) {k k' : MetricKey} (h : k' ≠ k) : (b.increment k).find? k' = b.find? k' := by
  unfold increment
  split <;> rw [find?_set, if_neg h]

theorem find?_addSample_of_ne (b : MetricBook) {k k' : MetricKey} (h : k' ≠ k) (sample : Float) :
    (b.addSample k sample).find? k' = b.find? k' := by
  unfold addSample
  split <;> rw [find?_set, if_neg h]

theorem samples_addSample_self (b : MetricBook) (k : MetricKey) (sample : Float) :
    (b.addSample k sample).samples k = b.samples k ++ [sample] := by
  unfold addSample
  split
  · rename_i samples h
    rw [MetricBook.samples, MetricBook.samples, find?_set, if_pos rfl, h]
  · rename_i h
    have hnone : b.samples k = [] := by
      unfold MetricBook.samples
      split
      · rename_i samples h'
        exact absurd h' (h samples)
      · rfl
    rw [hnone, MetricBook.samples, find?_set, if_pos rfl, List.nil_append]

theorem agrees_recordResolution (b : MetricBook) (name : String) (success : Bool) : b.Agrees (b.recordResolution name success) :=
  fun _ hk => b.find?_increment_of_ne (ne_of_name hk)

/-- The counters of exports that end well and of those that do not are different, and so are those of different endpoints. -/
theorem outcomeKey_inj {e e' : String} {success success' : Bool} (h : outcomeKey e success = outcomeKey e' success') :
    e = e' ∧ success = success' := by
  simp only [outcomeKey, MetricKey.mk.injEq, List.cons.injEq, Prod.mk.injEq, true_and, and_true] at h
  refine ⟨h.1, ?_⟩
  cases success <;> cases success' <;> simp [flag] at h ⊢

theorem latencyKey_inj {e e' : String} (h : latencyKey e = latencyKey e') : e = e' := by
  simpa [latencyKey] using h

/-- An export counts once, for its endpoint and as it ended. -/
theorem count_recordExport (b : MetricBook) (e e' : String) (latency : Duration) (success success' : Bool) :
    (b.recordExport e latency success).count (outcomeKey e' success') =
      b.count (outcomeKey e' success') + if e' = e ∧ success' = success then 1 else 0 := by
  have hsample : (b.addSample (latencyKey e) latency.milliseconds).count (outcomeKey e' success') = b.count (outcomeKey e' success') :=
    count_addSample_of_ne _ (ne_of_name (by simp [latencyKey, outcomeKey])) _
  unfold recordExport
  split
  · rename_i h
    rw [h.1, h.2] at hsample ⊢
    rw [count_increment_self, hsample]
  · rename_i h
    rw [count_increment_of_ne _ (fun heq => h (outcomeKey_inj heq)), hsample, Nat.add_zero]

/-- An export leaves one sample of its latency, for its endpoint. -/
theorem length_samples_recordExport (b : MetricBook) (e e' : String) (latency : Duration) (success : Bool) :
    ((b.recordExport e latency success).samples (latencyKey e')).length =
      (b.samples (latencyKey e')).length + if e' = e then 1 else 0 := by
  have hcount : (b.recordExport e latency success).find? (latencyKey e') =
      (b.addSample (latencyKey e) latency.milliseconds).find? (latencyKey e') :=
    find?_increment_of_ne _ (ne_of_name (by simp [latencyKey, outcomeKey]))
  have hsamples : (b.recordExport e latency success).samples (latencyKey e') =
      (b.addSample (latencyKey e) latency.milliseconds).samples (latencyKey e') := by
    rw [samples, samples, hcount]
  rw [hsamples]
  split
  · rename_i h
    rw [h, samples_addSample_self, List.length_append, List.length_singleton]
  · rename_i h
    rw [samples, samples, find?_addSample_of_ne _ (fun heq => h (latencyKey_inj heq)), Nat.add_zero]

theorem find?_recordExport_of_ne (b : MetricBook) {k : MetricKey} (hlatency : k.name ≠ "loadbalancer_backend_latency")
    (houtcome : k.name ≠ "loadbalancer_backend_outcome") (e : String) (latency : Duration) (success : Bool) :
    (b.recordExport e latency success).find? k = b.find? k := by
  rw [recordExport, find?_increment_of_ne _ (ne_of_name houtcome), find?_addSample_of_ne _ (ne_of_name hlatency)]

theorem find?_recordBackends (b : MetricBook) (name : String) (n : Nat) (k : MetricKey) :
    (b.recordBackends name n).find? k = if k = backendsKey name then some (.gauge n) else b.find? k :=
  b.find?_set _ _ k

end MetricBook

namespace Balancer

/-! ## Steps that record nothing but resolutions -/

@[simp] theorem metrics_logEntry (b : Balancer α) (id : ExporterId) (what : Occurrence) :
    (b.logEntry id what).metrics = b.metrics := by
  unfold logEntry
  split <;> rfl

@[simp] theorem metrics_concludeCall (b : Balancer α) (entry : Entry) (kind : CallKind) :
    (b.concludeCall entry kind).2.metrics = b.metrics := by
  unfold concludeCall
  split <;> rfl

theorem metrics_stepAttempt {b b' : Balancer α} {a a' : Attempt} (h : b.stepAttempt a = some (b', a')) : b'.metrics = b.metrics := by
  have hcreate : ∀ e address plain, (b.concludeCreate e address plain).1.metrics = b.metrics := by
    intro e address plain
    unfold concludeCreate
    dsimp only
    split
    · rfl
    · simp
  have hstart : ∀ e id, (b.concludeStart e id).1.metrics = b.metrics := by
    intro e id
    unfold concludeStart
    split
    · rfl
    · dsimp only
      split <;> simp [changeEntry]
  obtain ⟨-, hmove⟩ := AttemptMove.of_step h
  generalize a.phase = phase at hmove
  generalize a'.phase = phase' at hmove
  cases hmove with
  | call => rfl
  | made _ => exact hcreate _ _ _
  | started _ => exact hstart _ _

theorem metrics_stepRetirement {b b' : Balancer α} {x x' : Retirement} (h : b.stepRetirement x = some (b', x')) :
    b'.metrics = b.metrics := by
  have hcall : ∀ id, (b.callStop id).1.metrics = b.metrics := by
    intro id
    unfold callStop
    split
    · rfl
    · simp [changeEntry]
  have hconclude : ∀ id, (b.concludeStop id).1.metrics = b.metrics := by
    intro id
    unfold concludeStop
    split
    · rfl
    · simp [changeEntry]
  obtain ⟨-, hmove⟩ := RetirementMove.of_step h
  generalize x.phase = phase at hmove
  generalize x'.phase = phase' at hmove
  cases hmove with
  | close _ => exact hcall _
  | giveUp _ _ => exact hcall _
  | stopped _ => exact hconclude _
  | _ => rfl

/-- The call of an exporter with a batch is not measured. -/
@[simp] theorem metrics_callExport (b : Balancer α) (id : ExporterId) (batch : Batch α) :
    (b.callExport id batch).1.metrics = b.metrics := by
  unfold callExport
  split
  · rfl
  · split <;> simp [changeEntry]

/-- The end of an exporter's work is not measured by itself. -/
@[simp] theorem metrics_concludeExport (b : Balancer α) (id : ExporterId) (batch : Batch α) :
    (b.concludeExport id batch).1.metrics = b.metrics := by
  unfold concludeExport
  split
  · rfl
  · dsimp only
    split <;> simp [changeEntry, keepDelivered]

@[simp] theorem metrics_abandonExport (b : Balancer α) (id : ExporterId) : (b.abandonExport id).metrics = b.metrics := by
  simp [abandonExport, changeEntry]

@[simp] theorem metrics_releaseUnused (b : Balancer α) : b.releaseUnused.metrics = b.metrics := by
  obtain ⟨pool, heq, _⟩ := b.releaseUnused_spec
  rw [heq]

@[simp] theorem metrics_useLease (b : Balancer α) (lease : LeaseId) (f : Nat → Nat) : (b.useLease lease f).metrics = b.metrics :=
  metrics_releaseUnused _

@[simp] theorem metrics_dropName (b : Balancer α) (name : String) : (b.dropName name).metrics = b.metrics :=
  metrics_releaseUnused _

/-- An export through a lease held from outside is not measured. -/
theorem metrics_stepExportLeased {b b' : Balancer α} {t : TaskId} {rest : List (Work α)} {lease : LeaseId} {batch : Batch α}
    {wake : Option Nat} (h : b.stepExportLeased t rest lease batch wake = some b') : b'.metrics = b.metrics := by
  obtain ⟨held, -, hmove⟩ := ExportMove.of_step h
  cases hmove with
  | refuse _ => exact (metrics_useLease _ lease _).trans (b.metrics_callExport held.exporter batch)
  | call _ => exact b.metrics_callExport held.exporter batch
  | finish _ => exact (metrics_useLease _ lease _).trans (b.metrics_concludeExport held.exporter batch)

theorem metrics_dropWork (t : TaskId) (b : Balancer α) (w : Work α) : (dropWork t b w).metrics = b.metrics := by
  have hparcel : ∀ (c : Balancer α) (p : Parcel α), (c.dropParcel p).metrics = c.metrics := by
    intro c p
    unfold dropParcel
    split
    · rfl
    · exact c.metrics_abandonExport _
    · rfl
  have hparcels : ∀ parcels : List (Parcel α), (parcels.foldl dropParcel b).metrics = b.metrics := fun parcels =>
    List.foldlRecOn parcels dropParcel (motive := fun c => c.metrics = b.metrics) rfl (fun c hc p _ => (hparcel c p).trans hc)
  unfold dropWork
  split
  · rfl
  · dsimp only
    split <;> rfl
  · rfl
  · exact hparcels _
  · rw [metrics_useLease]
    split
    · exact b.metrics_abandonExport _
    · rfl
  · rfl

theorem metrics_abandon (b : Balancer α) (t : TaskId) : (b.abandon t).metrics = b.metrics :=
  foldl_dropWork_congr Balancer.metrics (fun w _ c => metrics_dropWork t c w) b

theorem agrees_beginResolution (b : Balancer α) (t : TaskId) (rest : List (Work α)) :
    b.metrics.Agrees (b.beginResolution t rest).metrics := by
  unfold beginResolution
  split
  · exact .refl _
  · exact b.metrics.agrees_recordResolution _ _
  · exact .refl _

/-- A step of an inert work counts a resolution at most. -/
theorem agrees_step {b b' : Balancer α} {t : TaskId} {rest : List (Work α)} {way : Nat} {w : Work α} (hw : w.isInert = true)
    (h : b.step t rest way w = some b') : b.metrics.Agrees b'.metrics := by
  -- The step relation forgets what a fixed resolver counts, so the two steps in which it does are opened here.
  have hstart : ∀ box, b.metrics.Agrees (b.stepStartResolver t rest box).metrics := by
    intro box
    unfold stepStartResolver
    split
    · exact b.metrics.agrees_recordResolution _ _
    · split <;> exact .refl _
    · split
      · exact .refl _
      · exact b.agrees_beginResolution t _
  have hpoll : ∀ ticker, b.stepPoll t rest (some ticker) way = some b' → b.metrics.Agrees b'.metrics := by
    intro ticker hstep
    unfold stepPoll at hstep
    dsimp only at hstep
    split at hstep <;> split at hstep
    · injection hstep with hstep
      exact hstep ▸ .refl _
    · cases hstep
    · injection hstep with hstep
      exact hstep ▸ b.agrees_beginResolution t _
    · cases hstep
  obtain ⟨ws, started, hstep⟩ := step_cases hw h
  cases hstep with
  | resolution step =>
    cases step with
    | hear _ => exact b.metrics.agrees_recordResolution _ _
    | _ => exact .refl _
  | startFixed _ =>
    injection h with h
    exact h ▸ hstart _
  | poll step =>
    cases step with
    | pollOther _ => exact hpoll _ h
    | _ => exact .refl _
  | consume step => cases step <;> exact .refl _
  | _ => exact .refl _

theorem agrees_request (b : Balancer α) (r : Request α) : b.metrics.Agrees (b.request r).1.metrics := by
  show b.metrics.Agrees ((b.spawn []).begin b.nextTask r).metrics
  cases r with
  | resolve => exact (b.spawn []).agrees_beginResolution b.nextTask []
  | exportLeased lease batch => exact .of_eq (metrics_useLease _ lease _)
  | _ => exact .refl _

/-! ## The steps that record -/

/-- What a step of a parcel for an endpoint records. -/
inductive ParcelRecord (before after : MetricBook) (e : Endpoint) : ParcelPhase → ParcelPhase → Prop
  | leases {phase : ParcelPhase} {id : ExporterId} (lease : phase.lease? = some id) (same : after = before) :
    ParcelRecord before after e .pending phase
  | calls {phase phase' : ParcelPhase} {id : ExporterId} (lease : phase.lease? = some id) (lease' : phase'.lease? = some id)
    (same : after = before) : ParcelRecord before after e phase phase'
  | refused (same : after = before) : ParcelRecord before after e .pending (.failed (.endpointNotReady e))
  | delivered {phase : ParcelPhase} {id : ExporterId} {latency : Duration} (lease : phase.lease? = some id)
    (records : after = before.recordExport e.address latency true) : ParcelRecord before after e phase .delivered
  | failed {phase : ParcelPhase} {id : ExporterId} {latency : Duration} {error : RouterError} (lease : phase.lease? = some id)
    (records : after = before.recordExport e.address latency false) : ParcelRecord before after e phase (.failed error)

section Record

variable {before after : MetricBook} {e : Endpoint} {phase phase' : ParcelPhase}

/-- A parcel that has made a step does not wait for its lease. -/
theorem ParcelRecord.ne_pending (h : ParcelRecord before after e phase phase') : phase' ≠ .pending := by
  rintro rfl
  cases h with
  | leases lease _ => cases lease
  | calls _ lease' _ => cases lease'

/-- A parcel that makes a step has a lease or waits for one. -/
theorem ParcelRecord.pending_or_lease (h : ParcelRecord before after e phase phase') : phase = .pending ∨ phase.lease? ≠ none := by
  cases h with
  | leases _ _ => exact .inl rfl
  | refused _ => exact .inl rfl
  | calls lease _ _ => exact .inr (by rw [lease]; exact Option.some_ne_none _)
  | delivered lease _ => exact .inr (by rw [lease]; exact Option.some_ne_none _)
  | failed lease _ => exact .inr (by rw [lease]; exact Option.some_ne_none _)

/-- A parcel that is not delivered had a lease, or was refused one. -/
theorem ParcelRecord.lease_or_refused {error : RouterError} (h : ParcelRecord before after e phase (.failed error)) :
    phase.lease? ≠ none ∨ error = .endpointNotReady e := by
  cases h with
  | leases lease _ => cases lease
  | calls _ lease' _ => cases lease'
  | refused _ => exact .inr rfl
  | failed lease _ => exact .inl (by rw [lease]; exact Option.some_ne_none _)

/-- A step of a parcel changes the metrics of exports only. -/
theorem ParcelRecord.find?_of_ne (h : ParcelRecord before after e phase phase') {k : MetricKey}
    (hlatency : k.name ≠ "loadbalancer_backend_latency") (houtcome : k.name ≠ "loadbalancer_backend_outcome") :
    after.find? k = before.find? k := by
  cases h with
  | leases _ same => rw [same]
  | calls _ _ same => rw [same]
  | refused same => rw [same]
  | delivered _ records => rw [records, before.find?_recordExport_of_ne hlatency houtcome]
  | failed _ records => rw [records, before.find?_recordExport_of_ne hlatency houtcome]

/-- What a step of a parcel adds to the counters of an endpoint: one export that ended well if it is delivered, one that did not if it had
a lease and is lost, and a latency for each. -/
theorem ParcelRecord.counts (h : ParcelRecord before after e phase phase') (x : Endpoint) :
    after.count (MetricBook.outcomeKey x.address true) =
        before.count (MetricBook.outcomeKey x.address true) + (if e = x ∧ phase' = .delivered then 1 else 0) ∧
      after.count (MetricBook.outcomeKey x.address false) =
        before.count (MetricBook.outcomeKey x.address false) +
          (if e = x ∧ phase'.isLost = true ∧ phase.lease?.isSome = true then 1 else 0) ∧
      (after.samples (MetricBook.latencyKey x.address)).length = (before.samples (MetricBook.latencyKey x.address)).length +
        ((if e = x ∧ phase' = .delivered then 1 else 0) +
          if e = x ∧ phase'.isLost = true ∧ phase.lease?.isSome = true then 1 else 0) := by
  have haddress : x.address = e.address ↔ e = x := by
    obtain ⟨address⟩ := x
    obtain ⟨address'⟩ := e
    simp [eq_comm]
  cases h with
  | leases lease same =>
    subst same
    cases phase' <;> simp_all [ParcelPhase.lease?, ParcelPhase.isLost]
  | calls _ lease' same =>
    subst same
    cases phase' <;> simp_all [ParcelPhase.lease?, ParcelPhase.isLost]
  | refused same =>
    subst same
    simp [ParcelPhase.lease?]
  | delivered lease records =>
    subst records
    simp [MetricBook.count_recordExport, MetricBook.length_samples_recordExport, ParcelPhase.isLost, haddress]
  | failed lease records =>
    subst records
    simp [MetricBook.count_recordExport, MetricBook.length_samples_recordExport, ParcelPhase.isLost, haddress, lease]

end Record

/-- A parcel that gives its lease back records its export. -/
theorem record_concludeParcel {b d : Balancer α} (hd : d.metrics = b.metrics) {p p' : Parcel α} {c : Balancer α} {id : ExporterId}
    (hlease : p.phase.lease? = some id) (since : Nat) {result : Except RouterError Unit}
    (h : d.concludeParcel p id since result = (c, p')) : ParcelRecord b.metrics c.metrics p.endpoint p.phase p'.phase := by
  unfold concludeParcel at h
  dsimp only at h
  split at h
  all_goals
    injection h with hc hp
    subst hc
    subst hp
  · exact .delivered hlease (congrArg (fun m : MetricBook => m.recordExport p.endpoint.address _ true) hd)
  · exact .failed hlease (congrArg (fun m : MetricBook => m.recordExport p.endpoint.address _ false) hd)

theorem record_stepParcel {b c : Balancer α} {started : Nat} {deadline : Option Instant} {token : Option String} {p p' : Parcel α}
    (h : b.stepParcel started deadline token p = some (c, p')) : ParcelRecord b.metrics c.metrics p.endpoint p.phase p'.phase := by
  cases ParcelMove.of_step h with
  | unready phase_eq _ => exact phase_eq ▸ .refused rfl
  | lease phase_eq _ => exact phase_eq ▸ .leases rfl rfl
  | cutEarly phase_eq _ ends => exact record_concludeParcel rfl (by rw [phase_eq]; rfl) _ ends
  | refuse phase_eq _ _ ends => exact record_concludeParcel (b.metrics_callExport _ _) (by rw [phase_eq]; rfl) _ ends
  | call phase_eq _ _ => exact phase_eq ▸ .calls rfl rfl (b.metrics_callExport _ _)
  | cutLate phase_eq _ ends => exact record_concludeParcel (b.metrics_abandonExport _) (by rw [phase_eq]; rfl) _ ends
  | finish phase_eq _ _ ends => exact record_concludeParcel (b.metrics_concludeExport _ _) (by rw [phase_eq]; rfl) _ ends

/-- The end of a pass counts it if the set of exporters changed, and measures the pool. -/
theorem metrics_concludePass (b : Balancer α) (t : TaskId) (rest : List (Work α)) (outcome : ReconcileOutcome) :
    (b.concludePass t rest outcome).metrics =
      (if outcome.changed then b.metrics.recordBackendUpdate b.resolver.name else b.metrics).recordBackends b.resolver.name
        b.pool.size := by
  unfold concludePass
  dsimp only
  split <;> rfl

/-- The end of a pass changes the metrics of the pool only. -/
theorem find?_concludePass_of_ne (b : Balancer α) (t : TaskId) (rest : List (Work α)) (outcome : ReconcileOutcome) {k : MetricKey}
    (hgauge : k.name ≠ "loadbalancer_num_backends") (hupdates : k.name ≠ "loadbalancer_num_backend_updates") :
    (b.concludePass t rest outcome).metrics.find? k = b.metrics.find? k := by
  rw [metrics_concludePass, MetricBook.find?_recordBackends, if_neg (MetricBook.ne_of_name hgauge)]
  split
  · exact MetricBook.find?_increment_of_ne _ (MetricBook.ne_of_name hupdates)
  · rfl

/-! ## All actions -/

/-- The outcome of the pass that is over with an action, if any. -/
def passEnd? (b : Balancer α) : Action α → Option ReconcileOutcome
  | .move t _ =>
    match (b.works t).head? with
    | some (.pass p) =>
      match p.phase with
      | .retiring added failed retirements =>
        if retirements.all Retirement.isOver then some (b.passOutcome added failed retirements) else none
      | _ => none
    | _ => none
  | _ => none

/-- What an action records. -/
inductive Recording (b : Balancer α) : Action α → Balancer α → Prop
  | still {a : Action α} {b' : Balancer α} (agrees : b.metrics.Agrees b'.metrics) (noEnd : b.passEnd? a = none)
    (noParcel : ∀ t way started deadline token parcels rest c, a = .move t way →
      b.works t = .deliver started deadline token parcels :: rest → b.move t way = some c → parcels.all Parcel.isOver = true) :
    Recording b a b'
  | pass {t : TaskId} {way : Nat} {p : Pass} {rest : List (Work α)} {outcome : ReconcileOutcome} (works : b.works t = .pass p :: rest)
    (ended : b.passEnd? (.move t way) = some outcome) : Recording b (.move t way) (b.concludePass t rest outcome)
  | parcel {t : TaskId} {way started : Nat} {deadline : Option Instant} {token : Option String} {parcels : List (Parcel α)}
    {rest : List (Work α)} {p p' : Parcel α} {c : Balancer α} (works : b.works t = .deliver started deadline token parcels :: rest)
    (at_way : parcels[way]? = some p) (endpoint : p'.endpoint = p.endpoint) (tasks : c.tasks = b.tasks)
    (record : ParcelRecord b.metrics c.metrics p.endpoint p.phase p'.phase) :
    Recording b (.move t way) (c.withWorks t (.deliver started deadline token (parcels.set way p') :: rest))

theorem move_of_passEnd? {b : Balancer α} {t : TaskId} {way : Nat} {outcome : ReconcileOutcome}
    (h : b.passEnd? (.move t way) = some outcome) : b.move t way ≠ none := by
  rw [passEnd?] at h
  split at h
  · rename_i p hhead
    obtain ⟨rest, hw⟩ := List.head?_eq_some_iff.1 hhead
    split at h
    · rename_i added failed retirements hphase
      split at h
      · rename_i hover
        rw [move, hw]
        dsimp only [step]
        rw [stepPass, hphase]
        dsimp only
        rw [if_pos hover]
        exact Option.some_ne_none _
      · cases h
    · cases h
  · cases h

/-- A step of a pass records something only if the pass is over with it. -/
theorem recording_pass {b b' : Balancer α} {t : TaskId} {rest : List (Work α)} {p : Pass} {way : Nat}
    (hw : b.works t = .pass p :: rest) (h : b.stepPass t rest p way = some b') : Recording b (.move t way) b' := by
  have hend : b.passEnd? (.move t way) = match p.phase with
      | .retiring added failed retirements =>
        if retirements.all Retirement.isOver then some (b.passOutcome added failed retirements) else none
      | _ => none := by
    rw [passEnd?, hw]
    rfl
  have hstill : ∀ {c : Balancer α} {ws : List (Work α)}, c.metrics = b.metrics → b.passEnd? (.move t way) = none →
      Recording b (.move t way) (c.withWorks t ws) := by
    intro c ws hm hnone
    refine .still (.of_eq hm) hnone (fun t' way' started deadline token parcels rest' c' heq hw' _ => ?_)
    injection heq with ht _
    rw [← ht, hw] at hw'
    cases hw'
  cases PassMove.of_step h with
  | enter phase_eq _ _ _ => exact hstill rfl (by rw [hend, phase_eq])
  | attempt phase_eq _ _ step => exact hstill (metrics_stepAttempt step) (by rw [hend, phase_eq])
  | publish phase_eq _ => exact hstill rfl (by rw [hend, phase_eq])
  | retire phase_eq unfinished _ step =>
    refine hstill (metrics_stepRetirement step) ?_
    rw [hend, phase_eq]
    exact if_neg unfinished
  | conclude phase_eq ended =>
    refine .pass hw ?_
    rw [hend, phase_eq]
    exact if_pos ended

/-- A step of a delivery records something only if a parcel gives its lease back. -/
theorem recording_deliver {b b' : Balancer α} (hb : b.Grounded) {t : TaskId} {rest : List (Work α)} {started : Nat}
    {deadline : Option Instant} {token : Option String} {parcels : List (Parcel α)} {way : Nat}
    (hw : b.works t = .deliver started deadline token parcels :: rest)
    (h : b.stepDeliver t rest started deadline token parcels way = some b') : Recording b (.move t way) b' := by
  have hnone : b.passEnd? (.move t way) = none := by
    rw [passEnd?, hw]
    rfl
  cases DeliverMove.of_step h with
  | finish ended =>
    refine .still (.refl _) hnone (fun t' way' _ _ _ _ _ _ heq hw' _ => ?_)
    injection heq with ht _
    rw [← ht, hw] at hw'
    injection hw' with hw' _
    injection hw' with _ _ _ hparcels
    exact hparcels ▸ ended
  | parcel at_way step =>
    have hmade := entry?_of_parcel (hb.duties t _ (duty?_of_works hw rfl)) (List.mem_of_getElem? at_way)
    obtain ⟨hendpoint, _, hframe, _⟩ := stepParcel_spec hmade step
    exact .parcel hw at_way hendpoint hframe.tasks (record_stepParcel step)

theorem recording_move {b : Balancer α} (hb : b.Grounded) (t : TaskId) (way : Nat) :
    Recording b (.move t way) ((b.move t way).getD b) := by
  have hstill : ∀ {w : Work α} {rest : List (Work α)} {c : Balancer α}, b.works t = w :: rest → (∀ p, w ≠ .pass p) →
      (∀ started deadline token parcels, w ≠ .deliver started deadline token parcels) → b.metrics.Agrees c.metrics →
      Recording b (.move t way) c := by
    intro w rest c hw hpass hdeliver hagrees
    refine .still hagrees ?_ (fun t' way' _ _ _ _ _ _ heq hw' _ => ?_)
    · rw [passEnd?, hw, List.head?_cons]
      cases w with
      | pass p => exact absurd rfl (hpass p)
      | _ => rfl
    · injection heq with ht _
      rw [← ht, hw] at hw'
      injection hw' with hw' _
      exact absurd hw' (hdeliver _ _ _ _)
  rcases hmove : b.move t way with _ | b'
  · refine .still (.refl _) ?_ (fun t' way' _ _ _ _ _ c heq _ hc => ?_)
    · rcases hend : b.passEnd? (.move t way) with _ | outcome
      · rfl
      · exact absurd hmove (move_of_passEnd? hend)
    · injection heq with ht hway
      rw [← ht, ← hway, hmove] at hc
      cases hc
  rw [Option.getD_some]
  rw [move] at hmove
  rcases hw : b.works t with _ | ⟨w, rest⟩
  · rw [hw] at hmove
    cases hmove
  rw [hw] at hmove
  cases w with
  | pass p => exact recording_pass hw hmove
  | deliver started deadline token parcels => exact recording_deliver hb hw hmove
  | exportLeased lease batch wake =>
    exact hstill hw (fun _ h => by cases h) (fun _ _ _ _ h => by cases h) (.of_eq (metrics_stepExportLeased hmove))
  | _ => exact hstill hw (fun _ h => by cases h) (fun _ _ _ _ h => by cases h) (agrees_step rfl hmove)

theorem recording_perform {b : Balancer α} (hb : b.Grounded) (a : Action α) : Recording b a (b.perform a) := by
  have hstill : ∀ {a : Action α} {c : Balancer α}, (∀ t way, a ≠ .move t way) → b.metrics.Agrees c.metrics → Recording b a c := by
    intro a c hmove hagrees
    refine .still hagrees ?_ (fun t way _ _ _ _ _ _ heq _ _ => absurd heq (hmove t way))
    cases a with
    | move t way => exact absurd rfl (hmove t way)
    | _ => rfl
  cases a with
  | move t way => exact recording_move hb t way
  | request r =>
    refine hstill (fun _ _ h => by cases h) ?_
    rw [perform]
    split
    · exact b.agrees_request r
    · exact .refl _
  | abandon t => exact hstill (fun _ _ h => by cases h) (.of_eq (b.metrics_abandon t))
  | lease e name =>
    refine hstill (fun _ _ h => by cases h) (.of_eq ?_)
    rw [perform]
    rcases h : b.leaseAs e name with _ | b'
    · rfl
    · unfold leaseAs at h
      split at h
      · cases h
      · injection h with h
        rw [← h]
        exact metrics_dropName _ name
  | dropLease name => exact hstill (fun _ _ h => by cases h) (.of_eq (b.metrics_dropName name))
  | receive box => cases box <;> exact hstill (fun _ _ h => by cases h) (.refl _)
  | _ => exact hstill (fun _ _ h => by cases h) (.refl _)

/-! ## What a resolver keeps -/

/-- Asking a source takes answers from its script at most. -/
theorem unscripted_ask {resolver asked : Resolver} {answer : SourceAnswer} (h : resolver.ask = (answer, asked)) :
    asked.kind.unscripted = resolver.kind.unscripted := by
  have hasked : asked = resolver.ask.2 := by rw [h]
  rw [hasked, Resolver.ask]
  split
  · rename_i source interval timeout hkind
    rw [hkind]
    rfl
  · rfl

theorem kind_dropWork (t : TaskId) (b : Balancer α) (w : Work α) : (dropWork t b w).resolver.kind = b.resolver.kind := by
  by_cases hw : w.isAwaited = true
  · cases w with
    | resolution phase => cases phase <;> rfl
    | send box endpoints => rfl
    | _ => cases hw
  · exact congrArg (fun f : Feed => f.resolver.kind) (feed_dropWork t b (Bool.eq_false_iff.2 hw))

/-- No action changes the kind of the resolver, apart from the script of its source. -/
theorem Turn.unscripted {b b' : Balancer α} {a : Action α} (h : Turn b a b') :
    b'.resolver.kind.unscripted = b.resolver.kind.unscripted := by
  have hfeed : b'.feed = b.feed → b'.resolver.kind.unscripted = b.resolver.kind.unscripted :=
    congrArg (fun f : Feed => f.resolver.kind.unscripted)
  cases h with
  | inert _ _ _ step _ =>
    cases step with
    | resolution step =>
      cases step with
      | ask _ _ asked_eq _ => exact (unscripted_ask asked_eq).trans rfl
      | _ => rfl
    | poll step => cases step <;> rfl
    | consume step => cases step <;> rfl
    | _ => rfl
  | pass _ _ step => exact hfeed step.feed
  | exports _ _ _ _ exporting => exact hfeed exporting.feed
  | @request r _ =>
    by_cases hr : r = .resolve
    · subst hr
      show ((b.spawn []).beginResolution b.nextTask []).resolver.kind.unscripted = _
      unfold beginResolution
      split <;> rfl
    · exact hfeed (feed_request b hr)
  | @abandon t =>
    have hkind : (b.abandon t).resolver.kind = b.resolver.kind :=
      foldl_dropWork_congr (·.resolver.kind) (fun w _ c => kind_dropWork t c w) b
    exact congrArg ResolverKind.unscripted hkind
  | @answer answers =>
    show (b.resolver.extendScript answers).kind.unscripted = _
    unfold Resolver.extendScript
    split
    · rename_i source interval timeout hkind
      rw [hkind]
      rfl
    · rfl
  | @receive box => cases box <;> rfl
  | still _ _ feed _ => exact hfeed feed
  | _ => rfl

end Balancer

namespace Run

variable (r : Run α)

theorem recording (n : Nat) : Balancer.Recording (r.state n) (r.action n) (r.state (n + 1)) :=
  Balancer.recording_perform (r.grounded n) (r.action n)

/-- The resolver of a run keeps its kind, apart from the script of its source. -/
theorem unscripted_eq (n : Nat) : (r.state n).resolver.kind.unscripted = r.resolver.kind.unscripted := by
  induction n with
  | zero => rfl
  | succ n ih => exact (r.turn n).unscripted.trans ih

theorem name_eq (n : Nat) : (r.state n).resolver.name = r.resolver.name := Resolver.name_congr (r.unscripted_eq n)

end Run

end TelemetryRouter
