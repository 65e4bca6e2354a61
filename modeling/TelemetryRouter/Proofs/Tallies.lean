import TelemetryRouter.Proofs.Parcels

/-!
# What the recorder says about exports

A parcel records its export when it gives its lease back, and at no other time. So in every state of a run the counters and the latencies
of an endpoint are those of the parcels that are over: delivered to it, or lost after there was a lease (`Run.counts_eq`). Once every
dispatch that has handed out parcels has its result, they are those of the results (`Run.metered`).
-/

namespace TelemetryRouter

variable {α : Type}

namespace Run

variable (r : Run α)

/-- The result that a dispatch has, if it has ended. -/
def result? (n : Nat) (t : TaskId) : Option (DispatchResult α) :=
  match (r.state n).outcome? t with
  | some (.dispatched result) => some result
  | _ => none

/-- The results that the dispatches have, in the order of the requests. -/
def results (n : Nat) : List (DispatchResult α) := (r.dispatches n).filterMap (r.result? n)

/-- The parcels of the dispatch of a task, each with whether an exporter was leased for it. -/
def handled (n : Nat) (t : TaskId) : List (Parcel α × Bool) := (r.parcels t n).mapIdx (fun i p => (p, r.hasLeased t i n))

/-- What the dispatch of a task hands back, each part with whether an exporter was leased for it. -/
def returned (n : Nat) (t : TaskId) : List (FailedDelivery α × Bool) :=
  (r.handled n t).filterMap (fun x => x.1.failure?.map (fun f => (f, x.2)))

/-- Whether every dispatch that has handed out parcels has its result. -/
def Answered (n : Nat) : Prop := ∀ t ∈ r.dispatches n, (r.parcels t n).isEmpty = false → (r.result? n t).isSome = true

instance (n : Nat) : Decidable (r.Answered n) := inferInstanceAs (Decidable (∀ t ∈ _, _))

/-- What the recorder says of the exports to an endpoint, once every dispatch that was begun has its result. -/
structure Meters (n : Nat) (e : Endpoint) : Prop where
  /-- The successful exports are the deliveries of the results. -/
  delivered : (r.state n).metrics.count (MetricBook.outcomeKey e.address true) =
    ((r.results n).flatMap DispatchResult.deliveries).countP (fun d => d.endpoint = e)
  /-- The other exports are what the results hand back after a lease. -/
  failed : (r.state n).metrics.count (MetricBook.outcomeKey e.address false) =
    ((r.dispatches n).flatMap (r.returned n)).countP (fun x => x.1.endpoint = e ∧ x.2 = true)
  /-- What is handed back with or without a lease is what the results hand back. -/
  returned : ((r.dispatches n).flatMap (r.returned n)).map Prod.fst = (r.results n).flatMap DispatchResult.failures
  refused : ∀ x ∈ (r.dispatches n).flatMap (r.returned n), x.2 = false → x.1.error = .endpointNotReady x.1.endpoint
  /-- Every export has left one latency. -/
  latencies : ((r.state n).metrics.samples (MetricBook.latencyKey e.address)).length =
    (r.state n).metrics.count (MetricBook.outcomeKey e.address true) +
      (r.state n).metrics.count (MetricBook.outcomeKey e.address false)

variable {r}

/-! ## Tallies -/

/-- A parcel that was delivered to an endpoint. -/
def isDelivered (e : Endpoint) (x : Parcel α × Bool) : Bool := x.1.endpoint = e ∧ x.1.phase = .delivered

/-- A parcel for an endpoint that was not delivered although there was a lease for it. -/
def isLost (e : Endpoint) (x : Parcel α × Bool) : Bool := x.1.endpoint = e ∧ x.1.phase.isLost = true ∧ x.2 = true

/-- Whether a question about parcels is only about those that are over. -/
def IsAboutEnds (q : Parcel α × Bool → Bool) : Prop := ∀ x, q x = true → x.1.isOver = true

theorem isAboutEnds_isDelivered (e : Endpoint) : IsAboutEnds (α := α) (isDelivered e) := by
  rintro ⟨⟨_, _, phase⟩, leased⟩ h
  cases phase <;> simp_all [isDelivered, Parcel.isOver]

theorem isAboutEnds_isLost (e : Endpoint) : IsAboutEnds (α := α) (isLost e) := by
  rintro ⟨⟨_, _, phase⟩, leased⟩ h
  cases phase <;> simp_all [isLost, Parcel.isOver, ParcelPhase.isLost]

variable (r)

/-- How many parcels of a task are such that a question is answered with yes. -/
def tally (q : Parcel α × Bool → Bool) (n : Nat) (t : TaskId) : Nat := (r.handled n t).countP q

/-- How many parcels of all dispatches are such that a question is answered with yes. -/
def total (q : Parcel α × Bool → Bool) (n : Nat) : Nat := ((r.dispatches n).map (r.tally q n)).sum

variable {r}

theorem tally_of_nil {q : Parcel α × Bool → Bool} {n : Nat} {t : TaskId} (h : r.parcels t n = []) : r.tally q n t = 0 := by
  rw [tally, handled, h]
  rfl

/-- Two ways of looking at parcels that give the same answers count the same. -/
theorem countP_mapIdx_congr {ps : List (Parcel α)} {q : Parcel α × Bool → Bool} {f g : Nat → Bool}
    (h : ∀ i p, ps[i]? = some p → q (p, f i) = q (p, g i)) :
    (ps.mapIdx (fun i p => (p, f i))).countP q = (ps.mapIdx (fun i p => (p, g i))).countP q := by
  rw [List.mapIdx_eq_zipIdx_map, List.mapIdx_eq_zipIdx_map, List.countP_map, List.countP_map]
  refine List.countP_congr (fun x hx => ?_)
  have hq := h x.2 x.1 (List.mem_zipIdx_iff_getElem?.1 hx)
  simp only [Function.comp, hq]

/-- A dispatch that was just requested adds nothing to the total. -/
theorem total_succ_eq (q : Parcel α × Bool → Bool) (n : Nat) : r.total q (n + 1) = ((r.dispatches n).map (r.tally q (n + 1))).sum := by
  rw [total, dispatches, gather_succ, List.map_append, List.sum_append, ← dispatches]
  rcases hnew : r.dispatched? n with _ | x
  · rfl
  · rw [Option.toList_some, List.map_singleton, List.sum_singleton, tally_of_nil (parcels_of_dispatched? hnew), Nat.add_zero]

/-- A sum in which one addend has grown has grown by as much. -/
theorem sum_map_of_change {l : List TaskId} (hl : l.Nodup) {x : TaskId} (hx : x ∈ l) {f g : TaskId → Nat} {d : Nat}
    (hself : g x = f x + d) (hother : ∀ t ∈ l, t ≠ x → g t = f t) : (l.map g).sum = (l.map f).sum + d := by
  induction l with
  | nil => cases hx
  | cons t l ih =>
    obtain ⟨hnot, hl⟩ := List.nodup_cons.1 hl
    rw [List.map_cons, List.map_cons, List.sum_cons, List.sum_cons]
    rcases List.mem_cons.1 hx with rfl | hx
    · have hrest : l.map g = l.map f := List.map_congr_left (fun t ht =>
        hother t (List.mem_cons_of_mem _ ht) (fun heq => hnot (heq ▸ ht)))
      rw [hrest, hself]
      omega
    · have hne : t ≠ x := fun heq => hnot (heq ▸ hx)
      rw [ih hl hx (fun t ht => hother t (List.mem_cons_of_mem _ ht)), hother t List.mem_cons_self hne]
      omega

section Tally

variable {q : Parcel α × Bool → Bool} (hq : IsAboutEnds q) {t : TaskId} {n : Nat}

include hq

theorem IsAboutEnds.eq_false {x : Parcel α × Bool} (h : x.1.isOver = false) : q x = false :=
  Bool.eq_false_iff.2 (fun hx => by rw [hq x hx] at h; cases h)

/-- A step in which no parcel of a task makes a step does not change the tally of the task. -/
theorem tally_succ_of_not_steps (h : ∀ way p p', ¬ r.Steps t n way p p') : r.tally q (n + 1) t = r.tally q n t := by
  cases r.progress t n with
  | same parcels =>
    rw [tally, tally, handled, handled, parcels]
    refine countP_mapIdx_congr (fun i p hp => ?_)
    rcases hover : p.isOver with _ | _
    · rw [hq.eq_false (x := (p, _)) hover, hq.eq_false (x := (p, _)) hover]
    · rw [hasLeased_succ]
      intro p' hp'
      rw [parcels, hp] at hp'
      injection hp' with hp'
      exact hp' ▸ lease?_of_isOver hover
  | cut before pending =>
    rw [tally_of_nil before, tally, List.countP_eq_zero]
    intro x hx
    obtain ⟨i, hi, rfl⟩ := List.mem_mapIdx.1 hx
    rw [hq.eq_false]
    · exact Bool.false_ne_true
    · rw [Parcel.isOver, pending _ (List.getElem_mem hi)]
  | step steps => exact absurd steps (h _ _ _)

/-- The step of a parcel changes the tally of its task by that parcel. -/
theorem Steps.tally_succ {way : Nat} {p p' : Parcel α} (h : r.Steps t n way p p') :
    r.tally q (n + 1) t = r.tally q n t + if q (p', r.hasLeased t way (n + 1)) then 1 else 0 := by
  have hway : way < (r.parcels t n).length := (List.getElem?_eq_some_iff.1 h.at_way).1
  have hbefore : q (p, r.hasLeased t way (n + 1)) = false := hq.eq_false h.not_isOver
  have hflags : ((r.parcels t n).mapIdx (fun i p => (p, r.hasLeased t i (n + 1)))).countP q = r.tally q n t := by
    refine countP_mapIdx_congr (fun i x hx => ?_)
    rcases hover : x.isOver with _ | _
    · rw [hq.eq_false (x := (x, _)) hover, hq.eq_false (x := (x, _)) hover]
    · have hne : way ≠ i := by
        rintro rfl
        rw [h.at_way] at hx
        injection hx with hx
        rw [← hx, h.not_isOver] at hover
        cases hover
      rw [hasLeased_succ]
      intro x' hx'
      rw [h.parcels, List.getElem?_set_ne hne, hx] at hx'
      injection hx' with hx'
      exact hx' ▸ lease?_of_isOver hover
  rw [tally, handled, h.parcels, List.mapIdx_set, List.countP_set (by rwa [List.length_mapIdx]), hflags, List.getElem_mapIdx]
  have hp : (r.parcels t n)[way] = p := (List.getElem?_eq_some_iff.1 h.at_way).2
  rw [hp, hbefore]
  rfl

theorem total_succ_of_not_steps (h : ∀ t way p p', ¬ r.Steps t n way p p') : r.total q (n + 1) = r.total q n := by
  rw [total_succ_eq, total]
  exact congrArg List.sum (List.map_congr_left (fun t _ => tally_succ_of_not_steps hq (h t)))

/-- The step of a parcel changes the total of all dispatches by that parcel. -/
theorem Steps.total_succ {way : Nat} {p p' : Parcel α} (h : r.Steps t n way p p') :
    r.total q (n + 1) = r.total q n + if q (p', r.hasLeased t way (n + 1)) then 1 else 0 := by
  have hmem : t ∈ r.dispatches n := by
    by_contra hnot
    have hat := h.at_way
    rw [parcels_of_not_mem hnot] at hat
    cases hat
  have hother : ∀ x ∈ r.dispatches n, x ≠ t → r.tally q (n + 1) x = r.tally q n x := by
    intro x _ hne
    refine tally_succ_of_not_steps hq (fun way' _ _ h' => hne ?_)
    have hmove := h.move.symm.trans h'.move
    injection hmove with ht _
    exact ht.symm
  rw [total_succ_eq, total]
  exact sum_map_of_change (nodup_dispatches n) hmem (h.tally_succ hq) hother

end Tally

/-- A parcel that is lost in a step had a lease exactly if it gives one back. -/
theorem Steps.hasLeased_eq {t : TaskId} {n way : Nat} {p p' : Parcel α} (h : r.Steps t n way p p') (hlost : p'.phase.isLost = true) :
    r.hasLeased t way (n + 1) = p.phase.lease?.isSome := by
  rcases hlease : p.phase.lease? with _ | id
  · have hpending := h.record.pending_or_lease.resolve_right (fun hne => hne hlease)
    rw [hasLeased_succ, hasLeased_of_pending]
    · rfl
    · intro x hx
      rw [h.at_way] at hx
      injection hx with hx
      exact hx ▸ hpending
    · intro x hx
      rw [h.getElem?_succ] at hx
      injection hx with hx
      rw [← hx]
      cases hphase : p'.phase <;> simp_all [ParcelPhase.isLost, ParcelPhase.lease?]
  · exact h.hasLeased (by rw [hlease]; exact Option.some_ne_none id) (Nat.le_succ n)

/-- A step in which no parcel makes a step leaves what the recorder says about exports. -/
theorem find?_of_not_steps {n : Nat} (h : ∀ t way p p', ¬ r.Steps t n way p p') {k : MetricKey}
    (hk : k.name = "loadbalancer_backend_outcome" ∨ k.name = "loadbalancer_backend_latency") :
    (r.state (n + 1)).metrics.find? k = (r.state n).metrics.find? k := by
  have hrecording := r.recording n
  generalize hmove : r.action n = a at hrecording
  generalize hnext : r.state (n + 1) = next at hrecording
  cases hrecording with
  | still agrees _ _ => exact agrees k (by rcases hk with hk | hk <;> simp [hk])
  | pass _ _ =>
    exact Balancer.find?_concludePass_of_ne _ _ _ _ (by rcases hk with hk | hk <;> simp [hk]) (by rcases hk with hk | hk <;> simp [hk])
  | parcel works at_way endpoint tasks record =>
    exact absurd (steps_of_recording hmove works hnext tasks at_way endpoint record) (h _ _ _ _)

/-- In every state of a run, the recorder says of an endpoint how many parcels were delivered to it and how many were lost. -/
theorem counts_eq (n : Nat) (e : Endpoint) :
    (r.state n).metrics.count (MetricBook.outcomeKey e.address true) = r.total (isDelivered e) n ∧
      (r.state n).metrics.count (MetricBook.outcomeKey e.address false) = r.total (isLost e) n ∧
      ((r.state n).metrics.samples (MetricBook.latencyKey e.address)).length = r.total (isDelivered e) n + r.total (isLost e) n := by
  have hdelivered := isAboutEnds_isDelivered (α := α) e
  have hlost := isAboutEnds_isLost (α := α) e
  induction n with
  | zero => exact ⟨rfl, rfl, rfl⟩
  | succ n ih =>
    obtain ⟨ihdelivered, ihlost, ihlatencies⟩ := ih
    by_cases hsteps : ∃ t way p p', r.Steps t n way p p'
    · obtain ⟨t, way, p, p', h⟩ := hsteps
      obtain ⟨hcount, hcount', hsamples⟩ := h.record.counts e
      have hflag : isLost e (p', r.hasLeased t way (n + 1)) = true ↔
          p.endpoint = e ∧ p'.phase.isLost = true ∧ p.phase.lease?.isSome = true := by
        simp only [isLost, h.endpoint, decide_eq_true_eq]
        constructor
        · rintro ⟨heq, hphase, hleased⟩
          exact ⟨heq, hphase, h.hasLeased_eq hphase ▸ hleased⟩
        · rintro ⟨heq, hphase, hleased⟩
          exact ⟨heq, hphase, (h.hasLeased_eq hphase).trans hleased⟩
      have hreached : isDelivered e (p', r.hasLeased t way (n + 1)) = true ↔ p.endpoint = e ∧ p'.phase = .delivered := by
        simp only [isDelivered, h.endpoint, decide_eq_true_eq]
      simp only [h.total_succ hdelivered, h.total_succ hlost, hcount, hcount', hsamples, ihdelivered, ihlost, ihlatencies, hflag,
        hreached, true_and]
      omega
    · have hnot : ∀ t way p p', ¬ r.Steps t n way p p' := fun t way p p' h => hsteps ⟨t, way, p, p', h⟩
      rw [total_succ_of_not_steps hdelivered hnot, total_succ_of_not_steps hlost hnot, MetricBook.count, MetricBook.count,
        MetricBook.samples, find?_of_not_steps hnot (.inl rfl), find?_of_not_steps hnot (.inl rfl), find?_of_not_steps hnot (.inr rfl)]
      exact ⟨ihdelivered, ihlost, ihlatencies⟩

/-! ## Results -/

theorem map_fst_handled (n : Nat) (t : TaskId) : (r.handled n t).map Prod.fst = r.parcels t n := by
  refine List.ext_getElem? (fun i => ?_)
  rw [handled, List.getElem?_map, List.getElem?_mapIdx, Option.map_map]
  exact congrFun Option.map_id _

/-- Once every dispatch that has begun has its result, a dispatch without a result has no parcels, and the others have the result of
theirs. -/
theorem Answered.result?_of_mem {n : Nat} (h : r.Answered n) {t : TaskId} (ht : t ∈ r.dispatches n) :
    (r.parcels t n = [] ∧ r.result? n t = none) ∨
      ∃ result, r.result? n t = some result ∧ result.deliveries = (r.parcels t n).filterMap Parcel.delivery? ∧
        result.failures = (r.parcels t n).filterMap Parcel.failure? := by
  obtain ⟨task, htask, hhandling⟩ := handling_of_mem ht
  have hnil : r.result? n t = none → r.parcels t n = [] ∧ r.result? n t = none := by
    intro hnone
    refine ⟨?_, hnone⟩
    rcases hempty : (r.parcels t n).isEmpty with _ | _
    · have hsome := h t ht hempty
      rw [hnone] at hsome
      cases hsome
    · exact List.isEmpty_iff.1 hempty
  have hresult : r.result? n t = match (if task.isOver then some task.outcome else none) with
      | some (.dispatched result) => some result
      | _ => none := by
    rw [result?, Balancer.outcome?, htask]
  cases hhandling with
  | waiting _ => exact .inl (hnil hresult)
  | delivering => exact .inl (hnil hresult)
  | ended deliveries failures => exact .inr ⟨_, hresult, deliveries, failures⟩
  | abandoned => exact .inl (hnil hresult)

/-- What results say one after the other is what the parcels of their dispatches say. -/
theorem flatMap_results {β : Type} {n : Nat} {said : DispatchResult α → List β} {tells : Parcel α → Option β}
    (h : ∀ t ∈ r.dispatches n, (r.parcels t n = [] ∧ r.result? n t = none) ∨
      ∃ result, r.result? n t = some result ∧ said result = (r.parcels t n).filterMap tells) :
    (r.results n).flatMap said = (r.dispatches n).flatMap (fun t => (r.parcels t n).filterMap tells) := by
  unfold results
  generalize r.dispatches n = ts at h
  induction ts with
  | nil => rfl
  | cons t ts ih =>
    have ih := ih (fun t ht => h t (List.mem_cons_of_mem _ ht))
    rw [List.flatMap_cons]
    rcases h t List.mem_cons_self with ⟨hparcels, hresult⟩ | ⟨result, hresult, hsaid⟩
    · rw [List.filterMap_cons_none hresult, hparcels, List.filterMap_nil, List.nil_append, ih]
    · rw [List.filterMap_cons_some hresult, List.flatMap_cons, hsaid, ih]

theorem Answered.deliveries_eq {n : Nat} (h : r.Answered n) : (r.results n).flatMap DispatchResult.deliveries =
    (r.dispatches n).flatMap (fun t => (r.parcels t n).filterMap Parcel.delivery?) :=
  flatMap_results (fun _ ht => (h.result?_of_mem ht).imp_right (fun ⟨result, hresult, hsaid, _⟩ => ⟨result, hresult, hsaid⟩))

theorem Answered.failures_eq {n : Nat} (h : r.Answered n) : (r.results n).flatMap DispatchResult.failures =
    (r.dispatches n).flatMap (fun t => (r.parcels t n).filterMap Parcel.failure?) :=
  flatMap_results (fun _ ht => (h.result?_of_mem ht).imp_right (fun ⟨result, hresult, _, hsaid⟩ => ⟨result, hresult, hsaid⟩))

/-- The results name an endpoint in as many deliveries as parcels were delivered to it. -/
theorem Answered.countP_deliveries {n : Nat} (h : r.Answered n) (e : Endpoint) :
    ((r.results n).flatMap DispatchResult.deliveries).countP (fun d => d.endpoint = e) = r.total (isDelivered e) n := by
  rw [h.deliveries_eq, List.countP_flatMap, total]
  refine congrArg List.sum (List.map_congr_left (fun t _ => ?_))
  rw [Function.comp, List.countP_filterMap, tally, ← map_fst_handled, List.countP_map]
  refine List.countP_congr (fun x _ => ?_)
  obtain ⟨⟨e', batch, phase⟩, leased⟩ := x
  cases phase <;> simp [isDelivered, Parcel.delivery?]

/-- The parts for an endpoint that are handed back after a lease are its lost parcels. -/
theorem countP_returned (n : Nat) (e : Endpoint) :
    ((r.dispatches n).flatMap (r.returned n)).countP (fun x => x.1.endpoint = e ∧ x.2 = true) = r.total (isLost e) n := by
  rw [List.countP_flatMap, total]
  refine congrArg List.sum (List.map_congr_left (fun t _ => ?_))
  rw [Function.comp, returned, List.countP_filterMap, tally]
  refine List.countP_congr (fun x _ => ?_)
  obtain ⟨⟨e', batch, phase⟩, leased⟩ := x
  cases phase <;> simp [isLost, Parcel.failure?, ParcelPhase.isLost]

/-- What the dispatches hand back with or without a lease is what the results hand back. -/
theorem Answered.map_fst_returned {n : Nat} (h : r.Answered n) :
    ((r.dispatches n).flatMap (r.returned n)).map Prod.fst = (r.results n).flatMap DispatchResult.failures := by
  rw [h.failures_eq, List.map_flatMap]
  refine congrArg (List.flatMap · (r.dispatches n)) (funext (fun t => ?_))
  rw [returned, List.map_filterMap, ← map_fst_handled, List.filterMap_map]
  refine congrArg (List.filterMap · (r.handled n t)) (funext (fun x => ?_))
  rw [Option.map_map]
  exact congrFun Option.map_id _

/-- What a dispatch hands back without a lease was refused one. -/
theorem error_of_returned {n : Nat} {t : TaskId} {x : FailedDelivery α × Bool} (hx : x ∈ r.returned n t) (hnone : x.2 = false) :
    x.1.error = .endpointNotReady x.1.endpoint := by
  obtain ⟨⟨p, leased⟩, hp, hfailure⟩ := List.mem_filterMap.1 hx
  obtain ⟨f, hf, rfl⟩ := Option.map_eq_some_iff.1 hfailure
  obtain ⟨i, hi, heq⟩ := List.mem_mapIdx.1 hp
  injection heq with hp hleased
  obtain ⟨e, batch, phase⟩ := p
  cases phase with
  | failed error =>
    injection hf with hf
    subst hf
    exact error_of_not_hasLeased (List.getElem?_eq_some_iff.2 ⟨hi, hp⟩) rfl (hleased.trans hnone)
  | _ => cases hf

/-- Once every dispatch that was begun has its result, the recorder says of every endpoint what the results say of it. -/
theorem metered (r : Run α) {n : Nat} (h : r.Answered n) (e : Endpoint) : r.Meters n e := by
  obtain ⟨hdelivered, hlost, hlatencies⟩ := counts_eq (r := r) n e
  refine ⟨hdelivered.trans (h.countP_deliveries e).symm, hlost.trans (countP_returned n e).symm, h.map_fst_returned,
    fun x hx hnone => ?_, ?_⟩
  · obtain ⟨t, _, hx⟩ := List.mem_flatMap.1 hx
    exact error_of_returned hx hnone
  · rw [hlatencies, hdelivered, hlost]

/-- A run of one endpoint with three dispatches: one is delivered, one is cancelled while it has its lease, and one comes when the exporter
is gone. -/
def assorted : Run Unit where
  options := ⟨⟨1, .ofSeconds 30, .ofSeconds 30⟩, none, none⟩
  adapter := ⟨.logs, fun _ _ => none⟩
  resolver := .new .fixed []
  backends := ⟨[]⟩
  action := fun n =>
    if n = 0 then .request (.update [⟨"a"⟩])
    else if n < 8 then .move 0 0
    else if n = 8 then .request (.dispatch oneItem ⟨none, none⟩)
    else if n < 14 then .move 1 0
    else if n = 14 then .request (.dispatch oneItem ⟨none, some "token"⟩)
    else if n < 17 then .move 2 0
    else if n = 17 then .cancel "token"
    else if n < 20 then .move 2 0
    else if n = 20 then .request .retireAll
    else if n < 27 then .move 3 0
    else if n = 27 then .request (.dispatch oneItem ⟨none, none⟩)
    else .move 4 0

/-- What the recorder says in that run. -/
theorem metered_assorted : assorted.Answered 31 ∧ (assorted.results 31).length = 3 ∧
    (assorted.state 31).metrics.count (MetricBook.outcomeKey "a" true) = 1 ∧
    (assorted.state 31).metrics.count (MetricBook.outcomeKey "a" false) = 1 ∧
    ((assorted.results 31).flatMap DispatchResult.failures).map FailedDelivery.error = [.cancelled, .endpointNotReady ⟨"a"⟩] ∧
    assorted.Meters 31 ⟨"a"⟩ := by
  have hall : assorted.Answered 31 ∧ (assorted.results 31).length = 3 ∧
      (assorted.state 31).metrics.count (MetricBook.outcomeKey "a" true) = 1 ∧
      (assorted.state 31).metrics.count (MetricBook.outcomeKey "a" false) = 1 ∧
      ((assorted.results 31).flatMap DispatchResult.failures).map FailedDelivery.error =
        [.cancelled, .endpointNotReady ⟨"a"⟩] := by
    decide +kernel
  obtain ⟨hanswered, hresults, hdelivered, hlost, herrors⟩ := hall
  exact ⟨hanswered, hresults, hdelivered, hlost, herrors, assorted.metered hanswered ⟨"a"⟩⟩

end Run

end TelemetryRouter
