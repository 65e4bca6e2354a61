import TelemetryRouter.Proofs.Drains
import TelemetryRouter.Proofs.PassOrigins
import TelemetryRouter.Proofs.Rings

/-!
# The pool covers the ring

A pass starts what it wants before it publishes and retires what it does not want after that, and it wants the members of the ring
that it publishes. So a published endpoint has a running exporter, except when the last start of one failed, and what is being
retired is not published. While a pass is under way, its starts tell which endpoints of the coming ring have no exporter yet, and
its retirements tell which exporters of the pool are of no endpoint of the ring.
-/

namespace TelemetryRouter

variable {α : Type}

namespace Balancer

/-! ## Endpoints and their exporters -/

/-- Whether the pool lists a running exporter for an endpoint. -/
def Runs (b : Balancer α) (e : Endpoint) : Prop :=
  ∃ id entry, (e, id) ∈ b.pool.current ∧ b.pool.entry? id = some entry ∧ entry.state = .running

/-- Whether the pool lists no exporter for an endpoint. -/
def Lacks (b : Balancer α) (e : Endpoint) : Prop := ∀ c ∈ b.pool.current, c.1 ≠ e

/-- Whether the start of an exporter for an endpoint by the pass under way is in a phase. -/
def Attempting (b : Balancer α) (e : Endpoint) (phase : AttemptPhase) : Prop :=
  ∃ t p wanted attempts, b.duty? t = some (.pass p) ∧ p.phase = .adding wanted attempts ∧ Attempt.mk e phase ∈ attempts

/-- Whether the pool lists an exporter for an endpoint that the pass under way is starting. -/
def Begins (b : Balancer α) (e : Endpoint) : Prop :=
  ∃ id wake, (e, id) ∈ b.pool.current ∧ b.Attempting e (.starting id wake)

section Exporters

variable {b b' : Balancer α} {e : Endpoint}

theorem Runs.not_lacks (h : b.Runs e) : ¬ b.Lacks e := by
  obtain ⟨id, entry, hmem, _, _⟩ := h
  exact fun hlacks => hlacks (e, id) hmem rfl

theorem Runs.ageless (h : b.Runs e) (hb : Ageless b b') : b'.Runs e := by
  obtain ⟨id, entry, hmem, he, hstate⟩ := h
  obtain ⟨entry', he', hlife⟩ := hb.entries id entry he
  exact ⟨id, entry', hb.current ▸ hmem, he', hlife.state ▸ hstate⟩

theorem Lacks.ageless (h : b.Lacks e) (hb : Ageless b b') : b'.Lacks e := fun c hc => h c (hb.current ▸ hc)

/-- The phase of a start tells whether the pass that was let in is making it. -/
theorem Orderly.attempting_iff (hb : b.Orderly) {t : TaskId} {p : Pass} (hd : b.duty? t = some (.pass p))
    (hp : p.phase ≠ .queued) {phase : AttemptPhase} :
    b.Attempting e phase ↔ ∃ wanted attempts, p.phase = .adding wanted attempts ∧ Attempt.mk e phase ∈ attempts := by
  constructor
  · rintro ⟨t', p', wanted, attempts, hd', hphase, hmem⟩
    have hturn := hb.turn t p hd hp
    have hturn' := hb.turn t' p' hd' (by rw [hphase]; exact fun h => nomatch h)
    rw [hturn] at hturn'
    injection hturn' with ht
    subst ht
    obtain rfl := pass_eq_of_duty? hd hd'
    exact ⟨wanted, attempts, hphase, hmem⟩
  · rintro ⟨wanted, attempts, hphase, hmem⟩
    exact ⟨t, p, wanted, attempts, hd, hphase, hmem⟩

/-- When nobody is inside the gate, nothing is being started. -/
theorem Orderly.not_attempting (hb : b.Orderly) (hfree : b.pool.gate.inside = none) (phase : AttemptPhase) :
    ¬ b.Attempting e phase := by
  rintro ⟨t, p, wanted, attempts, hd, hphase, _⟩
  have hturn := hb.turn t p hd (by rw [hphase]; exact fun h => nomatch h)
  rw [hfree] at hturn
  cases hturn

theorem Aside.attempting_iff (h : Aside b b') (phase : AttemptPhase) : b'.Attempting e phase ↔ b.Attempting e phase := by
  constructor
  · rintro ⟨t, p, wanted, attempts, hd, hphase, hmem⟩
    exact ⟨t, p, wanted, attempts, (h.passes t p (by rw [hphase]; exact fun h => nomatch h)).1 hd, hphase, hmem⟩
  · rintro ⟨t, p, wanted, attempts, hd, hphase, hmem⟩
    exact ⟨t, p, wanted, attempts, (h.passes t p (by rw [hphase]; exact fun h => nomatch h)).2 hd, hphase, hmem⟩

end Exporters

/-! ## What a pass has still to do for its ring -/

/-- What the pool lists for an endpoint whose start is in a phase. -/
def Reached (b : Balancer α) (e : Endpoint) : AttemptPhase → Prop
  | .pending => b.Lacks e
  | .creating _ _ _ => b.Lacks e
  | .starting id _ => (e, id) ∈ b.pool.current
  | .started => b.Runs e
  | .failed => b.Lacks e

/-- The starts of a pass are as far as the pool says, and they are for all of its endpoints that have no running exporter. -/
structure Covers (b : Balancer α) (failed : Endpoint → Prop) (wanted : List Endpoint) (attempts : List Attempt) : Prop where
  each : ∀ e ∈ wanted, b.Runs e ∨ e ∈ attempts.map Attempt.endpoint
  reached : ∀ a ∈ attempts, b.Reached a.endpoint a.phase
  failed : ∀ a ∈ attempts, a.phase = .failed → failed a.endpoint

/-- The retirements of a pass are of exporters whose endpoints are not published, and of all of those that the pool lists. -/
structure Clears (b : Balancer α) (retirements : List Retirement) : Prop where
  kept : ∀ c ∈ b.pool.current, c.1 ∈ b.ring.endpoints ∨ ∃ r ∈ retirements, r.id = c.2
  outside : ∀ r ∈ retirements, ∀ e, b.endpointOf? r.id = some e → e ∉ b.ring.endpoints

/-- The ring that is published once a pass has had its turn. -/
def ringAfter (b : Balancer α) (p : Pass) : Ring := p.publish.getD b.ring

/-- Whether a pass that was let in has the starts or the retirements that its ring asks for. -/
def Serves (b : Balancer α) (failed : Endpoint → Prop) (p : Pass) : Prop :=
  match p.phase with
  | .queued => True
  | .adding wanted attempts => wanted = (b.ringAfter p).endpoints ∧ b.Covers failed wanted attempts
  | .retiring _ _ retirements => b.Clears retirements

/-- Every published endpoint has a running exporter, or its last start has failed and it has no exporter but one that is being
started. Unless a pass is under way, the pool lists exporters of published endpoints only. -/
structure Covered (b : Balancer α) (failed : Endpoint → Prop) : Prop where
  served : ∀ e ∈ b.ring.endpoints, b.Runs e ∨ (failed e ∧ (b.Lacks e ∨ b.Begins e))
  within : b.pool.gate.inside = none → ∀ c ∈ b.pool.current, c.1 ∈ b.ring.endpoints
  passes : ∀ t p, b.duty? t = some (.pass p) → b.Serves failed p

/-- What the last starts of endpoints came to after a change, if it is known what they had come to before. -/
structure Counts (b b' : Balancer α) (failed failed' : Endpoint → Prop) : Prop where
  ends : ∀ e, b'.Attempting e .failed → ¬ b.Attempting e .failed → failed' e
  stays : ∀ e, failed e → (b'.Attempting e .started → b.Attempting e .started) → failed' e

section Covered

variable {b b' c : Balancer α} {failed failed' : Endpoint → Prop}

/-- A pass that starts exporters starts those that its ring asks for. -/
theorem Covered.covers (hb : b.Covered failed) {t : TaskId} {p : Pass} {wanted : List Endpoint} {attempts : List Attempt}
    (hd : b.duty? t = some (.pass p)) (hphase : p.phase = .adding wanted attempts) :
    wanted = (b.ringAfter p).endpoints ∧ b.Covers failed wanted attempts := by
  have hserves := hb.passes t p hd
  unfold Serves at hserves
  rw [hphase] at hserves
  exact hserves

/-- A pass that retires exporters retires those that its ring does not ask for. -/
theorem Covered.clears (hb : b.Covered failed) {t : TaskId} {p : Pass} {added refused : List Endpoint} {retirements : List Retirement}
    (hd : b.duty? t = some (.pass p)) (hphase : p.phase = .retiring added refused retirements) : b.Clears retirements := by
  have hserves := hb.passes t p hd
  unfold Serves at hserves
  rw [hphase] at hserves
  exact hserves

theorem Serves.of_queued {p : Pass} (hp : p.phase = .queued) : b.Serves failed p := by
  unfold Serves
  rw [hp]
  trivial

theorem covered_new (options : BalancerOptions) (adapter : Adapter α) (resolver : Resolver) (backends : Backends)
    (failed : Endpoint → Prop) : (new options adapter resolver backends).Covered failed where
  served := fun e he => by
    have hnil : (new options adapter resolver backends : Balancer α).ring.endpoints = [] :=
      (Ring.endpoints_build_eq_nil_iff [] options.settings.virtualNodes).2 rfl
    rw [hnil] at he
    cases he
  within := fun _ c hc => nomatch hc
  passes := fun _ _ hd => nomatch hd

/-! ## Changes beside the passes -/

/-- A start is as far as it was as long as no exporter ages. -/
theorem Reached.ageless {e : Endpoint} {phase : AttemptPhase} (h : b.Reached e phase) (hb : Ageless b b') : b'.Reached e phase := by
  cases phase with
  | pending => exact Lacks.ageless h hb
  | creating _ _ _ => exact Lacks.ageless h hb
  | starting id _ =>
    show (e, id) ∈ b'.pool.current
    rw [hb.current]
    exact h
  | started => exact Runs.ageless h hb
  | failed => exact Lacks.ageless h hb

theorem Covers.ageless {wanted : List Endpoint} {attempts : List Attempt} (h : b.Covers failed wanted attempts)
    (hb : Ageless b b') (hfailed : ∀ e, failed e → failed' e) : b'.Covers failed' wanted attempts where
  each := fun e he => (h.each e he).imp_left (fun hruns => hruns.ageless hb)
  reached := fun a ha => (h.reached a ha).ageless hb
  failed := fun a ha hphase => hfailed _ (h.failed a ha hphase)

/-- Retirements clear the pool as long as no exporter ages and the ring stays. -/
theorem Clears.ageless {retirements : List Retirement} (h : b.Clears retirements) (hb : Ageless b b') (hring : b'.ring = b.ring) :
    b'.Clears retirements where
  kept := fun c hc => by
    rw [hring]
    exact h.kept c (hb.current ▸ hc)
  outside := fun r hr e he => by
    rw [hring]
    obtain ⟨entry', he', rfl⟩ := entry?_of_endpointOf? he
    obtain ⟨entry, hentry, hlife⟩ := hb.entry_before he'
    exact h.outside r hr _ (by rw [hlife.endpoint]; exact endpointOf?_eq_some hentry)

/-- A pass serves its ring as long as no exporter ages and the published ring stays. -/
theorem Serves.ageless {p : Pass} (h : b.Serves failed p) (hb : Ageless b b') (hring : b'.ring = b.ring)
    (hfailed : ∀ e, failed e → failed' e) : b'.Serves failed' p := by
  unfold Serves ringAfter at *
  rw [hring]
  split
  · trivial
  · rename_i wanted attempts hphase
    rw [hphase] at h
    exact ⟨h.1, h.2.ageless hb hfailed⟩
  · rename_i added failed retirements hphase
    rw [hphase] at h
    exact Clears.ageless h hb hring

theorem Counts.of_not_started (h : Counts b b' failed failed') (hnone : ∀ e, ¬ b'.Attempting e .started) (e : Endpoint)
    (he : failed e) : failed' e :=
  h.stays e he (fun hstarted => absurd hstarted (hnone e))

/-- What happens beside the passes leaves the ring covered. -/
theorem Covered.aside (hb : b.Covered failed) (h : Aside b b') (hring : b'.ring = b.ring) (hcounts : Counts b b' failed failed') :
    b'.Covered failed' := by
  have hfailed : ∀ e, failed e → failed' e := fun e he => hcounts.stays e he (h.attempting_iff .started).1
  refine ⟨fun e he => ?_, fun hfree c hc => ?_, fun t p hd => ?_⟩
  · rw [hring] at he
    rcases hb.served e he with hruns | ⟨hlast, hlacks | ⟨id, wake, hmem, hattempting⟩⟩
    · exact .inl (hruns.ageless h.ageless)
    · exact .inr ⟨hfailed e hlast, .inl (hlacks.ageless h.ageless)⟩
    · exact .inr ⟨hfailed e hlast, .inr ⟨id, wake, h.ageless.current ▸ hmem, (h.attempting_iff _).2 hattempting⟩⟩
  · rw [hring]
    exact hb.within (h.inside ▸ hfree) c (h.ageless.current ▸ hc)
  · by_cases hp : p.phase = .queued
    · exact .of_queued hp
    · exact (hb.passes t p ((h.passes t p hp).1 hd)).ageless h.ageless hring hfailed

/-! ## Steps of starts and retirements -/

/-- A step of a start leaves the current exporters of other endpoints. -/
theorem AttemptStep.mem_current_iff {e : Endpoint} {phase phase' : AttemptPhase} (h : AttemptStep b e phase c phase')
    {x : Endpoint × ExporterId} (hx : x.1 ≠ e) : x ∈ c.pool.current ↔ x ∈ b.pool.current := by
  have hfilter : x ∈ b.pool.current.filter (fun y => y.1 ≠ e) ↔ x ∈ b.pool.current := by
    rw [List.mem_filter]
    exact ⟨fun hmem => hmem.1, fun hmem => ⟨hmem, decide_eq_true hx⟩⟩
  cases h with
  | call same => rw [same.current]
  | refuse same => rw [same.current]
  | make _ current _ _ =>
    rw [current, List.mem_append, hfilter, List.mem_singleton]
    exact or_iff_left (fun heq => hx (congrArg Prod.fst heq))
  | run _ current => rw [current]
  | stumble _ current => rw [current, hfilter]

/-- A step of a start leaves all exporters as they are but its own. -/
theorem AttemptStep.entry?_of_ne {e : Endpoint} {phase phase' : AttemptPhase} (h : AttemptStep b e phase c phase') {id : ExporterId}
    {entry : Entry} (hne : phase.exporter? ≠ some id) (he : b.pool.entry? id = some entry) : c.pool.entry? id = some entry := by
  cases h with
  | call same => rw [Pool.entry?, same.made]; exact he
  | refuse same => rw [Pool.entry?, same.made]; exact he
  | make made _ _ _ =>
    rw [Pool.entry?, made, List.getElem?_append_left (List.getElem?_eq_some_iff.1 he).1]
    exact he
  | run touches _ => rw [touches.entries id (fun heq => hne (congrArg some heq.symm)), he]
  | stumble touches _ => rw [touches.entries id (fun heq => hne (congrArg some heq.symm)), he]

/-- After a step of a start, all exporters but its own are as they were. -/
theorem AttemptStep.entry?_before {e : Endpoint} {phase phase' : AttemptPhase} (h : AttemptStep b e phase c phase') {id : ExporterId}
    {entry : Entry} (hne : phase.exporter? ≠ some id) (hne' : phase'.exporter? ≠ some id) (he : c.pool.entry? id = some entry) :
    b.pool.entry? id = some entry := by
  cases h with
  | call same => rwa [Pool.entry?, same.made] at he
  | refuse same => rwa [Pool.entry?, same.made] at he
  | make made _ _ _ =>
    rcases entry?_of_make made he with ⟨he, _⟩ | ⟨rfl, _⟩
    · exact he
    · exact absurd rfl hne'
  | run touches _ => rwa [touches.entries id (fun heq => hne (congrArg some heq.symm))] at he
  | stumble touches _ => rwa [touches.entries id (fun heq => hne (congrArg some heq.symm))] at he

/-- A step of a start leaves an endpoint its running exporter, unless that is of the start. -/
theorem AttemptStep.runs {e x : Endpoint} {phase phase' : AttemptPhase} (h : AttemptStep b e phase c phase') (hx : x ≠ e)
    (hstarting : ∀ id ∈ phase.exporter?, ∀ entry, b.pool.entry? id = some entry → entry.state = .starting) (hruns : b.Runs x) :
    c.Runs x := by
  obtain ⟨id, entry, hmem, he, hstate⟩ := hruns
  refine ⟨id, entry, (h.mem_current_iff hx).2 hmem, h.entry?_of_ne (fun hid => ?_) he, hstate⟩
  have hcontra := hstarting id hid entry he
  rw [hstate] at hcontra
  cases hcontra

/-- What the pool lists for an endpoint follows the steps of its start. -/
theorem AttemptStep.reached {e : Endpoint} {phase phase' : AttemptPhase} (h : AttemptStep b e phase c phase')
    (hb : b.Reached e phase) : c.Reached e phase' := by
  cases h with
  | call same => exact fun x hx => hb x (same.current ▸ hx)
  | refuse same => exact fun x hx => hb x (same.current ▸ hx)
  | make _ current _ _ =>
    show (e, b.pool.nextId) ∈ c.pool.current
    rw [current]
    exact List.mem_append_right _ List.mem_cons_self
  | run touches current => exact ⟨_, _, current ▸ hb, touches.after, rfl⟩
  | stumble _ current =>
    intro x hx
    rw [current] at hx
    exact of_decide_eq_true (List.mem_filter.1 hx).2

/-- A step of a start leaves the starts for other endpoints as far as they are. -/
theorem AttemptStep.reached_of_ne {e x : Endpoint} {phase phase' q : AttemptPhase} (h : AttemptStep b e phase c phase') (hx : x ≠ e)
    (hstarting : ∀ id ∈ phase.exporter?, ∀ entry, b.pool.entry? id = some entry → entry.state = .starting)
    (hb : b.Reached x q) : c.Reached x q := by
  have hlacks : b.Lacks x → c.Lacks x := fun hlacks y hy heq => hlacks y ((h.mem_current_iff (heq ▸ hx)).1 hy) heq
  cases q with
  | pending => exact hlacks hb
  | creating _ _ _ => exact hlacks hb
  | starting id _ => exact (h.mem_current_iff hx).2 hb
  | started => exact h.runs hx hstarting hb
  | failed => exact hlacks hb

/-- An exporter that is current after a step of a retirement was so before. -/
theorem RetirementStep.mem_current {id : ExporterId} {entry : Entry} {phase phase' : RetirementPhase}
    (h : RetirementStep b id entry phase c phase') {x : Endpoint × ExporterId} (hx : x ∈ c.pool.current) : x ∈ b.pool.current := by
  cases h with
  | leave _ _ current =>
    rw [current] at hx
    exact (List.mem_filter.1 hx).1
  | mark _ current => exact current ▸ hx
  | drain _ _ _ current => exact current ▸ hx
  | close _ _ current => exact current ▸ hx
  | giveUp _ _ _ current => exact current ▸ hx

/-- A step of a retirement leaves all other exporters as they are. -/
theorem RetirementStep.entry?_of_ne {id id' : ExporterId} {entry : Entry} {phase phase' : RetirementPhase}
    (h : RetirementStep b id entry phase c phase') (hne : id' ≠ id) : c.pool.entry? id' = b.pool.entry? id' := by
  cases h with
  | mark touches _ => exact touches.entries id' hne
  | drain _ _ touches _ => exact touches.entries id' hne
  | close _ touches _ => exact touches.entries id' hne
  | giveUp _ _ touches _ => exact touches.entries id' hne
  | leave _ touches _ => exact touches.entries id' hne

/-- A step of a retirement leaves the current exporters of other endpoints. -/
theorem RetirementStep.mem_current_of_ne {id : ExporterId} {entry : Entry} {phase phase' : RetirementPhase}
    (h : RetirementStep b id entry phase c phase') {x : Endpoint × ExporterId} (hne : x.1 ≠ entry.endpoint)
    (hx : x ∈ b.pool.current) : x ∈ c.pool.current := by
  cases h with
  | leave _ _ current =>
    rw [current, List.mem_filter]
    exact ⟨hx, decide_eq_true hne⟩
  | mark _ current => exact current ▸ hx
  | drain _ _ _ current => exact current ▸ hx
  | close _ _ current => exact current ▸ hx
  | giveUp _ _ _ current => exact current ▸ hx

/-- A step of a retirement leaves other endpoints their running exporters. -/
theorem RetirementStep.runs {id : ExporterId} {entry : Entry} {phase phase' : RetirementPhase} {x : Endpoint}
    (h : RetirementStep b id entry phase c phase') (hg : b.Grounded) (made : b.pool.entry? id = some entry) (hx : x ≠ entry.endpoint)
    (hruns : b.Runs x) : c.Runs x := by
  obtain ⟨id', entry', hmem, he, hstate⟩ := hruns
  refine ⟨id', entry', h.mem_current_of_ne hx hmem, (h.entry?_of_ne (fun heq => hx ?_)).trans he, hstate⟩
  have hendpoint := hg.current (x, id') hmem
  rw [heq, endpointOf?_eq_some made] at hendpoint
  exact (Option.some.inj hendpoint).symm

/-! ## Steps of passes -/

/-- While a pass is under way, the ring is covered if the pass serves it. -/
theorem Covered.of_inside (ho : b.Orderly) {t : TaskId} {p : Pass} (hd : b.duty? t = some (.pass p))
    (hinside : b.pool.gate.inside = some t)
    (hserved : ∀ e ∈ b.ring.endpoints, b.Runs e ∨ (failed e ∧ (b.Lacks e ∨ b.Begins e))) (hp : b.Serves failed p) :
    b.Covered failed where
  served := hserved
  within := fun hfree => by
    rw [hinside] at hfree
    cases hfree
  passes := fun t' q hd' => by
    by_cases hne : t' = t
    · subst hne
      exact pass_eq_of_duty? hd hd' ▸ hp
    · exact .of_queued (ho.guarded.queued_of_ne (.inr hinside) hne hd')

/-- A listed exporter runs if nothing is being started or stopped. -/
theorem Orderly.runs_of_free (ho : b.Orderly) (hg : b.Grounded) (hfree : b.pool.gate.inside = none) {x : Endpoint × ExporterId}
    (hx : x ∈ b.pool.current) : b.Runs x.1 := by
  obtain ⟨entry, he, hendpoint⟩ := entry?_of_endpointOf? (hg.current x hx)
  have hlive : entry.state ≠ .stopped := (ho.kept.listed x.2 entry he).2 (hendpoint ▸ hx)
  exact ⟨x.2, entry, hx, he, (ho.free hfree x.2 entry he).resolve_right hlive⟩

/-- The starts of a pass that has just been let in are for all of its endpoints that have no running exporter. -/
theorem Orderly.covers (ho : b.Orderly) (hg : b.Grounded) (hfree : b.pool.gate.inside = none) (wanted : List Endpoint) :
    b.Covers failed wanted ((b.pool.missing wanted).map (fun e => ⟨e, .pending⟩)) where
  each := fun e he => by
    rw [List.map_map]
    cases hcontains : b.pool.contains e with
    | true =>
      obtain ⟨id, hid⟩ := Option.isSome_iff_exists.1 hcontains
      exact .inl (ho.runs_of_free hg hfree (Pool.mem_current_of_find? hid))
    | false =>
      refine .inr (List.mem_map.2 ⟨e, List.mem_filter.2 ⟨(Endpoint.mem_normalize wanted e).2 he, ?_⟩, rfl⟩)
      rw [hcontains]
      rfl
  reached := fun a ha => by
    obtain ⟨e, he, rfl⟩ := List.mem_map.1 ha
    exact ne_of_not_contains (by simpa using (List.mem_filter.1 he).2)
  failed := fun a ha hphase => by
    obtain ⟨e, _, rfl⟩ := List.mem_map.1 ha
    cases hphase

/-- A pass wants the members of the ring that is published once it has had its turn. -/
theorem wanted_of_isAligned {p : Pass} (hp : p.IsAligned) : b.wanted p.target = (b.ringAfter p).endpoints := by
  obtain ⟨ring, hpublish, htarget⟩ | ⟨hpublish, htarget⟩ := hp
  · rw [htarget, ringAfter, hpublish]
    rfl
  · rw [htarget, ringAfter, hpublish]
    rfl

theorem Covered.enter (hb : b.Covered failed) (ho : b.Orderly) (ho' : b'.Orderly) (hg : b.Grounded) (h : Ageless b b')
    (hring : b'.ring = b.ring) (hcounts : Counts b b' failed failed') {t : TaskId} {p p' : Pass} {wanted : List Endpoint}
    {attempts : List Attempt} (hfree : b.pool.gate.inside = none) (hinside : b'.pool.gate.inside = some t)
    (hd' : b'.duty? t = some (.pass p'))
    (hp : p.IsAligned) (hpublish : p'.publish = p.publish) (hwanted : wanted = b.wanted p.target)
    (hphase : p'.phase = .adding wanted attempts) (hattempts : attempts = (b.pool.missing wanted).map (fun e => ⟨e, .pending⟩)) :
    b'.Covered failed' := by
  have hattempting : ∀ e phase, b'.Attempting e phase → phase = .pending := by
    intro e phase hattempting
    obtain ⟨_, _, hphase', hmem⟩ := (ho'.attempting_iff hd' (by rw [hphase]; exact fun h => nomatch h)).1 hattempting
    rw [hphase] at hphase'
    injection hphase' with _ heq
    rw [← heq, hattempts] at hmem
    obtain ⟨_, _, hpending⟩ := List.mem_map.1 hmem
    exact (congrArg Attempt.phase hpending).symm
  have hfailed := hcounts.of_not_started (fun e hstarted => nomatch hattempting e _ hstarted)
  refine .of_inside ho' hd' hinside (fun e he => ?_) ?_
  · rcases hb.served e (hring ▸ he) with hruns | ⟨hlast, hlacks | ⟨_, _, _, hbegins⟩⟩
    · exact .inl (hruns.ageless h)
    · exact .inr ⟨hfailed e hlast, .inl (hlacks.ageless h)⟩
    · exact absurd hbegins (ho.not_attempting hfree _)
  · unfold Serves ringAfter
    rw [hphase, hpublish, hring, hattempts]
    exact ⟨hwanted.trans (wanted_of_isAligned hp), (ho.covers hg hfree wanted).ageless h hfailed⟩

/-- The start for an endpoint by the pass under way is in one phase only. -/
theorem Orderly.attempting_own (ho : b.Orderly) {t : TaskId} {p : Pass} {wanted : List Endpoint} {attempts : List Attempt}
    (hd : b.duty? t = some (.pass p)) (hphase : p.phase = .adding wanted attempts) {a : Attempt} (ha : a ∈ attempts)
    (phase : AttemptPhase) : b.Attempting a.endpoint phase ↔ phase = a.phase := by
  have hs := ho.starts_of_adding hd hphase
  rw [ho.attempting_iff hd (by rw [hphase]; exact fun h => nomatch h), hphase]
  constructor
  · rintro ⟨_, _, heq, hmem⟩
    injection heq with _ heq
    subst heq
    exact congrArg Attempt.phase (List.inj_on_of_nodup_map hs.once hmem ha rfl)
  · rintro rfl
    exact ⟨wanted, attempts, rfl, ha⟩

/-- A step of a start for an endpoint leaves the starts for other endpoints as they are. -/
theorem Orderly.attempting_other (ho : b.Orderly) (ho' : b'.Orderly) {t : TaskId} {p p' : Pass} {wanted : List Endpoint}
    {attempts : List Attempt} {way : Nat} {a a' : Attempt} (hd : b.duty? t = some (.pass p))
    (hphase : p.phase = .adding wanted attempts) (hd' : b'.duty? t = some (.pass p'))
    (hphase' : p'.phase = .adding wanted (attempts.set way a')) (hat : attempts[way]? = some a)
    (hendpoint : a'.endpoint = a.endpoint) {e : Endpoint} (he : e ≠ a.endpoint) (phase : AttemptPhase) :
    b'.Attempting e phase ↔ b.Attempting e phase := by
  have hne : p.phase ≠ .queued := by rw [hphase]; exact fun h => nomatch h
  have hne' : p'.phase ≠ .queued := by rw [hphase']; exact fun h => nomatch h
  obtain ⟨others, hmem, hmem', _, _⟩ := mem_set_of_key hat hendpoint (ho.starts_of_adding hd hphase).once
  have hsame : Attempt.mk e phase ∈ attempts.set way a' ↔ Attempt.mk e phase ∈ attempts := by
    rw [hmem, hmem', or_iff_right (fun heq => ?_), or_iff_right (fun heq => ?_)]
    · exact he (congrArg Attempt.endpoint heq)
    · exact he ((congrArg Attempt.endpoint heq).trans hendpoint)
  rw [ho.attempting_iff hd hne, ho'.attempting_iff hd' hne', hphase, hphase']
  constructor
  · rintro ⟨_, _, heq, hin⟩
    injection heq with _ heq
    exact ⟨_, _, rfl, hsame.1 (heq ▸ hin)⟩
  · rintro ⟨_, _, heq, hin⟩
    injection heq with _ heq
    exact ⟨_, _, rfl, hsame.2 (heq ▸ hin)⟩

/-- A published endpoint whose start makes a step gets a running exporter, or its last start has failed. -/
theorem AttemptStep.served {e : Endpoint} {phase phase' : AttemptPhase} (h : AttemptStep b e phase c phase')
    (hreached : b.Reached e phase) (hserved : b.Runs e ∨ failed e) (hstays : failed e → phase' ≠ .started → failed' e)
    (hends : phase' = .failed → failed' e) :
    c.Runs e ∨ (failed' e ∧ (c.Lacks e ∨ ∃ id wake, phase' = .starting id wake ∧ (e, id) ∈ c.pool.current)) := by
  have hafter := h.reached hreached
  cases h with
  | call _ =>
    have hlast := hserved.resolve_left (fun hruns => hruns.not_lacks hreached)
    exact .inr ⟨hstays hlast (fun h => nomatch h), .inl hafter⟩
  | refuse _ => exact .inr ⟨hends rfl, .inl hafter⟩
  | make _ _ _ _ =>
    have hlast := hserved.resolve_left (fun hruns => hruns.not_lacks hreached)
    exact .inr ⟨hstays hlast (fun h => nomatch h), .inr ⟨_, _, rfl, hafter⟩⟩
  | run _ _ => exact .inl hafter
  | stumble _ _ => exact .inr ⟨hends rfl, .inl hafter⟩

theorem AttemptStep.ne_failed {e : Endpoint} {phase phase' : AttemptPhase} (h : AttemptStep b e phase c phase') :
    phase ≠ .failed := by
  cases h <;> exact fun h => nomatch h

theorem Covered.attempt (hb : b.Covered failed) (ho : b.Orderly) (ho' : b'.Orderly) (hcounts : Counts b b' failed failed')
    {t : TaskId} {p p' : Pass} {wanted : List Endpoint} {attempts : List Attempt} {way : Nat} {a a' : Attempt}
    (hd : b.duty? t = some (.pass p)) (hphase : p.phase = .adding wanted attempts) (hd' : b'.duty? t = some (.pass p'))
    (hphase' : p'.phase = .adding wanted (attempts.set way a')) (hpublish : p'.publish = p.publish) (hring : b'.ring = b.ring)
    (hat : attempts[way]? = some a) (hendpoint : a'.endpoint = a.endpoint)
    (step : AttemptStep b a.endpoint a.phase c a'.phase) (hageless : Ageless c b') : b'.Covered failed' := by
  have hne' : p'.phase ≠ .queued := by rw [hphase']; exact fun h => nomatch h
  obtain ⟨hwanted, hcovers⟩ := hb.covers hd hphase
  have hs := ho.starts_of_adding hd hphase
  obtain ⟨others, hmem, hmem', hothers, _⟩ := mem_set_of_key hat hendpoint hs.once
  have ha : a ∈ attempts := List.mem_of_getElem? hat
  have hstarting : ∀ id ∈ a.phase.exporter?, ∀ entry, b.pool.entry? id = some entry → entry.state = .starting :=
    fun id hid entry he => (hs.starting id entry he).2 ⟨a, ha, hid⟩
  have hreached := hcovers.reached a ha
  have hown := ho.attempting_own hd hphase ha
  have hown' := ho'.attempting_own hd' hphase' ((hmem' a').2 (.inl rfl))
  rw [hendpoint] at hown'
  have hother := fun {e} he => ho.attempting_other ho' hd hphase hd' hphase' hat hendpoint (e := e) he
  have hstays : ∀ e, failed e → (e = a.endpoint → a'.phase ≠ .started) → failed' e := by
    intro e he hnot
    refine hcounts.stays e he (fun hstarted => ?_)
    by_cases hx : e = a.endpoint
    · subst hx
      exact absurd ((hown' _).1 hstarted).symm (hnot rfl)
    · exact (hother hx _).1 hstarted
  have hends : a'.phase = .failed → failed' a.endpoint := fun hover =>
    hcounts.ends _ ((hown' _).2 hover.symm) (fun hbegun => step.ne_failed ((hown _).1 hbegun).symm)
  refine .of_inside ho' hd' (ho'.turn t p' hd' hne') (fun e he => ?_) ?_
  · have hserved := hb.served e (hring ▸ he)
    by_cases hx : e = a.endpoint
    · subst hx
      rcases step.served hreached (hserved.imp_right And.left) (fun h h' => hstays _ h (fun _ => h')) hends with
        hruns | ⟨hlast, hlacks | ⟨id, wake, hbegins, hcurrent⟩⟩
      · exact .inl (hruns.ageless hageless)
      · exact .inr ⟨hlast, .inl (hlacks.ageless hageless)⟩
      · exact .inr ⟨hlast, .inr ⟨id, wake, hageless.current ▸ hcurrent, (hown' _).2 hbegins.symm⟩⟩
    · rcases hserved with hruns | ⟨hlast, hlacks | ⟨id, wake, hcurrent, hbegins⟩⟩
      · exact .inl ((step.runs hx hstarting hruns).ageless hageless)
      · exact .inr ⟨hstays e hlast (fun heq => absurd heq hx),
          .inl (Lacks.ageless (step.reached_of_ne (q := .pending) hx hstarting hlacks) hageless)⟩
      · exact .inr ⟨hstays e hlast (fun heq => absurd heq hx),
          .inr ⟨id, wake, hageless.current ▸ (step.mem_current_iff hx).2 hcurrent, (hother hx _).2 hbegins⟩⟩
  · unfold Serves ringAfter
    rw [hphase', hpublish, hring]
    refine ⟨hwanted, fun e he => ?_, fun x hx => ?_, fun x hx hx' => ?_⟩
    · by_cases hxe : e = a.endpoint
      · exact .inr (List.mem_map.2 ⟨a', (hmem' a').2 (.inl rfl), hendpoint.trans hxe.symm⟩)
      · rcases hcovers.each e he with hruns | hin
        · exact .inl ((step.runs hxe hstarting hruns).ageless hageless)
        · obtain ⟨x, hx, rfl⟩ := List.mem_map.1 hin
          have hx := ((hmem x).1 hx).resolve_left (fun heq => hxe (congrArg Attempt.endpoint heq))
          exact .inr (List.mem_map_of_mem ((hmem' x).2 (.inr hx)))
    · rcases (hmem' x).1 hx with rfl | hx
      · rw [hendpoint]
        exact (step.reached hreached).ageless hageless
      · exact (step.reached_of_ne (hothers x hx) hstarting (hcovers.reached x ((hmem x).2 (.inr hx)))).ageless hageless
    · rcases (hmem' x).1 hx with rfl | hx
      · rw [hendpoint]
        exact hends hx'
      · exact hstays _ (hcovers.failed x ((hmem x).2 (.inr hx)) hx') (fun heq => absurd heq (hothers x hx))

/-- Nothing is being started by a pass that is past its starts. -/
theorem Orderly.not_attempting_of_retiring (ho : b.Orderly) {t : TaskId} {p : Pass} {added failed : List Endpoint}
    {retirements : List Retirement} (hd : b.duty? t = some (.pass p)) (hphase : p.phase = .retiring added failed retirements)
    (e : Endpoint) (phase : AttemptPhase) : ¬ b.Attempting e phase := by
  rw [ho.attempting_iff hd (by rw [hphase]; exact fun h => nomatch h), hphase]
  rintro ⟨_, _, heq, _⟩
  cases heq

theorem Covered.publish (hb : b.Covered failed) (ho' : b'.Orderly) (hg : b.Grounded) (h : Ageless b b')
    (hcounts : Counts b b' failed failed') {t : TaskId} {p p' : Pass} {wanted added refused : List Endpoint}
    {attempts : List Attempt} (hd : b.duty? t = some (.pass p)) (hphase : p.phase = .adding wanted attempts)
    (hover : attempts.all Attempt.isOver = true) (hd' : b'.duty? t = some (.pass p'))
    (hphase' : p'.phase = .retiring added refused ((b.pool.extra wanted).map (fun id => ⟨id, .pending⟩)))
    (hring : b'.ring = b.ringAfter p) : b'.Covered failed' := by
  obtain ⟨rfl, hcovers⟩ := hb.covers hd hphase
  have hfailed := hcounts.of_not_started (fun e => ho'.not_attempting_of_retiring hd' hphase' e .started)
  refine .of_inside ho' hd' (ho'.turn t p' hd' (by rw [hphase']; exact fun h => nomatch h)) (fun e he => ?_) ?_
  · rw [hring] at he
    rcases hcovers.each e he with hruns | hin
    · exact .inl (hruns.ageless h)
    · obtain ⟨a, ha, rfl⟩ := List.mem_map.1 hin
      have hreached := (hcovers.reached a ha).ageless h
      have hend := List.all_eq_true.1 hover a ha
      unfold Attempt.isOver at hend
      split at hend
      · rename_i hstarted
        rw [hstarted] at hreached
        exact .inl hreached
      · rename_i hstumbled
        rw [hstumbled] at hreached
        exact .inr ⟨hfailed _ (hcovers.failed a ha hstumbled), .inl hreached⟩
      · cases hend
  · unfold Serves
    rw [hphase']
    refine ⟨fun x hx => ?_, fun r hr e he => ?_⟩
    · rw [hring]
      rw [h.current] at hx
      by_cases hin : x.1 ∈ (b.ringAfter p).endpoints
      · exact .inl hin
      · refine .inr ⟨⟨x.2, .pending⟩, List.mem_map_of_mem (List.mem_map_of_mem (List.mem_filter.2 ⟨hx, ?_⟩)), rfl⟩
        simpa using hin
    · rw [hring]
      obtain ⟨id, hid, rfl⟩ := List.mem_map.1 hr
      obtain ⟨x, hx, rfl⟩ := List.mem_map.1 hid
      obtain ⟨hx, hout⟩ := List.mem_filter.1 hx
      obtain ⟨entry', he', rfl⟩ := entry?_of_endpointOf? he
      obtain ⟨entry, hentry, hlife⟩ := h.entry_before he'
      have hendpoint := hg.current x hx
      rw [endpointOf?_eq_some hentry] at hendpoint
      rw [hlife.endpoint, Option.some.inj hendpoint]
      simpa using hout

theorem Covered.retire (hb : b.Covered failed) (ho : b.Orderly) (ho' : b'.Orderly) (hg : b.Grounded)
    (hcounts : Counts b b' failed failed') {t : TaskId} {p p' : Pass} {added refused : List Endpoint}
    {retirements : List Retirement} {way : Nat} {r r' : Retirement} {entry : Entry} (hd : b.duty? t = some (.pass p))
    (hphase : p.phase = .retiring added refused retirements) (hd' : b'.duty? t = some (.pass p'))
    (hphase' : p'.phase = .retiring added refused (retirements.set way r')) (hring : b'.ring = b.ring)
    (hat : retirements[way]? = some r) (hid : r'.id = r.id) (made : b.pool.entry? r.id = some entry)
    (step : RetirementStep b r.id entry r.phase c r'.phase) (hageless : Ageless c b') : b'.Covered failed' := by
  have hclears := hb.clears hd hphase
  have hr := ho.retires_of_retiring hd hphase
  obtain ⟨others, hmem, hmem', _, _⟩ := mem_set_of_key hat hid hr.once
  have hreplaced : ∀ x ∈ retirements, ∃ x' ∈ retirements.set way r', x'.id = x.id := by
    intro x hx
    rcases (hmem x).1 hx with rfl | hx
    · exact ⟨r', (hmem' r').2 (.inl rfl), hid⟩
    · exact ⟨x, (hmem' x).2 (.inr hx), rfl⟩
  have hfailed := hcounts.of_not_started (fun e => ho'.not_attempting_of_retiring hd' hphase' e .started)
  have hcurrent : ∀ x ∈ b'.pool.current, x ∈ b.pool.current := fun x hx => step.mem_current (hageless.current ▸ hx)
  have hrunning : ∀ e ∈ b.ring.endpoints, e ≠ entry.endpoint := fun e he heq =>
    hclears.outside r (List.mem_of_getElem? hat) _ (endpointOf?_eq_some made) (heq ▸ he)
  refine .of_inside ho' hd' (ho'.turn t p' hd' (by rw [hphase']; exact fun h => nomatch h)) (fun e he => ?_) ?_
  · rw [hring] at he
    rcases hb.served e he with hruns | ⟨hlast, hlacks | ⟨_, _, _, hbegins⟩⟩
    · exact .inl ((step.runs hg made (hrunning e he) hruns).ageless hageless)
    · exact .inr ⟨hfailed e hlast, .inl (fun x hx => hlacks x (hcurrent x hx))⟩
    · exact absurd hbegins (ho.not_attempting_of_retiring hd hphase e _)
  · unfold Serves
    rw [hphase']
    refine ⟨fun x hx => ?_, fun x hx e he => ?_⟩
    · rw [hring]
      rcases hclears.kept x (hcurrent x hx) with hin | ⟨y, hy, hyid⟩
      · exact .inl hin
      · obtain ⟨y', hy', heq⟩ := hreplaced y hy
        exact .inr ⟨y', hy', heq.trans hyid⟩
    · rw [hring]
      have hbefore : ∃ y ∈ retirements, y.id = x.id := by
        rcases (hmem' x).1 hx with rfl | hx
        · exact ⟨r, List.mem_of_getElem? hat, hid.symm⟩
        · exact ⟨x, (hmem x).2 (.inr hx), rfl⟩
      obtain ⟨y, hy, hyid⟩ := hbefore
      obtain ⟨entry₀, he₀, _⟩ := hr.fits y hy
      have hendpoint := endpointOf?_eq_some he₀
      obtain ⟨entry₁, he₁, hsame⟩ := entry?_of_endpointOf? (step.keeps _ _ hendpoint)
      obtain ⟨entry₂, he₂, hlife⟩ := hageless.entries _ _ he₁
      rw [hyid] at he₂
      rw [endpointOf?_eq_some he₂, hlife.endpoint, hsame] at he
      exact Option.some.inj he ▸ hclears.outside y hy _ hendpoint

theorem Covered.conclude (hb : b.Covered failed) (ho : b.Orderly) (ho' : b'.Orderly) (hg : b.Grounded) (h : Ageless b b')
    (hcounts : Counts b b' failed failed') {t : TaskId} {p : Pass} {added refused : List Endpoint}
    {retirements : List Retirement} (hd : b.duty? t = some (.pass p)) (hphase : p.phase = .retiring added refused retirements)
    (hover : retirements.all Retirement.isOver = true) (hring : b'.ring = b.ring) (hfree : b'.pool.gate.inside = none) :
    b'.Covered failed' := by
  have hclears := hb.clears hd hphase
  have hr := ho.retires_of_retiring hd hphase
  have hfailed := hcounts.of_not_started (fun e => ho'.not_attempting hfree .started)
  refine ⟨fun e he => ?_, fun _ x hx => ?_, fun t' q hd' => .of_queued ?_⟩
  · rcases hb.served e (hring ▸ he) with hruns | ⟨hlast, hlacks | ⟨_, _, _, hbegins⟩⟩
    · exact .inl (hruns.ageless h)
    · exact .inr ⟨hfailed e hlast, .inl (hlacks.ageless h)⟩
    · exact absurd hbegins (ho.not_attempting_of_retiring hd hphase e _)
  · rw [hring]
    rw [h.current] at hx
    refine (hclears.kept x hx).resolve_right (fun ⟨r, hmem, hid⟩ => ?_)
    obtain ⟨entry, he, hfits⟩ := hr.fits r hmem
    have hretired : r.phase = .retired := of_decide_eq_true (List.all_eq_true.1 hover r hmem)
    rw [hretired] at hfits
    rw [hid] at he
    have hendpoint := hg.current x hx
    rw [endpointOf?_eq_some he] at hendpoint
    exact (ho.kept.listed x.2 entry he).2 (Option.some.inj hendpoint ▸ hx) hfits
  · by_contra hq
    have hturn := ho'.turn t' q hd' hq
    rw [hfree] at hturn
    cases hturn

/-- A step of a pass that wants the members of its ring leaves the ring covered. -/
theorem Covered.passStep (hb : b.Covered failed) (ho : b.Orderly) (hg : b.Grounded) {t : TaskId} {rest : List (Work α)} {p : Pass}
    (hp : p.IsAligned) (hw : b.works t = .pass p :: rest) (hrest : ∀ w ∈ rest, w.isInert = true) (h : PassStep b t rest p b')
    (hcounts : Counts b b' failed failed') : b'.Covered failed' := by
  have ht := lt_of_works hw
  have hd := duty?_of_works hw rfl
  have ho' : b'.Orderly := ho.passStep hg hw hrest h
  cases h with
  | @enter gate wanted attempts phase_eq enters wanted_eq attempts_eq =>
    obtain ⟨hfree, _, hinside⟩ := (Gate.enter?_eq_some_iff _ _ _).1 enters
    have hr : Reworks b (({ b with pool := { b.pool with gate := gate } } : Balancer α).withWorks t
      (.pass { p with phase := .adding wanted attempts } :: rest)) t _ := reworks_withWorks ht rfl
    exact hb.enter ho ho' hg (.of_eq rfl rfl rfl) rfl hcounts hfree hinside (hr.duty?_cons rfl) hp rfl wanted_eq rfl attempts_eq
  | @attempt wanted attempts way a a' c phase_eq at_way endpoint frame step =>
    have hr : Reworks b (c.withWorks t (.pass { p with phase := .adding wanted (attempts.set way a') } :: rest)) t _ :=
      reworks_withWorks ht frame.tasks
    exact hb.attempt ho ho' hcounts hd phase_eq (hr.duty?_cons rfl) rfl rfl frame.ring at_way endpoint step (.of_eq rfl rfl rfl)
  | @publish wanted attempts phase_eq ended =>
    have hr : Reworks b ((b.publishPass p wanted attempts).1.withWorks t (.pass (b.publishPass p wanted attempts).2 :: rest)) t _ :=
      reworks_withWorks ht rfl
    exact hb.publish ho' hg (.of_eq rfl rfl rfl) hcounts hd phase_eq ended (hr.duty?_cons rfl) rfl rfl
  | @retire added refused retirements way r r' entry c phase_eq at_way id_eq frame made step =>
    have hr : Reworks b (c.withWorks t (.pass { p with phase := .retiring added refused (retirements.set way r') } :: rest)) t _ :=
      reworks_withWorks ht frame.tasks
    exact hb.retire ho ho' hg hcounts hd phase_eq (hr.duty?_cons rfl) rfl frame.ring at_way id_eq made step (.of_eq rfl rfl rfl)
  | @conclude added refused retirements phase_eq ended =>
    have hinside := ho.turn t p hd (by rw [phase_eq]; exact fun h => nomatch h)
    obtain ⟨metrics, heq⟩ := concludePass_eq b t rest (b.passOutcome added refused retirements)
    rw [heq] at ho' hcounts ⊢
    exact hb.conclude ho ho' hg (.of_eq rfl rfl rfl) hcounts hd phase_eq ended rfl (if_pos hinside)

end Covered

end Balancer

end TelemetryRouter
