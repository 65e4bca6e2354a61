import TelemetryRouter.Proofs.Duties

/-!
# What duties refer to is there

In every state of every run the exporters that the pool, the duties and the leases name were made, and for the endpoints that they
say. Exporters keep their numbers and their endpoints, so a step only has to account for what it newly refers to.
-/

namespace TelemetryRouter

variable {α : Type}

/-- The current exporter of an endpoint is among the current ones. -/
theorem Pool.mem_current_of_find? {p : Pool} {e : Endpoint} {id : ExporterId} (h : p.find? e = some id) :
    (e, id) ∈ p.current := by
  obtain ⟨before, after, heq, _⟩ := List.lookup_eq_some_iff.1 h
  rw [heq]
  exact List.mem_append_right _ List.mem_cons_self

namespace Balancer

/-! ## Exporters keep their endpoints -/

/-- Every exporter that was made is still there and has its endpoint. -/
def Keeps (b b' : Balancer α) : Prop := ∀ id e, b.endpointOf? id = some e → b'.endpointOf? id = some e

theorem Keeps.of_made {b b' : Balancer α} (h : b'.pool.made = b.pool.made) : Keeps b b' := fun id e he => by
  rw [endpointOf?, Pool.entry?, h]
  exact he

theorem Touches.keeps {b b' : Balancer α} {id : ExporterId} {old new : Entry} {said : List Occurrence}
    (h : Touches b b' id old new said) (hend : new.endpoint = old.endpoint) : Keeps b b' := fun id' e he => by
  by_cases hid : id' = id
  · subst hid
    rw [endpointOf?, h.before] at he
    rw [endpointOf?, h.after, ← he, Option.map_some, Option.map_some, hend]
  · rw [endpointOf?, h.entries id' hid]
    exact he

theorem AttemptStep.keeps {b b' : Balancer α} {e : Endpoint} {phase phase' : AttemptPhase}
    (h : AttemptStep b e phase b' phase') : Keeps b b' := by
  cases h with
  | call same => exact .of_made same.made
  | refuse same => exact .of_made same.made
  | make made _ _ _ =>
    intro id e he
    obtain ⟨entry, hentry, _⟩ := entry?_of_endpointOf? he
    have hlt : id < b.pool.made.length := (List.getElem?_eq_some_iff.1 hentry).1
    rw [endpointOf?, Pool.entry?, made, List.getElem?_append_left hlt]
    exact he
  | run touches _ => exact touches.keeps rfl
  | stumble touches _ => exact touches.keeps rfl

theorem RetirementStep.keeps {b b' : Balancer α} {id : ExporterId} {entry : Entry} {phase phase' : RetirementPhase}
    (h : RetirementStep b id entry phase b' phase') : Keeps b b' := by
  cases h with
  | mark touches _ => exact touches.keeps rfl
  | drain _ _ touches _ => exact touches.keeps rfl
  | close _ touches _ => exact touches.keeps rfl
  | giveUp _ _ touches _ => exact touches.keeps rfl
  | leave _ touches _ => exact touches.keeps rfl

theorem ParcelStep.keeps {b b' : Balancer α} {e : Endpoint} {batch : Batch α} {cut : Option RouterError}
    {phase phase' : ParcelPhase} (h : ParcelStep b e batch cut phase b' phase') : Keeps b b' := by
  cases h with
  | unready _ => exact .of_made rfl
  | lease _ _ touches _ => exact touches.keeps rfl
  | cutEarly _ touches _ => exact touches.keeps rfl
  | refuse _ touches _ => exact touches.keeps rfl
  | call _ touches _ => exact touches.keeps rfl
  | cutLate _ touches _ => exact touches.keeps rfl
  | arrive _ _ _ touches _ _ => exact touches.keeps rfl
  | reject _ _ _ touches _ => exact touches.keeps rfl

theorem ParcelStep.current_eq {b b' : Balancer α} {e : Endpoint} {batch : Batch α} {cut : Option RouterError}
    {phase phase' : ParcelPhase} (h : ParcelStep b e batch cut phase b' phase') : b'.pool.current = b.pool.current := by
  cases h <;> first | rfl | assumption

theorem Relieves.keeps {b b' : Balancer α} {given : ExporterId → Nat} (h : Relieves b b' given) : Keeps b b' := fun id e he => by
  obtain ⟨entry, hentry, hend⟩ := entry?_of_endpointOf? he
  obtain ⟨entry', hentry', hlife, _⟩ := h.entries id entry hentry
  rw [endpointOf?_eq_some hentry', hlife.endpoint, hend]

/-! ## Grounded works -/

end Balancer

namespace Work

variable {b b' : Balancer α} {w : Work α}

theorem IsGrounded.mono (h : w.IsGrounded b) (hk : b.Keeps b') (hl : b.leases.length ≤ b'.leases.length) : w.IsGrounded b' := by
  cases w with
  | pass p =>
    obtain ⟨target, publish, phase⟩ := p
    cases phase with
    | queued => trivial
    | adding wanted attempts => exact fun a ha id hid => hk id a.endpoint (h a ha id hid)
    | retiring added failed retirements =>
      intro r hr
      obtain ⟨e, he⟩ := h r hr
      exact ⟨e, hk r.id e he⟩
  | deliver started deadline token parcels => exact fun p hp id hid => hk id p.endpoint (h p hp id hid)
  | exportLeased lease batch wake => exact Nat.lt_of_lt_of_le h hl
  | _ => trivial

theorem isGrounded_of_isInert (h : w.isInert = true) : w.IsGrounded b := by
  cases w <;> trivial

theorem IsFresh.isGrounded (h : w.IsFresh) : w.IsGrounded b := by
  cases w with
  | pass p =>
    obtain ⟨target, publish, phase⟩ := p
    obtain ⟨hphase, _⟩ := h
    simp only at hphase
    subst hphase
    trivial
  | deliver started deadline token parcels =>
    intro p hp id hid
    rw [h p hp] at hid
    cases hid
  | exportLeased lease batch wake => cases h
  | _ => trivial

end Work

namespace Balancer

/-! ## Grounded states -/

namespace Grounded

variable {b b' : Balancer α} {t : TaskId} {ws : List (Work α)}

/-- A task goes on to other works, of which the first refers to what is there. -/
theorem of_reworks (hb : b.Grounded) (hk : b.Keeps b') (hr : Reworks b b' t ws) (hhead : ∀ w ∈ ws.head?, w.IsGrounded b')
    (htail : ∀ w ∈ ws.tail, w.isInert = true) (hcurrent : ∀ c ∈ b'.pool.current, b'.endpointOf? c.2 = some c.1)
    (hlength : b.leases.length ≤ b'.leases.length) (hleases : ∀ l ∈ b'.leases, ∃ e, b'.endpointOf? l.exporter = some e) :
    b'.Grounded where
  tidy := hr.tidy hb.tidy htail
  current := hcurrent
  duties := fun t' w hw => by
    by_cases hne : t' = t
    · subst hne
      obtain ⟨rest, hworks, _⟩ := works_of_duty? hw
      refine hhead w ?_
      rw [← hr.self, hworks]
      rfl
    · rw [hr.duty?_of_ne hne] at hw
      exact (hb.duties t' w hw).mono hk hlength
  leases := hleases

theorem current_of_eq (hb : b.Grounded) (hk : b.Keeps b') (h : b'.pool.current = b.pool.current) :
    ∀ c ∈ b'.pool.current, b'.endpointOf? c.2 = some c.1 := fun c hc => hk c.2 c.1 (hb.current c (h ▸ hc))

theorem current_of_filter (hb : b.Grounded) (hk : b.Keeps b') {f : Endpoint × ExporterId → Bool}
    (h : b'.pool.current = b.pool.current.filter f) : ∀ c ∈ b'.pool.current, b'.endpointOf? c.2 = some c.1 := fun c hc =>
  hk c.2 c.1 (hb.current c (List.mem_filter.1 (h ▸ hc)).1)

theorem leases_of_eq (hb : b.Grounded) (hk : b.Keeps b') (h : b'.leases = b.leases) :
    ∀ l ∈ b'.leases, ∃ e, b'.endpointOf? l.exporter = some e := fun l hl => by
  obtain ⟨e, he⟩ := hb.leases l (h ▸ hl)
  exact ⟨e, hk _ e he⟩

theorem undisturbed (hb : b.Grounded) (h : Undisturbed b b') : b'.Grounded := by
  have hmade : b'.pool.made = b.pool.made := congrArg Core.made h.core
  have hcurrent : b'.pool.current = b.pool.current := congrArg Core.current h.core
  have hleases : b'.leases = b.leases := congrArg Core.leases h.core
  have hk : b.Keeps b' := .of_made hmade
  refine ⟨h.tidy hb.tidy, hb.current_of_eq hk hcurrent, fun t w hw => ?_, hb.leases_of_eq hk hleases⟩
  rcases h.duty t with hd | ⟨_, w', hw', hfresh⟩
  · rw [hd] at hw
    exact (hb.duties t w hw).mono hk (Nat.le_of_eq (congrArg List.length hleases.symm))
  · rw [hw'] at hw
    injection hw with hw
    exact hw ▸ hfresh.isGrounded

end Grounded

theorem grounded_new (options : BalancerOptions) (adapter : Adapter α) (resolver : Resolver) (backends : Backends) :
    (new options adapter resolver backends).Grounded where
  tidy := fun t w hw => by cases hw
  current := fun c hc => by cases hc
  duties := fun t w hw => by cases hw
  leases := fun l hl => by cases hl

/-! ## Passes -/

section Passes

variable {b b' : Balancer α}

/-- After a step of a start, the current exporters are the ones of their endpoints. -/
theorem Grounded.current_attemptStep (hb : b.Grounded) {e : Endpoint} {phase phase' : AttemptPhase}
    (h : AttemptStep b e phase b' phase') : ∀ c ∈ b'.pool.current, b'.endpointOf? c.2 = some c.1 := by
  have hk := h.keeps
  cases h with
  | call same => exact hb.current_of_eq hk same.current
  | refuse same => exact hb.current_of_eq hk same.current
  | @make _ address plain _ _ made current _ _ =>
    intro c hc
    rw [current] at hc
    rcases List.mem_append.1 hc with hc | hc
    · exact hk c.2 c.1 (hb.current c (List.mem_filter.1 hc).1)
    · rw [List.mem_singleton.1 hc, endpointOf?, Pool.entry?, made, Pool.nextId,
        List.getElem?_append_right (Nat.le_refl _), Nat.sub_self]
      rfl
  | run _ current => exact hb.current_of_eq hk current
  | stumble _ current => exact hb.current_of_filter hk current

/-- A start refers to an exporter only once it was made for its endpoint. -/
theorem AttemptStep.grounded {e : Endpoint} {phase phase' : AttemptPhase} (h : AttemptStep b e phase b' phase') :
    ∀ id ∈ phase'.exporter?, b'.endpointOf? id = some e := by
  intro id hid
  cases h with
  | make made _ _ _ =>
    injection hid with hid
    rw [← hid, endpointOf?, Pool.entry?, made, Pool.nextId, List.getElem?_append_right (Nat.le_refl _), Nat.sub_self]
    rfl
  | _ => cases hid

/-- After a step of a retirement, the current exporters are the ones of their endpoints. -/
theorem Grounded.current_retirementStep (hb : b.Grounded) {id : ExporterId} {entry : Entry} {phase phase' : RetirementPhase}
    (h : RetirementStep b id entry phase b' phase') : ∀ c ∈ b'.pool.current, b'.endpointOf? c.2 = some c.1 := by
  have hk := h.keeps
  cases h with
  | mark _ current => exact hb.current_of_eq hk current
  | drain _ _ _ current => exact hb.current_of_eq hk current
  | close _ _ current => exact hb.current_of_eq hk current
  | giveUp _ _ _ current => exact hb.current_of_eq hk current
  | leave _ _ current => exact hb.current_of_filter hk current

theorem Grounded.passStep (hb : b.Grounded) {t : TaskId} {rest : List (Work α)} {p : Pass} (hw : b.works t = .pass p :: rest)
    (hrest : ∀ w ∈ rest, w.isInert = true) (h : PassStep b t rest p b') : b'.Grounded := by
  have ht := lt_of_works hw
  have hp : (Work.pass p : Work α).IsGrounded b := hb.duties t _ (duty?_of_works hw rfl)
  obtain ⟨target, publish, phase⟩ := p
  have hhead : ∀ {c : Balancer α} {w : Work α}, w.IsGrounded c → ∀ x ∈ (w :: rest).head?, x.IsGrounded c := fun hg x hx => by
    injection hx with hx
    exact hx ▸ hg
  cases h with
  | @enter gate wanted attempts phase_eq _ _ attempts_eq =>
    refine hb.of_reworks (.of_made rfl) (reworks_withWorks ht rfl) (hhead ?_) hrest hb.current (Nat.le_refl _) hb.leases
    intro a ha id hid
    rw [attempts_eq] at ha
    obtain ⟨e, _, rfl⟩ := List.mem_map.1 ha
    cases hid
  | @attempt wanted attempts way a a' c phase_eq at_way endpoint frame step =>
    simp only at phase_eq
    subst phase_eq
    have hk := step.keeps
    have hcurrent := hb.current_attemptStep step
    refine hb.of_reworks hk (reworks_withWorks ht frame.tasks) (hhead ?_) hrest hcurrent
      (Nat.le_of_eq (congrArg List.length frame.leases.symm)) (hb.leases_of_eq hk frame.leases)
    intro x hx id hid
    rcases List.mem_or_eq_of_mem_set hx with hx | rfl
    · exact hk id x.endpoint (hp x hx id hid)
    · rw [endpoint]
      exact step.grounded id hid
  | @publish wanted attempts phase_eq _ =>
    refine hb.of_reworks (.of_made rfl) (reworks_withWorks ht rfl) (hhead ?_) hrest hb.current (Nat.le_refl _) hb.leases
    intro r hr
    obtain ⟨id, hid, rfl⟩ := List.mem_map.1 hr
    obtain ⟨c, hc, rfl⟩ := List.mem_map.1 hid
    exact ⟨c.1, hb.current c (List.mem_filter.1 hc).1⟩
  | @retire added failed retirements way r r' entry c phase_eq at_way id_eq frame made step =>
    simp only at phase_eq
    subst phase_eq
    have hk := step.keeps
    have hcurrent := hb.current_retirementStep step
    refine hb.of_reworks hk (reworks_withWorks ht frame.tasks) (hhead ?_) hrest hcurrent
      (Nat.le_of_eq (congrArg List.length frame.leases.symm)) (hb.leases_of_eq hk frame.leases)
    intro x hx
    rcases List.mem_or_eq_of_mem_set hx with hx | rfl
    · obtain ⟨e, he⟩ := hp x hx
      exact ⟨e, hk x.id e he⟩
    · obtain ⟨e, he⟩ := hp r (List.mem_of_getElem? at_way)
      rw [id_eq]
      exact ⟨e, hk r.id e he⟩
  | @conclude added failed retirements phase_eq _ =>
    obtain ⟨metrics, heq⟩ := concludePass_eq b t rest (b.passOutcome added failed retirements)
    rw [heq]
    exact hb.of_reworks (.of_made rfl) (reworks_finish ht rfl)
      (fun x hx => Work.isGrounded_of_isInert (hrest x (List.mem_of_head? hx)))
      (fun x hx => hrest x (List.mem_of_mem_tail hx)) hb.current (Nat.le_refl _) hb.leases

end Passes

/-! ## Deliveries -/

section Deliveries

variable {b b' : Balancer α}

/-- A parcel refers to an exporter only if that was made for its endpoint. -/
theorem Grounded.parcelStep (hb : b.Grounded) {e : Endpoint} {batch : Batch α} {cut : Option RouterError}
    {phase phase' : ParcelPhase} (hphase : ∀ id ∈ phase.lease?, b.endpointOf? id = some e)
    (h : ParcelStep b e batch cut phase b' phase') : ∀ id ∈ phase'.lease?, b'.endpointOf? id = some e := by
  have hk := h.keeps
  intro id hid
  cases h with
  | lease find _ _ _ =>
    injection hid with hid
    subst hid
    exact hk _ e (hb.current (e, _) (Pool.mem_current_of_find? find))
  | call _ _ _ => exact hk id e (hphase id hid)
  | _ => cases hid

theorem Grounded.deliverStep (hb : b.Grounded) {t : TaskId} {rest : List (Work α)} {started : Nat} {deadline : Option Instant}
    {token : Option String} {parcels : List (Parcel α)} {way : Nat}
    (hw : b.works t = .deliver started deadline token parcels :: rest) (hrest : ∀ w ∈ rest, w.isInert = true)
    (h : DeliverStep b t rest started deadline token parcels way b') : b'.Grounded := by
  have ht := lt_of_works hw
  have hp : (Work.deliver started deadline token parcels).IsGrounded b := hb.duties t _ (duty?_of_works hw rfl)
  cases h with
  | @parcel p p' c at_way endpoint _ frame step =>
    have hk := step.keeps
    have hcurrent := hb.current_of_eq hk step.current_eq
    refine hb.of_reworks hk (reworks_withWorks ht frame.tasks) ?_ hrest hcurrent
      (Nat.le_of_eq (congrArg List.length frame.leases.symm)) (hb.leases_of_eq hk frame.leases)
    intro x hx
    injection hx with hx
    subst hx
    intro q hq id hid
    rcases List.mem_or_eq_of_mem_set hq with hq | rfl
    · exact hk id q.endpoint (hp q hq id hid)
    · rw [endpoint]
      exact hb.parcelStep (hp p (List.mem_of_getElem? at_way)) step id hid
  | finish _ =>
    exact hb.of_reworks (.of_made rfl) (reworks_finish ht rfl)
      (fun x hx => Work.isGrounded_of_isInert (hrest x (List.mem_of_head? hx)))
      (fun x hx => hrest x (List.mem_of_mem_tail hx)) hb.current (Nat.le_refl _) hb.leases

/-! ## Leases held from outside -/

theorem exporter_settle (l : HeldLease) : l.settle.exporter = l.exporter := by
  unfold HeldLease.settle
  split <;> rfl

/-- The leases held from outside have become other ones of exporters that were made. -/
theorem Resettles.leases_grounded {leases : List HeldLease} (h : Resettles b b' leases)
    (hl : ∀ l ∈ leases, ∃ e, b'.endpointOf? l.exporter = some e) : ∀ l ∈ b'.leases, ∃ e, b'.endpointOf? l.exporter = some e := by
  intro l' hl'
  rw [h.leases] at hl'
  obtain ⟨l, hmem, rfl⟩ := List.mem_map.1 hl'
  rw [exporter_settle]
  exact hl l hmem

/-- Another number of exports through a lease keeps the exporters of the leases. -/
theorem exporter_of_mem_usesOf {leases : List HeldLease} {lease : LeaseId} {f : Nat → Nat} {l' : HeldLease}
    (h : l' ∈ usesOf leases lease f) : ∃ l ∈ leases, l.exporter = l'.exporter := by
  obtain ⟨i, hi⟩ := List.getElem?_of_mem h
  rw [usesOf, List.getElem?_modify] at hi
  obtain ⟨l, hl, rfl⟩ := Option.map_eq_some_iff.1 hi
  refine ⟨l, List.mem_of_getElem? hl, ?_⟩
  split <;> rfl

/-- Taking a name from the leases keeps their exporters. -/
theorem exporter_of_mem_unnamed {leases : List HeldLease} {name : String} {l' : HeldLease} (h : l' ∈ unnamed leases name) :
    ∃ l ∈ leases, l.exporter = l'.exporter := by
  obtain ⟨l, hl, rfl⟩ := List.mem_map.1 h
  refine ⟨l, hl, ?_⟩
  split <;> rfl

/-- The tasks are as before, and what the pool and the leases refer to is there. -/
theorem Grounded.of_tasks (hb : b.Grounded) (hk : b.Keeps b') (hts : b'.tasks = b.tasks)
    (hcurrent : b'.pool.current = b.pool.current) (hlength : b.leases.length ≤ b'.leases.length)
    (hleases : ∀ l ∈ b'.leases, ∃ e, b'.endpointOf? l.exporter = some e) : b'.Grounded where
  tidy := fun t w hw => hb.tidy t w (by rw [works_congr hts] at hw; exact hw)
  current := hb.current_of_eq hk hcurrent
  duties := fun t w hw => (hb.duties t w (by rw [duty?_congr (works_congr hts t)] at hw; exact hw)).mono hk hlength
  leases := hleases

/-- Changing the number of exports through a lease leaves a grounded state. -/
theorem Grounded.useLease (hb : b.Grounded) (lease : LeaseId) (f : Nat → Nat) : (b.useLease lease f).Grounded := by
  have h := resettles_useLease b lease f
  have hk := h.relieves.keeps
  refine hb.of_tasks hk h.tasks h.relieves.current ?_ (h.leases_grounded (fun l' hl' => ?_))
  · exact Nat.le_of_eq (by rw [h.leases, List.length_map, usesOf, List.length_modify])
  · obtain ⟨l, hl, hexporter⟩ := exporter_of_mem_usesOf hl'
    obtain ⟨e, he⟩ := hb.leases l hl
    exact ⟨e, hk _ e (hexporter ▸ he)⟩

/-- Dropping the lease under a name leaves a grounded state. -/
theorem Grounded.dropName (hb : b.Grounded) (name : String) : (b.dropName name).Grounded := by
  have h := resettles_dropName b name
  have hk := h.relieves.keeps
  refine hb.of_tasks hk h.tasks h.relieves.current ?_ (h.leases_grounded (fun l' hl' => ?_))
  · exact Nat.le_of_eq (by rw [h.leases, List.length_map, unnamed, List.length_map])
  · obtain ⟨l, hl, hexporter⟩ := exporter_of_mem_unnamed hl'
    obtain ⟨e, he⟩ := hb.leases l hl
    exact ⟨e, hk _ e (hexporter ▸ he)⟩

theorem Grounded.touches (hb : b.Grounded) (hframe : Frame b b') (hcurrent : b'.pool.current = b.pool.current)
    (hk : b.Keeps b') : b'.Grounded :=
  hb.of_tasks hk hframe.tasks hcurrent (Nat.le_of_eq (congrArg List.length hframe.leases.symm)) (hb.leases_of_eq hk hframe.leases)

theorem Grounded.finish (hb : b.Grounded) {t : TaskId} {rest : List (Work α)} (outcome : Outcome α) (ht : t < b.tasks.length)
    (hrest : ∀ w ∈ rest, w.isInert = true) : (b.finish t rest outcome).Grounded :=
  hb.of_reworks (.of_made rfl) (reworks_finish ht rfl) (fun x hx => Work.isGrounded_of_isInert (hrest x (List.mem_of_head? hx)))
    (fun x hx => hrest x (List.mem_of_mem_tail hx)) hb.current (Nat.le_refl _) hb.leases

/-- Giving a task other works, of which the first refers to what is there, leaves a grounded state. -/
theorem Grounded.withWorks (hb : b.Grounded) {t : TaskId} {w : Work α} {rest : List (Work α)} (ht : t < b.tasks.length)
    (hw : w.IsGrounded b) (hrest : ∀ w ∈ rest, w.isInert = true) : (b.withWorks t (w :: rest)).Grounded := by
  refine hb.of_reworks (.of_made rfl) (reworks_withWorks ht rfl) (fun x hx => ?_) hrest hb.current (Nat.le_refl _) hb.leases
  injection hx with hx
  exact (hx ▸ hw).mono (.of_made rfl) (Nat.le_refl _)

/-- A step of an export through a lease held from outside leaves a grounded state. -/
theorem Grounded.exportStep (hb : b.Grounded) {t : TaskId} {rest : List (Work α)} {lease : LeaseId} {batch : Batch α}
    {held : HeldLease} {entry : Entry} {wake : Option Nat} (hw : b.works t = .exportLeased lease batch wake :: rest)
    (hrest : ∀ w ∈ rest, w.isInert = true) (h : ExportStep b t rest lease batch held entry wake b') : b'.Grounded := by
  have ht := lt_of_works hw
  have hlease : lease < b.leases.length := hb.duties t _ (duty?_of_works hw rfl)
  have hend : ∀ {c : Balancer α} {outcome : Outcome α}, c.Grounded → Frame b c →
      ((c.useLease lease (· - 1)).finish t rest outcome).Grounded := by
    intro c outcome hc frame
    refine (hc.useLease lease (· - 1)).finish _ ?_ hrest
    rw [(resettles_useLease _ lease (· - 1)).tasks, frame.tasks]
    exact ht
  cases h with
  | refuse frame current touches => exact hend (hb.touches frame current (touches.keeps rfl)) frame
  | call frame current touches =>
    refine (hb.touches frame current (touches.keeps rfl)).withWorks (by rw [frame.tasks]; exact ht) ?_ hrest
    rw [← frame.leases] at hlease
    exact hlease
  | finish frame current _ touches => exact hend (hb.touches frame current (touches.keeps rfl)) frame

theorem lt_of_isHeld {lease : LeaseId} (h : b.isHeld lease = true) : lease < b.leases.length := by
  refine Nat.lt_of_not_le (fun hle => ?_)
  rw [isHeld, List.getElem?_eq_none hle] at h
  cases h

/-- The request of an export through a lease leaves a grounded state. -/
theorem Grounded.requestExport (hb : b.Grounded) {lease : LeaseId} (batch : Batch α) (hl : b.isHeld lease = true) :
    (b.request (.exportLeased lease batch)).1.Grounded := by
  have hspawn := hb.undisturbed (undisturbed_spawn_nil b)
  have hlease : (Work.exportLeased lease batch none).IsGrounded (b.spawn []) := lt_of_isHeld hl
  exact (hspawn.withWorks (nextTask_lt_spawn b) hlease (fun w hw => by cases hw)).useLease lease (· + 1)

/-- Taking a lease under a name leaves a grounded state. -/
theorem Grounded.leaseAs (hb : b.Grounded) {e : Endpoint} {name : String} (h : b.leaseAs e name = .ok b') : b'.Grounded := by
  obtain ⟨id, entry, c, d, _, _, hframe, hcurrent, htouches, hresettles, rfl⟩ := leaseAs_spec h
  have hc := hb.touches hframe hcurrent (htouches.keeps rfl)
  have hk := hresettles.relieves.keeps
  rw [← hframe.leases] at hresettles
  refine hc.of_tasks hk hresettles.tasks hresettles.relieves.current ?_ (fun l' hl' => ?_)
  · rw [List.length_append, hresettles.leases, List.length_map, unnamed, List.length_map]
    exact Nat.le_add_right _ _
  · rcases List.mem_append.1 hl' with hl' | hl'
    · refine hresettles.leases_grounded (fun l hl => ?_) l' hl'
      obtain ⟨l₀, hl₀, hexporter⟩ := exporter_of_mem_unnamed hl
      obtain ⟨e, he⟩ := hc.leases l₀ hl₀
      exact ⟨e, hk _ e (hexporter ▸ he)⟩
    · rw [List.mem_singleton.1 hl']
      exact ⟨_, hk _ _ (endpointOf?_eq_some htouches.after)⟩

/-! ## Giving up -/

/-- Taking the works from a task leaves a grounded state. -/
theorem Grounded.withWorks_nil (hb : b.Grounded) (t : TaskId) : (b.withWorks t []).Grounded where
  tidy := fun t' w hw => by
    rw [works_withWorks_nil] at hw
    split at hw
    · cases hw
    · exact hb.tidy t' w hw
  current := hb.current
  duties := fun t' w hw => by
    by_cases heq : t' = t
    · obtain ⟨rest, hworks, _⟩ := works_of_duty? hw
      rw [works_withWorks_nil, if_pos heq] at hworks
      cases hworks
    · have hsame : (b.withWorks t []).duty? t' = b.duty? t' := duty?_congr (by rw [works_withWorks_nil, if_neg heq])
      rw [hsame] at hw
      exact (hb.duties t' w hw).mono (.of_made rfl) (Nat.le_refl _)
  leases := hb.leases

/-- Giving a delivery up gives the leases of its parcels back. -/
theorem Grounded.dropWork_deliver (hb : b.Grounded) {t : TaskId} {started : Nat} {deadline : Option Instant}
    {token : Option String} {parcels : List (Parcel α)} (hd : b.duty? t = some (.deliver started deadline token parcels)) :
    Frame b (Balancer.dropWork t b (.deliver started deadline token parcels)) ∧
      Relieves b (Balancer.dropWork t b (.deliver started deadline token parcels)) (leasedBy parcels) :=
  foldl_dropParcel_spec parcels (fun _ hp => entry?_of_parcel (hb.duties t _ hd) hp)

/-- Giving up an export through a lease held from outside ends the use of the lease, and before that the work of the exporter. -/
theorem Grounded.dropWork_exportLeased (hb : b.Grounded) (t : TaskId) (lease : LeaseId) (batch : Batch α) (wake : Option Nat) :
    ∃ c, Balancer.dropWork t b (.exportLeased lease batch wake) = c.useLease lease (· - 1) ∧ Frame b c ∧
      Relieves b c (fun _ => 0) := by
  unfold Balancer.dropWork
  dsimp only
  split
  · rename_i _ _ held hheld
    obtain ⟨e, hmade⟩ := hb.leases held (List.mem_of_getElem? hheld)
    obtain ⟨entry, he, _⟩ := entry?_of_endpointOf? hmade
    obtain ⟨hframe, hrelieves⟩ := relieves_abandonExport he
    exact ⟨_, rfl, hframe, hrelieves⟩
  · exact ⟨b, rfl, .refl b, .refl b⟩

theorem Grounded.dropWork (hb : b.Grounded) {t : TaskId} {w : Work α} (hd : b.duty? t = some w) :
    (Balancer.dropWork t b w).Grounded := by
  obtain ⟨rest, _, hduty⟩ := works_of_duty? hd
  cases w with
  | pass p => exact hb.of_tasks (.of_made rfl) rfl rfl (Nat.le_refl _) hb.leases
  | deliver started deadline token parcels =>
    obtain ⟨hframe, hrelieves⟩ := hb.dropWork_deliver hd
    exact hb.touches hframe hrelieves.current hrelieves.keeps
  | exportLeased lease batch wake =>
    obtain ⟨c, heq, hframe, hrelieves⟩ := hb.dropWork_exportLeased t lease batch wake
    rw [heq]
    exact (hb.touches hframe hrelieves.current hrelieves.keeps).useLease lease (· - 1)
  | _ => cases hduty

end Deliveries

/-! ## Every action -/

theorem Grounded.change {b b' : Balancer α} (hb : b.Grounded) {a : Action α} (h : Change b a b') : b'.Grounded := by
  cases h with
  | calm undisturbed => exact hb.undisturbed undisturbed
  | advance => exact hb.of_tasks (.of_made rfl) rfl rfl (Nat.le_refl _) hb.leases
  | pass works inert step =>
    exact hb.passStep works inert (stepPass_cases (hb.duties _ _ (duty?_of_works works rfl)) step)
  | deliver works inert step =>
    exact hb.deliverStep works inert (stepDeliver_cases (hb.duties _ _ (duty?_of_works works rfl)) step)
  | exportLeased works inert step =>
    obtain ⟨held, entry, _, _, hstep⟩ := stepExportLeased_cases hb step
    exact hb.exportStep works inert hstep
  | use held => exact hb.requestExport _ held
  | lease taken => exact hb.leaseAs taken
  | dropLease => exact hb.dropName _
  | notify =>
    obtain ⟨hframe, hrelieves⟩ := b.notify_spec _
    exact hb.touches hframe hrelieves.current hrelieves.keeps
  | abandon works duty undisturbed =>
    exact ((hb.dropWork (duty?_of_works works duty)).withWorks_nil _).undisturbed undisturbed

/-! ## The settings and the time -/

/-- The settings and the adapter stay, and time does not go back. -/
structure Onward (b b' : Balancer α) : Prop where
  options : b'.options = b.options
  adapter : b'.adapter = b.adapter
  now : b.now ≤ b'.now

section Settings

variable {b b' b'' : Balancer α}

theorem Onward.of_eq (ho : b'.options = b.options) (ha : b'.adapter = b.adapter) (hn : b'.now = b.now) : Onward b b' :=
  ⟨ho, ha, Nat.le_of_eq hn.symm⟩

theorem Onward.trans (h : Onward b b') (h' : Onward b' b'') : Onward b b'' :=
  ⟨h'.options.trans h.options, h'.adapter.trans h.adapter, Nat.le_trans h.now h'.now⟩

theorem Frame.onward (h : Frame b b') : Onward b b' := .of_eq h.options h.adapter h.now

/-- Other leases held from outside change neither settings nor adapter nor time. -/
theorem Resettles.onward {leases : List HeldLease} (h : Resettles b b' leases) : Onward b b' := .of_eq h.options h.adapter h.now

/-- An undisturbed state has the settings, the adapter and the time it had. -/
theorem Undisturbed.onward (h : Undisturbed b b') : Onward b b' :=
  .of_eq (congrArg Core.options h.core) (congrArg Core.adapter h.core) (congrArg Core.now h.core)

/-- A step of a pass leaves settings, adapter and time alone. -/
theorem PassStep.onward {t : TaskId} {rest : List (Work α)} {p : Pass} (h : PassStep b t rest p b') : Onward b b' := by
  cases h with
  | enter _ _ _ _ => exact .of_eq rfl rfl rfl
  | attempt _ _ _ frame _ => exact frame.onward.trans (.of_eq rfl rfl rfl)
  | publish _ _ => exact .of_eq rfl rfl rfl
  | retire _ _ _ frame _ _ => exact frame.onward.trans (.of_eq rfl rfl rfl)
  | @conclude added failed retirements _ _ =>
    obtain ⟨metrics, heq⟩ := concludePass_eq b t rest (b.passOutcome added failed retirements)
    rw [heq]
    exact .of_eq rfl rfl rfl

/-- Giving up a duty leaves settings, adapter and time alone. -/
theorem Grounded.onward_dropWork (hb : b.Grounded) {t : TaskId} {w : Work α} (hd : b.duty? t = some w) :
    Onward b (Balancer.dropWork t b w) := by
  cases w with
  | deliver started deadline token parcels => exact (hb.dropWork_deliver hd).1.onward
  | exportLeased lease batch wake =>
    obtain ⟨c, heq, hframe, _⟩ := hb.dropWork_exportLeased t lease batch wake
    rw [heq]
    exact hframe.onward.trans (resettles_useLease c lease (· - 1)).onward
  | resolution phase => cases phase <;> exact .of_eq rfl rfl rfl
  | _ => exact .of_eq rfl rfl rfl

/-- Every change leaves the settings and the adapter alone, and time does not go back. -/
theorem Change.onward (hb : b.Grounded) {a : Action α} (h : Change b a b') : Onward b b' := by
  have hend : ∀ {c : Balancer α} {t : TaskId} {rest : List (Work α)} {lease : LeaseId} {outcome : Outcome α}, Frame b c →
      Onward b ((c.useLease lease (· - 1)).finish t rest outcome) := by
    intro c t rest lease outcome hframe
    exact (hframe.onward.trans (resettles_useLease c lease (· - 1)).onward).trans (.of_eq rfl rfl rfl)
  cases h with
  | calm undisturbed => exact undisturbed.onward
  | advance => exact ⟨rfl, rfl, Nat.le_max_left _ _⟩
  | pass works _ step => exact (stepPass_cases (hb.duties _ _ (duty?_of_works works rfl)) step).onward
  | deliver works _ step =>
    cases stepDeliver_cases (hb.duties _ _ (duty?_of_works works rfl)) step with
    | parcel _ _ _ frame _ => exact frame.onward.trans (.of_eq rfl rfl rfl)
    | finish _ => exact .of_eq rfl rfl rfl
  | exportLeased _ _ step =>
    obtain ⟨held, entry, _, _, hstep⟩ := stepExportLeased_cases hb step
    cases hstep with
    | refuse frame _ _ => exact hend frame
    | call frame _ _ => exact frame.onward.trans (.of_eq rfl rfl rfl)
    | finish frame _ _ _ => exact hend frame
  | @use lease batch _ =>
    let c := (b.spawn []).withWorks b.nextTask [.exportLeased lease batch none]
    have hc : Onward b c := .of_eq rfl rfl rfl
    exact hc.trans (resettles_useLease c lease (· + 1)).onward
  | lease taken =>
    obtain ⟨_, _, _, d, _, _, hframe, _, _, hresettles, rfl⟩ := leaseAs_spec taken
    exact (hframe.onward.trans hresettles.onward).trans (.of_eq rfl rfl rfl)
  | dropLease => exact (resettles_dropName b _).onward
  | notify => exact (b.notify_spec _).1.onward
  | @abandon t w rest _ works duty undisturbed =>
    have hdrop := hb.onward_dropWork (duty?_of_works works duty)
    have hleft : Onward b ((dropWork t b w).withWorks t []) := hdrop.trans (.of_eq rfl rfl rfl)
    exact hleft.trans undisturbed.onward

end Settings

end Balancer

theorem Run.grounded (r : Run α) (n : Nat) : (r.state n).Grounded :=
  r.invariant (Balancer.grounded_new _ _ _ _) (fun _ hb => hb.change (Balancer.change_perform hb.tidy _)) n

theorem Run.change (r : Run α) (n : Nat) : Balancer.Change (r.state n) (r.action n) (r.state (n + 1)) :=
  Balancer.change_perform (r.grounded n).tidy (r.action n)

/-- Settings and adapter stay in a step of a run, and time does not go back. -/
theorem Run.onward (r : Run α) (n : Nat) : Balancer.Onward (r.state n) (r.state (n + 1)) := (r.change n).onward (r.grounded n)

theorem Run.options_state (r : Run α) : ∀ n, (r.state n).options = r.options
  | 0 => rfl
  | n + 1 => (r.onward n).options.trans (r.options_state n)

theorem Run.adapter_state (r : Run α) : ∀ n, (r.state n).adapter = r.adapter
  | 0 => rfl
  | n + 1 => (r.onward n).adapter.trans (r.adapter_state n)

theorem Run.now_le (r : Run α) {n m : Nat} (h : n ≤ m) : (r.state n).now ≤ (r.state m).now := by
  induction h with
  | refl => exact Nat.le_refl _
  | step _ ih => exact Nat.le_trans ih (r.onward _).now

end TelemetryRouter
