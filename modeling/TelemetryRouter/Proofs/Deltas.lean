import TelemetryRouter.Proofs.PassDeeds

/-!
# What one pass changes

A pass is let in, starts an exporter for every endpoint that it wants and that has none, publishes its ring and retires the exporters of
all other endpoints. So what it tells depends on nothing but what it wanted, what was there when it was let in, and which of the
exporters that were missing could be made and started (`Run.delta_of_passes`).
-/

namespace TelemetryRouter

variable {α : Type}

namespace Balancer

section Steps

variable {b b' b'' c : Balancer α} {e : Endpoint} {id : ExporterId}

/-! ## Exporters that are left alone -/

/-- Whether an exporter is the same and in the same stage of its life, and at most exports through it were called or ended. -/
def Untouched (b b' : Balancer α) (id : ExporterId) : Prop :=
  (∃ entry entry', b.pool.entry? id = some entry ∧ b'.pool.entry? id = some entry' ∧ entry'.SameLife entry) ∧
    ∃ said, b'.history id = b.history id ++ said ∧ ∀ what ∈ said, what.isExport = true

theorem Untouched.trans (h : Untouched b b' id) (h' : Untouched b' b'' id) : Untouched b b'' id := by
  obtain ⟨⟨entry, mid, he, hmid, hlife⟩, hsays⟩ := h
  obtain ⟨⟨mid', entry', hmid', he', hlife'⟩, hsays'⟩ := h'
  rw [hmid] at hmid'
  injection hmid' with hmid'
  subst hmid'
  exact ⟨⟨entry, entry', he, he', hlife'.trans hlife⟩, SaysOnly.trans hsays hsays'⟩

theorem Ageless.untouched (h : Ageless b b') {entry : Entry} (he : b.pool.entry? id = some entry) : Untouched b b' id := by
  obtain ⟨entry', he', hlife⟩ := h.entries id entry he
  exact ⟨⟨entry, entry', he, he', hlife⟩, h.history id⟩

theorem untouched_of_eq {entry : Entry} (he : b.pool.entry? id = some entry) (he' : c.pool.entry? id = some entry)
    (hhistory : c.history id = b.history id) : Untouched b c id :=
  ⟨⟨entry, entry, he, he', .refl entry⟩, SaysOnly.of_eq hhistory⟩

/-- A step of a start leaves the exporters of other starts alone. -/
theorem AttemptStep.untouched {phase phase' : AttemptPhase} (h : AttemptStep b e phase c phase') {entry : Entry}
    (hne : phase.exporter? ≠ some id) (he : b.pool.entry? id = some entry) : Untouched b c id := by
  refine untouched_of_eq he (h.entry?_of_ne hne he) ?_
  cases h with
  | call same => exact same.history id
  | refuse same => exact same.history id
  | make _ _ _ histories => exact histories id (Nat.ne_of_lt (List.getElem?_eq_some_iff.1 he).1)
  | run touches _ => exact touches.histories id (fun heq => hne (heq ▸ rfl))
  | stumble touches _ => exact touches.histories id (fun heq => hne (heq ▸ rfl))

/-- A step of a retirement leaves the other exporters alone. -/
theorem RetirementStep.untouched {x : ExporterId} {old entry : Entry} {phase phase' : RetirementPhase}
    (h : RetirementStep b x old phase c phase') (hne : id ≠ x) (he : b.pool.entry? id = some entry) : Untouched b c id := by
  refine untouched_of_eq he ((h.entry?_of_ne hne).trans he) ?_
  cases h with
  | mark touches _ => exact touches.histories id hne
  | drain _ _ touches _ => exact touches.histories id hne
  | close _ touches _ => exact touches.histories id hne
  | giveUp _ _ touches _ => exact touches.histories id hne
  | leave _ touches _ => exact touches.histories id hne

/-- The pass inside leaves an exporter alone that it spares. -/
theorem Passing.untouched (h : Passing b b') (hg : b.Grounded) {s : ExporterState} (hlists : b.Lists e id s) (hspares : b.Spares e id) :
    Untouched b b' id := by
  obtain ⟨hmem, entry, he, _⟩ := hlists
  have hgo : ∀ {c : Balancer α}, Untouched b c id → Ageless c b' → Untouched b b' id := fun hc hageless => by
    have hafter := hc.1
    obtain ⟨_, entry', _, he', _⟩ := hafter
    exact hc.trans (hageless.untouched he')
  cases h with
  | aside ageless _ _ _ => exact ageless.untouched he
  | enter _ _ _ _ _ ageless _ => exact ageless.untouched he
  | publish _ _ _ _ ageless _ => exact ageless.untouched he
  | conclude _ _ _ _ ageless _ _ => exact ageless.untouched he
  | @attempt t p wanted attempts way a a' c before phase after at_way endpoint step ageless _ =>
    have hp := hspares t p before
    rw [Pass.Spares, phase] at hp
    have hin := List.mem_of_getElem? at_way
    refine hgo (step.untouched (fun hid => hp.2 a hin ?_) he) ageless
    exact Option.some.inj ((hg.endpointOf?_of_adding before phase a hin id hid).symm.trans (hg.current (e, id) hmem))
  | @retire t p added failed retirements way x x' old c before phase after at_way hid made step ageless _ =>
    have hp := hspares t p before
    rw [Pass.Spares, phase] at hp
    exact hgo (step.untouched (hp x (List.mem_of_getElem? at_way)).symm he) ageless

/-! ## What is listed outside of what a pass wants -/

theorem Ageless.keeps (h : Ageless b b') : Keeps b b' := fun id e he => by
  obtain ⟨entry, hentry, hend⟩ := entry?_of_endpointOf? he
  obtain ⟨entry', hentry', hlife⟩ := h.entries id entry hentry
  rw [endpointOf?_eq_some hentry', hlife.endpoint, hend]

theorem Kept.contains_iff (hk : b.Kept) : b.pool.contains e = true ↔ ∃ id, (e, id) ∈ b.pool.current := by
  rw [Pool.contains, Option.isSome_iff_exists]
  exact exists_congr (fun _ => ⟨Pool.mem_current_of_find?, hk.find?_eq_some⟩)

end Steps

end Balancer

theorem Pool.mem_missing_iff_contains {pool : Pool} {wanted : List Endpoint} {e : Endpoint} :
    e ∈ pool.missing wanted ↔ e ∈ wanted ∧ pool.contains e = false := by
  rw [Pool.mem_missing_iff, Pool.contains, Option.isSome_eq_false_iff, Option.isNone_iff_eq_none]

/-- What a pass leaves of the list of the pool outside of what it wants: nothing changes as long as it starts exporters, and then it
retires just the exporters that were listed. -/
def PassPhase.Leaves (b : Balancer α) (listed : List (Endpoint × ExporterId)) (wanted : List Endpoint) : PassPhase → Prop
  | .queued => False
  | .adding wanted' attempts => wanted' = wanted ∧ (∀ a ∈ attempts, a.endpoint ∈ wanted) ∧
    ∀ x : Endpoint × ExporterId, x.1 ∉ wanted → (x ∈ b.pool.current ↔ x ∈ listed)
  | .retiring _ _ retirements => (∀ x ∈ listed, x.1 ∉ wanted → ∃ y ∈ retirements, y.id = x.2) ∧
    (∀ y ∈ retirements, ∃ e, (e, y.id) ∈ listed ∧ e ∉ wanted ∧ b.endpointOf? y.id = some e) ∧
    ∀ x ∈ b.pool.current, x.1 ∉ wanted → x ∈ listed

/-- The ring that is published while a pass is inside, by the one that was published before. -/
def Pass.ringIn (p : Pass) (ring : Ring) : Ring :=
  match p.phase with
  | .retiring _ _ _ => p.publish.getD ring
  | _ => ring

namespace Balancer

section Leaving

variable {b b' : Balancer α} {t : TaskId} {p p' : Pass} {listed : List (Endpoint × ExporterId)} {wanted : List Endpoint}

/-- What a pass leaves of the list is the same as long as no exporter ages. -/
theorem Ageless.leaves {phase : PassPhase} (h : Ageless b b') (hleaves : phase.Leaves b listed wanted) : phase.Leaves b' listed wanted := by
  cases phase with
  | queued => exact hleaves
  | adding _ _ =>
    refine ⟨hleaves.1, hleaves.2.1, ?_⟩
    rw [h.current]
    exact hleaves.2.2
  | retiring _ _ _ =>
    refine ⟨hleaves.1, fun y hy => ?_, ?_⟩
    · obtain ⟨e, hlisted, hout, hendpoint⟩ := hleaves.2.1 y hy
      exact ⟨e, hlisted, hout, h.keeps y.id e hendpoint⟩
    · rw [h.current]
      exact hleaves.2.2

/-- The step of a start changes nothing outside of what the pass wants. -/
theorem AttemptStep.leaves {wanted' : List Endpoint} {attempts : List Attempt} {way : Nat} {a a' : Attempt}
    (h : AttemptStep b a.endpoint a.phase b' a'.phase) (hat : attempts[way]? = some a) (hendpoint : a'.endpoint = a.endpoint)
    (hleaves : (PassPhase.adding wanted' attempts).Leaves b listed wanted) :
    (PassPhase.adding wanted' (attempts.set way a')).Leaves b' listed wanted := by
  obtain ⟨hwanted, hwants, hlisted⟩ := hleaves
  have hin := hwants a (List.mem_of_getElem? hat)
  refine ⟨hwanted, fun x hx => ?_, fun x hx => ?_⟩
  · rcases List.mem_or_eq_of_mem_set hx with hx | rfl
    · exact hwants x hx
    · exact hendpoint.symm ▸ hin
  · rw [h.mem_current_iff (fun heq => hx (heq ▸ hin))]
    exact hlisted x hx

/-- When all starts are over, what is listed outside of what the pass wants is what it retires. -/
theorem leaves_of_publish {wanted' added failed : List Endpoint} {attempts : List Attempt} (hg : b.Grounded)
    (hleaves : (PassPhase.adding wanted' attempts).Leaves b listed wanted) :
    (PassPhase.retiring added failed ((b.pool.extra wanted').map (fun id => ⟨id, .pending⟩))).Leaves b listed wanted := by
  obtain ⟨rfl, _, hlisted⟩ := hleaves
  refine ⟨fun x hx hout => ?_, fun y hy => ?_, fun x hx hout => (hlisted x hout).1 hx⟩
  · refine ⟨⟨x.2, .pending⟩, List.mem_map_of_mem (List.mem_map_of_mem (List.mem_filter.2 ⟨(hlisted x hout).2 hx, ?_⟩)), rfl⟩
    simpa using hout
  · obtain ⟨id, hid, rfl⟩ := List.mem_map.1 hy
    obtain ⟨x, hx, rfl⟩ := List.mem_map.1 hid
    obtain ⟨hx, hout⟩ := List.mem_filter.1 hx
    have hout : x.1 ∉ wanted' := by simpa using hout
    exact ⟨x.1, (hlisted x hout).1 hx, hout, hg.current x hx⟩

/-- The step of a retirement takes at most its own exporter off the list. -/
theorem RetirementStep.leaves {added failed : List Endpoint} {retirements : List Retirement} {way : Nat} {x x' : Retirement} {entry : Entry}
    (h : RetirementStep b x.id entry x.phase b' x'.phase) (hcloses : b.Closes retirements) (hat : retirements[way]? = some x)
    (hid : x'.id = x.id) (hleaves : (PassPhase.retiring added failed retirements).Leaves b listed wanted) :
    (PassPhase.retiring added failed (retirements.set way x')).Leaves b' listed wanted := by
  obtain ⟨hretires, hretired, hlisted⟩ := hleaves
  obtain ⟨others, hmem, hmem', _, _⟩ := mem_set_of_key hat hid hcloses.once
  refine ⟨fun z hz hout => ?_, fun y hy => ?_, fun z hz hout => hlisted z (h.mem_current hz) hout⟩
  · obtain ⟨y, hy, hyz⟩ := hretires z hz hout
    rcases (hmem y).1 hy with rfl | hy
    · exact ⟨x', (hmem' x').2 (.inl rfl), hid.trans hyz⟩
    · exact ⟨y, (hmem' y).2 (.inr hy), hyz⟩
  · rcases (hmem' y).1 hy with rfl | hy
    · obtain ⟨e, he, hout, hendpoint⟩ := hretired x (List.mem_of_getElem? hat)
      exact ⟨e, hid ▸ he, hout, hid ▸ h.keeps _ e hendpoint⟩
    · obtain ⟨e, he, hout, hendpoint⟩ := hretired y ((hmem y).2 (.inr hy))
      exact ⟨e, he, hout, h.keeps _ e hendpoint⟩

/-- What is listed outside of what a pass wants stays as it has to while the pass goes on. -/
theorem Passing.leaves (h : Passing b b') (hb : b.Tended) (hg : b.Grounded) (hbefore : b.insider? = some (t, p))
    (hafter : b'.insider? = some (t, p')) (hleaves : p.phase.Leaves b listed wanted) : p'.phase.Leaves b' listed wanted := by
  cases h with
  | aside ageless inside _ _ =>
    obtain ⟨_, rfl⟩ := insider?_inj (inside.trans hbefore) hafter
    exact ageless.leaves hleaves
  | enter free _ _ _ _ _ _ =>
    rw [insider?_eq_none free] at hbefore
    cases hbefore
  | attempt before phase after at_way endpoint step ageless _ =>
    obtain ⟨rfl, rfl⟩ := insider?_inj hbefore before
    obtain ⟨_, rfl⟩ := insider?_inj after hafter
    exact ageless.leaves (step.leaves at_way endpoint (phase ▸ hleaves))
  | publish before phase after _ ageless _ =>
    obtain ⟨rfl, rfl⟩ := insider?_inj hbefore before
    obtain ⟨_, rfl⟩ := insider?_inj after hafter
    exact ageless.leaves (leaves_of_publish hg (phase ▸ hleaves))
  | retire before phase after at_way hid _ step ageless _ =>
    obtain ⟨rfl, rfl⟩ := insider?_inj hbefore before
    obtain ⟨_, rfl⟩ := insider?_inj after hafter
    have hcloses := hb.matched _ _ before
    rw [phase] at hleaves hcloses
    exact ageless.leaves (step.leaves hcloses at_way hid hleaves)
  | conclude _ _ after _ _ _ _ =>
    rw [insider?_eq_none after] at hafter
    cases hafter

/-- The ring changes when a pass begins to retire exporters, and only then. -/
theorem Passing.ring_eq (h : Passing b b') (hbefore : b.insider? = some (t, p)) (hafter : b'.insider? = some (t, p')) {ring : Ring}
    (hring : b.ring = p.ringIn ring) : b'.ring = p'.ringIn ring := by
  cases h with
  | aside _ inside same _ =>
    obtain ⟨_, rfl⟩ := insider?_inj (inside.trans hbefore) hafter
    exact same.trans hring
  | enter free _ _ _ _ _ _ =>
    rw [insider?_eq_none free] at hbefore
    cases hbefore
  | attempt before phase after _ _ _ _ same =>
    obtain ⟨rfl, rfl⟩ := insider?_inj hbefore before
    obtain ⟨_, rfl⟩ := insider?_inj after hafter
    rw [Pass.ringIn, phase] at hring
    exact same.trans hring
  | publish before phase after _ _ changes =>
    obtain ⟨rfl, rfl⟩ := insider?_inj hbefore before
    obtain ⟨_, rfl⟩ := insider?_inj after hafter
    rw [Pass.ringIn, phase] at hring
    exact changes.trans (congrArg _ hring)
  | retire before phase after _ _ _ _ _ same =>
    obtain ⟨rfl, rfl⟩ := insider?_inj hbefore before
    obtain ⟨_, rfl⟩ := insider?_inj after hafter
    rw [Pass.ringIn, phase] at hring
    exact same.trans hring
  | conclude _ _ after _ _ _ _ =>
    rw [insider?_eq_none after] at hafter
    cases hafter

end Leaving

end Balancer

namespace Run

section Passes

variable {r : Run α} {t : TaskId} {p q : Pass} {phase : PassPhase} {e : Endpoint} {m n i : Nat} {o : ReconcileOutcome}

/-! ## From the first step to the last one -/

/-- Nothing is given up of a pass from its first step to its last one. -/
theorem Passes.passing (h : r.Passes t p m n o) (hmi : m ≤ i) (hin : i ≤ n) : Balancer.Passing (r.state i) (r.state (i + 1)) := by
  rcases r.passing_or_drops i with hpassing | ⟨t', q, haction, hdrops⟩
  · exact hpassing
  · have hinside := (Balancer.insider?_eq_some_iff.1 hdrops.before).1
    rcases Nat.lt_or_eq_of_le hmi with hmi | rfl
    · obtain rfl : t' = t := Option.some.inj (hinside.symm.trans (h.inside i hmi hin))
      rcases Nat.lt_or_eq_of_le hin with hin | rfl
      · cases hdrops.free.symm.trans (h.inside (i + 1) (Nat.lt_succ_of_lt hmi) hin)
      · exact absurd haction h.kept
    · cases h.free.symm.trans hinside

/-- A pass that is inside has been under way since its first step. -/
theorem Passes.underWay (h : r.Passes t p m n o) (hp : (r.state i).insider? = some (t, q)) (hmi : m < i) (hin : i ≤ n) :
    r.UnderWay t q m i := by
  obtain ⟨m', hm'⟩ := r.underWay hp
  obtain ⟨hlt, hfree, _⟩ := hm'.begun
  rcases Nat.lt_trichotomy m m' with hmm | rfl | hmm
  · cases hfree.symm.trans (h.inside m' hmm (by omega))
  · exact hm'
  · cases h.free.symm.trans (hm'.inside m hmm (by omega))

/-- What is listed outside of what a pass wants is as it has to be. -/
theorem Passes.outside (h : r.Passes t p m n o) (hmi : m < i) (hin : i ≤ n)
    (hp : (r.state i).insider? = some (t, { p with phase := phase })) :
    phase.Leaves (r.state i) (r.state m).pool.current ((r.state m).wanted p.target) := by
  induction i, hmi using Nat.le_induction generalizing phase with
  | base =>
    obtain ⟨attempts, hafter, rfl, hageless, _⟩ := h.enters
    obtain ⟨_, heq⟩ := Balancer.insider?_inj hafter hp
    injection heq with _ _ hphase
    subst hphase
    refine ⟨rfl, fun a ha => ?_, fun x _ => by rw [hageless.current]⟩
    obtain ⟨e, he, rfl⟩ := List.mem_map.1 ha
    exact (Pool.mem_missing_iff.1 he).1
  | succ i hmi ih =>
    obtain ⟨phase', hbefore, _⟩ := h.follows_deeds hmi (Nat.le_of_succ_le hin)
    exact (h.passing (Nat.le_of_lt hmi) (Nat.le_of_succ_le hin)).leaves (r.tended i) (r.grounded i) hbefore hp
      (ih (Nat.le_of_succ_le hin) hbefore)

/-- The ring is the one of the pass from when it begins to retire exporters, and the one before until then. -/
theorem Passes.ring_eq (h : r.Passes t p m n o) (hmi : m < i) (hin : i ≤ n)
    (hp : (r.state i).insider? = some (t, { p with phase := phase })) :
    (r.state i).ring = Pass.ringIn { p with phase := phase } (r.state m).ring := by
  induction i, hmi using Nat.le_induction generalizing phase with
  | base =>
    obtain ⟨attempts, hafter, _, _, hring⟩ := h.enters
    obtain ⟨_, heq⟩ := Balancer.insider?_inj hafter hp
    injection heq with _ _ hphase
    subst hphase
    exact hring
  | succ i hmi ih =>
    obtain ⟨phase', hbefore, _⟩ := h.follows_deeds hmi (Nat.le_of_succ_le hin)
    exact (h.passing (Nat.le_of_lt hmi) (Nat.le_of_succ_le hin)).ring_eq hbefore hp (ih (Nat.le_of_succ_le hin) hbefore)

/-- The ring is the one of the pass from when that has published it, and the one before until then. -/
theorem Passes.ring_eq_ite (h : r.Passes t p m n o) (hmi : m ≤ i) (hin : i ≤ n) : (r.state i).ring =
    if .publish ∈ r.passDeeds m i then p.publish.getD (r.state m).ring else (r.state m).ring := by
  rcases Nat.lt_or_eq_of_le hmi with hmi | rfl
  · obtain ⟨phase, hp, hfollows⟩ := h.follows_deeds hmi hin
    rw [h.ring_eq hmi hin hp]
    cases phase with
    | queued => cases hfollows
    | adding _ _ =>
      refine (if_neg (fun hmem => ?_)).symm
      obtain ⟨_, _, _, heq⟩ := hfollows.publish_mem_iff.1 hmem
      cases heq
    | retiring _ _ _ => exact (if_pos (hfollows.publish_mem_iff.2 ⟨_, _, _, rfl⟩)).symm
  · rw [passDeeds, since_self]
    rfl

/-- In its last step, a pass is past its starts and all of its retirements are over, and it tells what it has done. -/
theorem Passes.concludes (h : r.Passes t p m n o) : ∃ retirements,
    (r.state n).insider? = some (t, { p with phase := .retiring o.added o.failed retirements }) ∧
      retirements.all Retirement.isOver = true ∧
      o.removed = Endpoint.sort (retirements.filterMap (fun x => (r.state n).endpointOf? x.id)) ∧
      Balancer.Ageless (r.state n) (r.state (n + 1)) ∧ (r.state (n + 1)).ring = (r.state n).ring := by
  obtain ⟨phase, hp, _⟩ := h.follows_deeds h.later (Nat.le_refl n)
  have hout : ∀ {p' : Pass}, (r.state (n + 1)).insider? ≠ some (t, p') := fun hafter => by
    cases (Balancer.insider?_eq_none h.leaves).symm.trans hafter
  cases h.passing (Nat.le_of_lt h.later) (Nat.le_refl n) with
  | aside _ inside _ _ => exact absurd (inside.trans hp) hout
  | enter free _ _ _ _ _ _ => cases (Balancer.insider?_eq_none free).symm.trans hp
  | attempt before _ after _ _ _ _ _ => exact absurd ((Balancer.insider?_inj before hp).1 ▸ after) hout
  | publish before _ after _ _ _ => exact absurd ((Balancer.insider?_inj before hp).1 ▸ after) hout
  | retire before _ after _ _ _ _ _ _ => exact absurd ((Balancer.insider?_inj before hp).1 ▸ after) hout
  | @conclude t' p' added failed retirements before phase_eq _ ended ageless ring tells =>
    obtain ⟨rfl, rfl⟩ := Balancer.insider?_inj before hp
    obtain rfl : phase = .retiring added failed retirements := phase_eq
    have heq := tells.symm.trans h.tells
    injection heq with heq
    injection heq with heq
    subst heq
    exact ⟨retirements, hp, ended, rfl, ageless, ring⟩

/-- Nothing is done for exporters in the last step of a pass. -/
theorem Passes.passDeed?_last (h : r.Passes t p m n o) : r.passDeed? n = none := by
  obtain ⟨retirements, hp, hover, _⟩ := h.concludes
  by_contra hsome
  obtain ⟨t', way, q, rest, haction, hw, hq⟩ := works_of_passDeed? hsome
  obtain ⟨rfl, rfl⟩ := Balancer.insider?_inj hq hp
  refine hsome ?_
  rw [passDeed?_of_works haction hw, Balancer.deedOf?]
  exact if_pos hover

/-- An exporter of an endpoint that a pass wants stays listed in its stage, and the pass leaves it alone. -/
theorem Passes.untouched (h : r.Passes t p m n o) (he : e ∈ (r.state m).wanted p.target) {id : ExporterId} {s : ExporterState}
    (hlists : (r.state m).Lists e id s) (hmi : m ≤ i) (hin : i ≤ n + 1) :
    (r.state i).Lists e id s ∧ Balancer.Untouched (r.state m) (r.state i) id := by
  have hwants : ∀ j, m ≤ j → j < n + 1 → ∀ t' target, r.LetsIn t' target j → e ∈ (r.state j).wanted target := by
    intro j hmj hjn t' target hlets
    rcases Nat.lt_or_eq_of_le hmj with hlt | rfl
    · cases hlets.1.symm.trans (h.inside j hlt (Nat.le_of_lt_succ hjn))
    · have hmine : r.LetsIn t p.target m := ⟨h.free, ⟨p, h.waits, rfl⟩, h.inside (m + 1) (Nat.lt_succ_self m) h.later⟩
      exact hmine.target_eq hlets ▸ he
  induction i, hmi using Nat.le_induction with
  | base =>
    have hentry := hlists.2
    obtain ⟨entry, hentry, _⟩ := hentry
    exact ⟨hlists, Balancer.untouched_of_eq hentry hentry rfl⟩
  | succ i hmi ih =>
    obtain ⟨_, huntouched⟩ := ih (Nat.le_of_succ_le hin)
    have hstays : ∀ j, m ≤ j → j ≤ n + 1 → (r.state j).Lists e id s ∧ (r.state j).Spares e id := fun j hmj hjn =>
      stays hlists (Balancer.spares_of_free h.free) hmj (fun k hmk hkj => hwants k hmk (Nat.lt_of_lt_of_le hkj hjn))
    obtain ⟨hlists', hspares'⟩ := hstays i hmi (Nat.le_of_succ_le hin)
    exact ⟨(hstays (i + 1) (Nat.le_succ_of_le hmi) hin).1, huntouched.trans
      ((h.passing hmi (Nat.le_of_succ_le_succ hin)).untouched (r.grounded i) hlists' hspares')⟩

end Passes

/-! ## What a pass comes to -/

/-- Whether the exporter of an endpoint was made and has started well, from a step on and before another. -/
def StartsUp (r : Run α) (e : Endpoint) (m n : Nat) : Prop :=
  .created e true ∈ r.passDeeds m n ∧ .started e true ∈ r.passDeeds m n

/-- Whether every exporter that the pool lists runs. -/
def AllRunning (r : Run α) (n : Nat) : Prop :=
  ∀ e, (r.state n).pool.contains e = true → (r.state n).pool.state? e = some .running

theorem allRunning_iff {r : Run α} {n : Nat} :
    r.AllRunning n ↔ ∀ x ∈ (r.state n).pool.current, (r.state n).pool.state? x.1 = some .running := by
  refine ⟨fun h x hx => h x.1 ((r.tended n).kept.contains_iff.2 ⟨x.2, hx⟩), fun h e hcontains => ?_⟩
  obtain ⟨id, hmem⟩ := (r.tended n).kept.contains_iff.1 hcontains
  exact h _ hmem

instance (r : Run α) (n : Nat) : Decidable (r.AllRunning n) := decidable_of_iff _ allRunning_iff.symm

/-- What a pass that was let in by a step has done when its last step is made, and what it tells. -/
structure Delta (r : Run α) (t : TaskId) (p : Pass) (m n : Nat) (o : ReconcileOutcome) : Prop where
  /-- Added are the endpoints that were wanted and had no exporter and whose exporter could be made and started. -/
  added : ∀ e, e ∈ o.added ↔
    e ∈ (r.state m).wanted p.target ∧ (r.state m).pool.contains e = false ∧ r.StartsUp e m (n + 1)
  /-- Failed are the other ones that were wanted and had no exporter. -/
  failed : ∀ e, e ∈ o.failed ↔
    e ∈ (r.state m).wanted p.target ∧ (r.state m).pool.contains e = false ∧ ¬ r.StartsUp e m (n + 1)
  /-- Removed are the endpoints that had an exporter and were not wanted. -/
  removed : ∀ e, e ∈ o.removed ↔ (r.state m).pool.contains e = true ∧ e ∉ (r.state m).wanted p.target
  normal : Endpoint.IsNormal o.added ∧ Endpoint.IsNormal o.failed ∧ Endpoint.IsNormal o.removed
  /-- The maker is called once for each endpoint that was wanted and had no exporter, and not for any other. -/
  creates : ∀ e, (r.passDeeds m (n + 1)).count (.create e) =
    if e ∈ (r.state m).wanted p.target ∧ (r.state m).pool.contains e = false then 1 else 0
  refused : ∀ e ∈ o.failed, .created e false ∈ r.passDeeds m (n + 1) ∨ .started e false ∈ r.passDeeds m (n + 1)
  /-- Afterwards the endpoints that have an exporter are those that were wanted and have not failed. -/
  listed : ∀ e, (r.state (n + 1)).pool.contains e = true ↔ e ∈ (r.state m).wanted p.target ∧ e ∉ o.failed
  running : r.AllRunning (n + 1)
  /-- An exporter whose endpoint was wanted is the same as before, and nothing was done with it but exports. -/
  untouched : ∀ e ∈ (r.state m).wanted p.target, ∀ id, (r.state m).pool.find? e = some id →
    (r.state (n + 1)).pool.find? e = some id ∧ Balancer.Untouched (r.state m) (r.state (n + 1)) id
  /-- Whenever its task moves, the lines of what it does are added to the log, and no others. -/
  logged : ∀ i way, m ≤ i → i ≤ n → r.action i = .move t way →
    ∃ lines, (r.state (i + 1)).events = (r.state i).events ++ lines ∧ Balancer.Logs (r.state i) (r.passDeed? i) lines
  /-- The ring is published once, after all that is done to start exporters and before all that is done to stop exporters. -/
  stages : ∃ starts stops, r.passDeeds m (n + 1) = starts ++ .publish :: stops ∧ (∀ d ∈ starts, d.endpoint? ≠ none) ∧
    ∀ d ∈ stops, d.isStop = true
  /-- The ring of the pass is the published one from then on, and the one before until then. -/
  published : ∀ i, m ≤ i → i ≤ n + 1 → (r.state i).ring =
    if .publish ∈ r.passDeeds m i then p.publish.getD (r.state m).ring else (r.state m).ring

section Results

variable {r : Run α} {t : TaskId} {p : Pass} {e : Endpoint} {m n i : Nat} {o : ReconcileOutcome}

theorem Passes.passDeeds_eq (h : r.Passes t p m n o) : r.passDeeds m (n + 1) = r.passDeeds m n := by
  rw [passDeeds, since_succ (Nat.le_of_lt h.later), h.passDeed?_last, Option.toList_none, List.append_nil, ← passDeeds]

/-- What a pass has tried for the endpoints that had no exporter, its starts have brought about when it is over. -/
theorem Passes.tried (h : r.Passes t p m n o) :
    (r.state (n + 1)).Tried ((r.state m).pool.missing ((r.state m).wanted p.target)) o.added o.failed := by
  obtain ⟨retirements, hp, _⟩ := h.concludes
  have hunderWay := h.underWay hp h.later (Nat.le_refl n)
  exact (hunderWay.tried o.added o.failed retirements rfl).passing (r.tended n) (r.grounded n)
    (h.passing (Nat.le_of_lt h.later) (Nat.le_refl n)) hp rfl

/-- What a pass does not want is not listed any more when it is over. -/
theorem Passes.wanted_of_listed (h : r.Passes t p m n o) {id : ExporterId} (hmem : (e, id) ∈ (r.state (n + 1)).pool.current) :
    e ∈ (r.state m).wanted p.target := by
  obtain ⟨retirements, hp, hover, _, hageless, _⟩ := h.concludes
  rw [hageless.current] at hmem
  obtain ⟨hretires, _, hlisted⟩ := h.outside h.later (Nat.le_refl n) hp
  by_contra hout
  obtain ⟨y, hy, rfl⟩ := hretires _ (hlisted _ hmem hout) hout
  obtain ⟨entry, hentry, hsuits⟩ := Balancer.Closes.suits ((r.tended n).matched t _ hp) y hy
  rw [show y.phase = .retired from of_decide_eq_true (List.all_eq_true.1 hover y hy)] at hsuits
  have hendpoint : entry.endpoint = e :=
    Option.some.inj ((Balancer.endpointOf?_eq_some hentry).symm.trans ((r.grounded n).current _ hmem))
  exact ((r.tended n).kept.listed y.id entry hentry).2 (hendpoint ▸ hmem) hsuits

/-- An endpoint has a running exporter when a pass is over if it was wanted and has not failed, and only then it has one. -/
theorem Passes.runs (h : r.Passes t p m n o) (hrunning : r.AllRunning m) :
    (e ∈ (r.state m).wanted p.target ∧ e ∉ o.failed → ∃ id, (r.state (n + 1)).Lists e id .running) ∧
      ((r.state (n + 1)).pool.contains e = true → e ∈ (r.state m).wanted p.target ∧ e ∉ o.failed) := by
  have htried := h.tried
  refine ⟨fun ⟨hwanted, hfailed⟩ => ?_, fun hcontains => ?_⟩
  · rcases hcontains : (r.state m).pool.contains e with _ | _
    · rcases htried.each e (Pool.mem_missing_iff_contains.2 ⟨hwanted, hcontains⟩) with ⟨_, _, id, hlists, _⟩ | ⟨hin, _⟩
      · exact ⟨id, hlists⟩
      · exact absurd hin hfailed
    · obtain ⟨id, hlists⟩ := (r.tended m).kept.lists_of_state? (hrunning e hcontains)
      exact ⟨id, (h.untouched hwanted hlists (Nat.le_succ_of_le (Nat.le_of_lt h.later)) (Nat.le_refl _)).1⟩
  · obtain ⟨id, hmem⟩ := (r.tended (n + 1)).kept.contains_iff.1 hcontains
    refine ⟨h.wanted_of_listed hmem, fun hfailed => ?_⟩
    rcases htried.each e (htried.only e (.inr hfailed)) with ⟨_, hnot, _⟩ | ⟨_, _, hlacks⟩
    · exact hnot hfailed
    · exact hlacks _ hmem rfl

/-- Removed are the endpoints that were listed and not wanted, in order. -/
theorem Passes.removes (h : r.Passes t p m n o) : Endpoint.IsNormal o.removed ∧
    ∀ e, e ∈ o.removed ↔ (r.state m).pool.contains e = true ∧ e ∉ (r.state m).wanted p.target := by
  obtain ⟨retirements, hp, _, hremoved, _⟩ := h.concludes
  obtain ⟨hretires, hretired, _⟩ := h.outside h.later (Nat.le_refl n) hp
  have hkept := (r.tended m).kept
  have hcloses : (r.state n).Closes retirements := (r.tended n).matched t _ hp
  rw [hremoved]
  refine ⟨Endpoint.isNormal_sort ?_, fun e => ?_⟩
  · rw [List.Nodup, List.pairwise_filterMap]
    refine (List.pairwise_map.1 hcloses.once).imp_of_mem (fun {y y'} hy hy' hne e he e' he' heq => hne ?_)
    subst heq
    obtain ⟨x, hlisted, _, hendpoint⟩ := hretired y hy
    obtain ⟨x', hlisted', _, hendpoint'⟩ := hretired y' hy'
    obtain rfl : x = e := Option.some.inj (hendpoint.symm.trans he)
    obtain rfl : x' = x := Option.some.inj (hendpoint'.symm.trans he')
    exact hkept.eq_of_mem hlisted hlisted'
  · rw [Endpoint.sort, List.mem_mergeSort, List.mem_filterMap]
    constructor
    · rintro ⟨y, hy, hendpoint⟩
      obtain ⟨e', hlisted, hout, hendpoint'⟩ := hretired y hy
      obtain rfl : e' = e := Option.some.inj (hendpoint'.symm.trans hendpoint)
      exact ⟨hkept.contains_iff.2 ⟨y.id, hlisted⟩, hout⟩
    · rintro ⟨hcontains, hout⟩
      obtain ⟨id, hmem⟩ := hkept.contains_iff.1 hcontains
      obtain ⟨y, hy, rfl⟩ := hretires _ hmem hout
      obtain ⟨e', hlisted, _, hendpoint⟩ := hretired y hy
      obtain rfl : e' = e :=
        Option.some.inj (((r.grounded m).current _ hlisted).symm.trans ((r.grounded m).current _ hmem))
      exact ⟨y, hy, hendpoint⟩

/-- When a pass is over, what was done since it was let in is what brings it to what it tells. -/
theorem Passes.follows_last (h : r.Passes t p m n o) : ∃ retirements, (PassPhase.retiring o.added o.failed retirements).Follows
    ((r.state m).pool.missing ((r.state m).wanted p.target)) (r.passDeeds m (n + 1)) := by
  obtain ⟨retirements, hp, _⟩ := h.concludes
  exact ⟨retirements, h.passDeeds_eq ▸ h.follows_of_insider? h.later (Nat.le_refl n) hp⟩

/-- What a pass has tried is in one of its two lists, and not in both. -/
theorem Passes.failed_iff_not_added (h : r.Passes t p m n o) (he : e ∈ (r.state m).pool.missing ((r.state m).wanted p.target)) :
    e ∈ o.failed ↔ e ∉ o.added := by
  rcases h.tried.each e he with ⟨hin, hout, _⟩ | ⟨hin, hout, _⟩
  · exact ⟨fun hfailed => absurd hfailed hout, fun hnot => absurd hin hnot⟩
  · exact ⟨fun _ => hout, fun _ => hin⟩

/-- An endpoint is added if its exporter was made and has started well, and only then. -/
theorem Passes.startsUp_iff (h : r.Passes t p m n o) : r.StartsUp e m (n + 1) ↔ e ∈ o.added := by
  obtain ⟨retirements, hfollows⟩ := h.follows_last
  have hmissing := Balancer.nodup_missing (r.state m).pool ((r.state m).wanted p.target)
  rw [StartsUp, ← mem_doneFor (d := .created e true) rfl, ← mem_doneFor (d := .started e true) rfl]
  by_cases he : e ∈ (r.state m).pool.missing ((r.state m).wanted p.target)
  · rcases hfollows.tried hmissing he with ⟨hadded, _, hdone⟩ | ⟨_, hadded, hdone | hdone⟩ <;> simp [hdone, hadded]
  · rw [hfollows.untried he]
    exact ⟨fun hin => (nomatch hin.1), fun hin => absurd (h.tried.only e (.inl hin)) he⟩

theorem Passes.mem_added_iff (h : r.Passes t p m n o) : e ∈ o.added ↔
    e ∈ (r.state m).wanted p.target ∧ (r.state m).pool.contains e = false ∧ r.StartsUp e m (n + 1) := by
  rw [h.startsUp_iff, ← and_assoc, ← Pool.mem_missing_iff_contains]
  exact ⟨fun hin => ⟨h.tried.only e (.inl hin), hin⟩, And.right⟩

/-- Failed is what was wanted and had no exporter and has not started up. -/
theorem Passes.mem_failed_iff (h : r.Passes t p m n o) : e ∈ o.failed ↔
    e ∈ (r.state m).wanted p.target ∧ (r.state m).pool.contains e = false ∧ ¬ r.StartsUp e m (n + 1) := by
  rw [h.startsUp_iff, ← and_assoc, ← Pool.mem_missing_iff_contains]
  constructor
  · intro hin
    have he := h.tried.only e (.inr hin)
    exact ⟨he, (h.failed_iff_not_added he).1 hin⟩
  · rintro ⟨he, hnot⟩
    exact (h.failed_iff_not_added he).2 hnot

/-- The maker is called once for each endpoint that was wanted and had no exporter, and not for any other. -/
theorem Passes.count_create (h : r.Passes t p m n o) : (r.passDeeds m (n + 1)).count (.create e) =
    if e ∈ (r.state m).wanted p.target ∧ (r.state m).pool.contains e = false then 1 else 0 := by
  obtain ⟨retirements, hfollows⟩ := h.follows_last
  have hmissing := Balancer.nodup_missing (r.state m).pool ((r.state m).wanted p.target)
  have hcount : (r.passDeeds m (n + 1)).count (.create e) = (doneFor e (r.passDeeds m (n + 1))).count (.create e) :=
    (List.count_filter (by simp [PassDeed.endpoint?])).symm
  rw [hcount]
  split
  · rename_i he
    rcases hfollows.tried hmissing (Pool.mem_missing_iff_contains.2 he) with ⟨_, _, hdone⟩ | ⟨_, _, hdone | hdone⟩ <;> rw [hdone] <;> simp
  · rename_i he
    rw [hfollows.untried (fun hin => he (Pool.mem_missing_iff_contains.1 hin))]
    rfl

/-- For a failed endpoint the maker or the exporter has refused. -/
theorem Passes.refused (h : r.Passes t p m n o) (he : e ∈ o.failed) :
    .created e false ∈ r.passDeeds m (n + 1) ∨ .started e false ∈ r.passDeeds m (n + 1) := by
  obtain ⟨retirements, hfollows⟩ := h.follows_last
  have hmissing := Balancer.nodup_missing (r.state m).pool ((r.state m).wanted p.target)
  rw [← mem_doneFor (d := .created e false) rfl, ← mem_doneFor (d := .started e false) rfl]
  rcases hfollows.tried hmissing (h.tried.only e (.inr he)) with ⟨_, hnot, _⟩ | ⟨_, _, hdone | hdone⟩
  · exact absurd he hnot
  · simp [hdone]
  · simp [hdone]

/-- All three lists of a pass are in order and name each endpoint once. -/
theorem Passes.normal (h : r.Passes t p m n o) :
    Endpoint.IsNormal o.added ∧ Endpoint.IsNormal o.failed ∧ Endpoint.IsNormal o.removed := by
  obtain ⟨retirements, hfollows⟩ := h.follows_last
  obtain ⟨hadded, hfailed⟩ := hfollows.normal (Balancer.nodup_missing (r.state m).pool ((r.state m).wanted p.target))
  exact ⟨hadded, hfailed, h.removes.1⟩

/-- A pass publishes its ring once, between all that it does to start exporters and all that it does to stop exporters. -/
theorem Passes.stages (h : r.Passes t p m n o) : ∃ starts stops, r.passDeeds m (n + 1) = starts ++ .publish :: stops ∧
    (∀ d ∈ starts, d.endpoint? ≠ none) ∧ ∀ d ∈ stops, d.isStop = true := by
  obtain ⟨_, _, starts, stops, _, _, hstarts, _, _, heq, hstops⟩ := h.follows_last
  refine ⟨starts, stops, heq, fun d hd hnone => ?_, hstops⟩
  obtain ⟨a, _, hsome⟩ := hstarts.only d hd
  rw [hnone] at hsome
  cases hsome

/-- In its last step a pass leaves the ring as it is, so the published one stays until the pass is over. -/
theorem Passes.ring_eq_published (h : r.Passes t p m n o) (hmi : m ≤ i) (hin : i ≤ n + 1) : (r.state i).ring =
    if .publish ∈ r.passDeeds m i then p.publish.getD (r.state m).ring else (r.state m).ring := by
  rcases Nat.lt_or_eq_of_le hin with hin | rfl
  · exact h.ring_eq_ite hmi (Nat.le_of_lt_succ hin)
  · obtain ⟨_, _, _, _, _, hring⟩ := h.concludes
    rw [hring, h.passDeeds_eq]
    exact h.ring_eq_ite (Nat.le_of_lt h.later) (Nat.le_refl n)

/-- Afterwards the endpoints that have an exporter are those that were wanted and have not failed. -/
theorem Passes.contains_iff (h : r.Passes t p m n o) (hrunning : r.AllRunning m) :
    (r.state (n + 1)).pool.contains e = true ↔ e ∈ (r.state m).wanted p.target ∧ e ∉ o.failed := by
  refine ⟨(h.runs hrunning).2, fun hin => ?_⟩
  obtain ⟨id, hlists⟩ := (h.runs hrunning).1 hin
  exact (r.tended (n + 1)).kept.contains_iff.2 ⟨id, hlists.1⟩

/-- If all exporters run when a pass is let in, they all run when it is over. -/
theorem Passes.allRunning (h : r.Passes t p m n o) (hrunning : r.AllRunning m) : r.AllRunning (n + 1) := by
  intro e hcontains
  obtain ⟨id, hlists⟩ := (h.runs hrunning).1 ((h.runs hrunning).2 hcontains)
  exact ((r.tended (n + 1)).kept.lists_iff.1 hlists).2

/-- An exporter whose endpoint is wanted is found and left alone until a pass is over. -/
theorem Passes.find?_eq (h : r.Passes t p m n o) (he : e ∈ (r.state m).wanted p.target) {id : ExporterId}
    (hfind : (r.state m).pool.find? e = some id) :
    (r.state (n + 1)).pool.find? e = some id ∧ Balancer.Untouched (r.state m) (r.state (n + 1)) id := by
  obtain ⟨s, hlists⟩ := (r.grounded m).exists_lists hfind
  obtain ⟨hlists', huntouched⟩ := h.untouched he hlists (Nat.le_succ_of_le (Nat.le_of_lt h.later)) (Nat.le_refl _)
  exact ⟨((r.tended (n + 1)).kept.lists_iff.1 hlists').1, huntouched⟩

/-- A pass that is let in while all exporters run changes exactly what it has to. -/
theorem delta_of_passes (h : r.Passes t p m n o) (hrunning : r.AllRunning m) : r.Delta t p m n o where
  added _ := h.mem_added_iff
  failed _ := h.mem_failed_iff
  removed := h.removes.2
  normal := h.normal
  creates _ := h.count_create
  refused _ := h.refused
  listed _ := h.contains_iff hrunning
  running := h.allRunning hrunning
  untouched _ he _ hfind := h.find?_eq he hfind
  logged _ _ hmi hin haction := h.logs hmi hin haction
  stages := h.stages
  published _ := h.ring_eq_published

/-- What a pass tells depends on nothing but what it wants, what is there when it is let in, and which exporters could be made and
started. -/
theorem Delta.eq_of_same {β : Type} {r' : Run β} {t' : TaskId} {p' : Pass} {m' n' : Nat} {o' : ReconcileOutcome}
    (h : r.Delta t p m n o) (h' : r'.Delta t' p' m' n' o') (hwanted : ∀ e, e ∈ (r.state m).wanted p.target ↔ e ∈ (r'.state m').wanted p'.target)
    (hlisted : ∀ e, (r.state m).pool.contains e = (r'.state m').pool.contains e)
    (hstarts : ∀ e ∈ (r.state m).wanted p.target, (r.state m).pool.contains e = false →
      (r.StartsUp e m (n + 1) ↔ r'.StartsUp e m' (n' + 1))) : o = o' := by
  have hadded : o.added = o'.added := h.normal.1.eq_of_mem_iff h'.normal.1 (fun e => by
    rw [h.added, h'.added, ← hwanted, ← hlisted]
    exact and_congr_right (fun he => and_congr_right (hstarts e he)))
  have hfailed : o.failed = o'.failed := h.normal.2.1.eq_of_mem_iff h'.normal.2.1 (fun e => by
    rw [h.failed, h'.failed, ← hwanted, ← hlisted]
    exact and_congr_right (fun he => and_congr_right (fun hnone => not_congr (hstarts e he hnone))))
  have hremoved : o.removed = o'.removed := h.normal.2.2.eq_of_mem_iff h'.normal.2.2 (fun e => by
    rw [h.removed, h'.removed, ← hwanted, ← hlisted])
  obtain ⟨added, removed, failed⟩ := o
  rw [ReconcileOutcome.mk.injEq]
  exact ⟨hadded, hremoved, hfailed⟩

/-! ## Passes after each other -/

theorem ageless_of_free {j : Nat} (hij : i ≤ j) (hfree : ∀ k, i ≤ k → k ≤ j → (r.state k).pool.gate.inside = none) :
    Balancer.Ageless (r.state i) (r.state j) := by
  induction j, hij using Nat.le_induction with
  | base => exact .of_eq rfl rfl rfl
  | succ j hij ih =>
    refine (ih (fun k hik hkj => hfree k hik (Nat.le_succ_of_le hkj))).trans ?_
    have hnobody := Balancer.insider?_eq_none (hfree j hij (Nat.le_succ j))
    have hnobody' := Balancer.insider?_eq_none (hfree (j + 1) (Nat.le_succ_of_le hij) (Nat.le_refl _))
    rcases r.passing_or_drops j with hpassing | ⟨_, _, _, hdrops⟩
    · cases hpassing with
      | aside ageless _ _ _ => exact ageless
      | enter _ _ after _ _ _ _ => cases hnobody'.symm.trans after
      | attempt before _ _ _ _ _ _ _ => cases hnobody.symm.trans before
      | publish before _ _ _ _ _ => cases hnobody.symm.trans before
      | retire before _ _ _ _ _ _ _ _ => cases hnobody.symm.trans before
      | conclude before _ _ _ _ _ _ => cases hnobody.symm.trans before
    · exact hdrops.ageless

/-- While no exporter ages, all that are listed run as long as all that are listed ran. -/
theorem allRunning_of_ageless (hageless : Balancer.Ageless (r.state m) (r.state n)) (hrunning : r.AllRunning m) : r.AllRunning n := by
  intro e hcontains
  rw [Pool.contains, Pool.find?, hageless.current] at hcontains
  obtain ⟨id, hlists⟩ := (r.tended m).kept.lists_of_state? (hrunning e hcontains)
  exact ((r.tended n).kept.lists_iff.1 (hlists.ageless hageless)).2

/-- A pass for the same endpoints, let in before another one changes the pool, starts only what has failed before and retires nothing. -/
theorem Delta.of_again {t' : TaskId} {p' : Pass} {m' n' : Nat} {o' : ReconcileOutcome} (h : r.Delta t p m n o)
    (h' : r.Delta t' p' m' n' o')
    (hageless : Balancer.Ageless (r.state (n + 1)) (r.state m'))
    (hwanted : ∀ e, e ∈ (r.state m).wanted p.target ↔ e ∈ (r.state m').wanted p'.target) :
    (∀ e, e ∈ o.failed ↔ e ∈ o'.added ∨ e ∈ o'.failed) ∧ o'.removed = [] := by
  have hlisted : ∀ e, (r.state m').pool.contains e = true ↔ e ∈ (r.state m).wanted p.target ∧ e ∉ o.failed := fun e => by
    rw [← h.listed, Pool.contains, Pool.contains, Pool.find?, Pool.find?, hageless.current]
  refine ⟨fun e => ?_, List.eq_nil_iff_forall_not_mem.2 (fun e he => ?_)⟩
  · rw [h'.added, h'.failed, ← hwanted, ← Bool.not_eq_true, hlisted]
    have hin := (h.failed e).1
    tauto
  · obtain ⟨hcontains, hout⟩ := (h'.removed e).1 he
    exact hout ((hwanted e).1 ((hlisted e).1 hcontains).1)

/-! ## Passes that are asked for -/

section Requested

variable {k : Nat} {endpoints : List Endpoint} (hrequest : r.action k = .request (.reconcile endpoints))

include hrequest

/-- Until it is let in, the pass of a request to reconcile the pool is as it was asked for. -/
theorem waits_of_request (hkm : k < m) (hfree : (r.state m).pool.gate.inside = none)
    (hd : (r.state m).duty? (r.state k).nextTask = some (.pass p)) : p = Pass.of endpoints := by
  have hqueued : p.phase = .queued := by
    by_contra hne
    cases hfree.symm.trans ((r.guarded m).turn _ p hd hne)
  have hover : ∀ {outcome : Outcome α}, (r.state m).task? (r.state k).nextTask ≠ some ⟨[], outcome⟩ := fun {outcome} ht => by
    rw [Balancer.duty?, Balancer.works_of_task? ht] at hd
    cases hd
  rcases requested hrequest hkm with ⟨phase, ht⟩ | ht | ⟨_, _, _, _, _, houtcome⟩
  · have heq := Balancer.pass_eq_of_duty? (Balancer.duty?_of_works (Balancer.works_of_task? ht) rfl) hd
    subst heq
    rw [show phase = .queued from hqueued]
    rfl
  · exact absurd ht hover
  · exact absurd (task?_of_outcome? houtcome) hover

/-- If its task tells in a step what it did, the pass of a request to reconcile the pool was let in before and is over with that step. -/
theorem passes_of_last {phase : PassPhase} (hkn : k < n)
    (hbefore : (r.state n).task? (r.state k).nextTask = some ⟨[.pass { Pass.of endpoints with phase := phase }], .done⟩)
    (hafter : (r.state (n + 1)).outcome? (r.state k).nextTask = some (.reconciled o)) :
    ∃ m, k < m ∧ r.Passes (r.state k).nextTask (Pass.of endpoints) m n o := by
  have hover := task?_of_outcome? hafter
  rcases goes_on hbefore with ⟨_, ht⟩ | ht | ⟨o', ⟨q, _, hq, _, _, _, hleaves⟩, _⟩
  · cases hover.symm.trans ht
  · cases hover.symm.trans ht
  obtain ⟨m, hunderWay⟩ := r.underWay hq
  obtain ⟨hmn, hfree, ⟨p, hd, _⟩, _⟩ := hunderWay.begun
  have hkm : k < m := by
    by_contra hmk
    obtain ⟨q, hq, hne⟩ := (r.guarded (k + 1)).inside _ (hunderWay.inside (k + 1) (by omega) hkn)
    have hd := Balancer.duty?_of_works (Balancer.works_of_task? (pass_of_request hrequest)) rfl
    exact hne (congrArg Pass.phase (Balancer.pass_eq_of_duty? hd hq))
  refine ⟨m, hkm, hmn, hfree, waits_of_request hrequest hkm hfree hd ▸ hd, hunderWay.inside, hleaves, fun habandon => ?_, ?_⟩
  · rw [state, habandon, Balancer.perform, Balancer.task?_abandon_self, hbefore] at hover
    cases hover
  · rw [hover]
    rfl

end Requested

/-- A request to reconcile the pool that has told what it did has had a pass of its own. -/
theorem passes_of_request {k : Nat} {endpoints : List Endpoint} (hrequest : r.action k = .request (.reconcile endpoints)) (hkn : k < n)
    (houtcome : (r.state n).outcome? (r.state k).nextTask = some (.reconciled o)) :
    ∃ m j, k < m ∧ j < n ∧ r.Passes (r.state k).nextTask (Pass.of endpoints) m j o := by
  induction n, hkn using Nat.le_induction with
  | base => cases (task?_of_outcome? houtcome).symm.trans (pass_of_request hrequest)
  | succ n hkn ih =>
    rcases requested hrequest hkn with ⟨phase, ht⟩ | ht | ⟨_, o', _, _, _, houtcome'⟩
    · obtain ⟨m, hkm, hpasses⟩ := passes_of_last hrequest hkn ht houtcome
      exact ⟨m, n, hkm, Nat.lt_succ_self n, hpasses⟩
    · cases (outcome?_of_le (Nat.le_succ n) (outcome?_of_task? ht)).symm.trans houtcome
    · have hsame := outcome?_of_le (Nat.le_succ n) houtcome'
      obtain ⟨m, j, hkm, hjn, hpasses⟩ := ih (houtcome' ▸ hsame.symm.trans houtcome)
      exact ⟨m, j, hkm, Nat.lt_succ_of_lt hjn, hpasses⟩

end Results

/-- What one pass of a run changes, whatever the calls of the maker and of the exporters come to and in whichever order. -/
structure Settles (r : Run α) (t : TaskId) (p : Pass) (m n : Nat) (o : ReconcileOutcome) : Prop where
  delta : r.Delta t p m n o
  /-- A pass of any run for the same endpoints tells the same, if the same endpoints had an exporter when it was let in and the same ones
  of the others got one. -/
  determined : ∀ (r' : Run α) t' p' m' n' o', r'.Passes t' p' m' n' o' → r'.AllRunning m' →
    (∀ e, e ∈ (r.state m).wanted p.target ↔ e ∈ (r'.state m').wanted p'.target) →
    (∀ e, (r.state m).pool.contains e = (r'.state m').pool.contains e) →
    (∀ e ∈ (r.state m).wanted p.target, (r.state m).pool.contains e = false →
      (r.StartsUp e m (n + 1) ↔ r'.StartsUp e m' (n' + 1))) → o = o'
  /-- The next pass, if it is for the same endpoints, starts only what has failed and retires nothing. -/
  again : ∀ t' p' m' n' o', r.Passes t' p' m' n' o' → n < m' → (∀ i, n < i → i ≤ m' → (r.state i).pool.gate.inside = none) →
    (∀ e, e ∈ (r.state m).wanted p.target ↔ e ∈ (r.state m').wanted p'.target) →
      (∀ e, e ∈ o.failed ↔ e ∈ o'.added ∨ e ∈ o'.failed) ∧ o'.removed = []

/-- In every run, a request to reconcile the pool that has told what it did has had a pass, and every pass that is let in while all exporters
run and goes on to its end changes exactly what it has to. -/
theorem settles (r : Run α) :
    (∀ k n endpoints o, r.action k = .request (.reconcile endpoints) → k < n →
      (r.state n).outcome? (r.state k).nextTask = some (.reconciled o) →
        ∃ m j, k < m ∧ j < n ∧ r.Passes (r.state k).nextTask (Pass.of endpoints) m j o) ∧
      ∀ t p m n o, r.Passes t p m n o → r.AllRunning m → r.Settles t p m n o := by
  refine ⟨fun k n endpoints o hrequest hkn houtcome => passes_of_request hrequest hkn houtcome, fun t p m n o h hrunning => ?_⟩
  have hdelta := delta_of_passes h hrunning
  refine ⟨hdelta, fun r' t' p' m' n' o' h' hrunning' hwanted hlisted hstarts => ?_, fun t' p' m' n' o' h' hlater hfree hwanted => ?_⟩
  · exact hdelta.eq_of_same (delta_of_passes h' hrunning') hwanted hlisted hstarts
  · have hageless := ageless_of_free hlater hfree
    exact hdelta.of_again (delta_of_passes h' (allRunning_of_ageless hageless hdelta.running)) hageless hwanted

/-- A run in which the pool is reconciled with one endpoint and then with another one, while the exporter of the first one refuses to stop. -/
def swapped : Run Unit where
  options := ⟨⟨1, .ofSeconds 30, .ofSeconds 30⟩, none, none⟩
  adapter := ⟨.logs, fun _ _ => none⟩
  resolver := .new .fixed []
  backends := ⟨[("a", { Behaviour.smooth with stop := ⟨0, .always, none⟩ })]⟩
  action := fun n =>
    if n = 0 then .request (.reconcile [⟨"a"⟩])
    else if n < 7 then .move 0 0
    else if n = 7 then .request (.reconcile [⟨"b"⟩])
    else .move 1 0

/-- In that run, the second pass starts the one exporter and retires the other one. -/
theorem settles_swapped : ∃ m j, 7 < m ∧ j < 17 ∧
    swapped.Passes 1 (Pass.of [⟨"b"⟩]) m j ⟨[⟨"b"⟩], [⟨"a"⟩], []⟩ ∧ swapped.AllRunning m ∧
    swapped.Settles 1 (Pass.of [⟨"b"⟩]) m j ⟨[⟨"b"⟩], [⟨"a"⟩], []⟩ := by
  have hall : (swapped.state 7).nextTask = 1 ∧
      reconciled? ((swapped.state 17).outcome? 1) = some ⟨[⟨"b"⟩], [⟨"a"⟩], []⟩ ∧
      ∀ i < 17, (swapped.state i).pool.gate.inside = none → swapped.AllRunning i := by
    decide +kernel
  obtain ⟨hnext, houtcome, hrunning⟩ := hall
  obtain ⟨hrequested, hsettles⟩ := swapped.settles
  obtain ⟨m, j, hm, hj, hpasses⟩ := hrequested 7 17 [⟨"b"⟩] _ rfl (by decide) (hnext ▸ eq_of_reconciled? houtcome)
  rw [hnext] at hpasses
  have hallRunning := hrunning m (Nat.lt_trans hpasses.later hj) hpasses.free
  exact ⟨m, j, hm, hj, hpasses, hallRunning, hsettles 1 _ m j _ hpasses hallRunning⟩

end Run

end TelemetryRouter
