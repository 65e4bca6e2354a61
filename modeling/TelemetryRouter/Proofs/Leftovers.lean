import TelemetryRouter.Proofs.Rounds

/-!
# Passes that are given up

A pass may be given up anywhere, also once it was let in. It frees the gate and leaves its exporters where they are, so one pass at a
time is under way as before, and the pool still lists the exporters that are not stopped. But an exporter that is being started or
stopped may be one that nobody tends any more: a pass that was given up has left it (`tended_or_left`).
-/

namespace TelemetryRouter

variable {α : Type}

namespace Balancer

/-! ## Passes that are given up -/

/-- What is so when the pass of the task inside has been given up. -/
structure Drops (b b' : Balancer α) (t : TaskId) (p : Pass) : Prop where
  before : b.insider? = some (t, p)
  ageless : Ageless b b'
  free : b'.pool.gate.inside = none
  guarded : b'.Guarded

section Drop

variable {b b' : Balancer α}

/-- Giving up a pass that was let in frees the gate and leaves the exporters where they are. -/
theorem Guarded.drops (hb : b.Guarded) (hg : b.Grounded) {t : TaskId} {p : Pass} {rest : List (Work α)}
    (hw : b.works t = .pass p :: rest) (hp : p.phase ≠ .queued)
    (h : Undisturbed ((dropWork t b (.pass p)).withWorks t []) b') : Drops b b' t p := by
  have hd := duty?_of_works hw rfl
  have hinside := hb.turn t p hd hp
  have hr : Reworks b ((dropWork t b (.pass p)).withWorks t []) t [] := reworks_withWorks (lt_of_works hw) rfl
  have hageless : Ageless b ((dropWork t b (.pass p)).withWorks t []) := (ageless_dropWork hg hd).trans (.of_eq rfl rfl rfl)
  have hfree : b'.pool.gate.inside = none := (congrArg Core.inside h.core).trans (if_pos hinside)
  have hduty : ∀ t' q, b'.duty? t' = some (.pass q) →
      ((dropWork t b (.pass p)).withWorks t []).duty? t' = some (.pass q) ∨ q.phase = .queued := by
    intro t' q hq
    rcases h.duty t' with hsame | ⟨_, w, hw', hfresh⟩
    · exact .inl (hsame.symm.trans hq)
    · obtain rfl : w = .pass q := Option.some.inj (hw'.symm.trans hq)
      exact .inr hfresh.1
  refine ⟨insider?_eq_some_iff.2 ⟨hinside, hd⟩, hageless.trans (Aside.of_undisturbed h).ageless, hfree,
    hb.leave hinside hfree (fun q hq => ?_) (fun t' hne q hq => ?_)⟩
  · rcases hduty t q hq with hq | hqueued
    · rw [hr.duty?_inert (fun w hw => nomatch hw)] at hq
      cases hq
    · exact hqueued
  · rcases hduty t' q hq with hq | hqueued
    · exact .inl (by rwa [hr.duty?_of_ne hne] at hq)
    · exact .inr hqueued

/-- A change is beside the passes, or a step of one, or it gives up the one inside. -/
theorem Change.aside_or_pass_or_drops (hb : b.Guarded) (hg : b.Grounded) {a : Action α} (h : Change b a b') :
    Aside b b' ∨ (∃ t way p rest, a = .move t way ∧ b.works t = .pass p :: rest ∧ (∀ w ∈ rest, w.isInert = true) ∧
      PassStep b t rest p b') ∨ ∃ t p, a = .abandon t ∧ Drops b b' t p := by
  by_cases hgiven : ∃ t p, a = .abandon t ∧ b.duty? t = some (.pass p) ∧ p.phase ≠ .queued
  · obtain ⟨t, p, rfl, hd, hp⟩ := hgiven
    cases h with
    | calm undisturbed => exact .inl (.of_undisturbed undisturbed)
    | abandon works duty undisturbed =>
      obtain rfl := Option.some.inj ((duty?_of_works works duty).symm.trans hd)
      exact .inr (.inr ⟨t, p, rfl, hb.drops hg works hp undisturbed⟩)
  · refine (h.aside_or_pass hg hb.inside (fun t p ha hd => ?_)).imp_right .inl
    by_contra hp
    exact hgiven ⟨t, p, ha, hd, hp⟩

end Drop

end Balancer

namespace Run

/-- In every state of every run the passes are guarded. -/
theorem guarded (r : Run α) : ∀ n, (r.state n).Guarded
  | 0 => Balancer.guarded_new _ _ _ _
  | n + 1 => by
    have hb := r.guarded n
    rcases (r.change n).aside_or_pass_or_drops hb (r.grounded n) with haside | ⟨_, _, _, _, _, hw, hrest, hstep⟩ | ⟨_, _, _, hdrops⟩
    · exact hb.aside haside
    · exact hb.passStep hw hrest hstep
    · exact hdrops.guarded

/-- Every step of a run is one of the pass inside, or leaves it alone, or gives it up. -/
theorem passing_or_drops (r : Run α) (n : Nat) : Balancer.Passing (r.state n) (r.state (n + 1)) ∨
    ∃ t p, r.action n = .abandon t ∧ Balancer.Drops (r.state n) (r.state (n + 1)) t p := by
  have hb := r.guarded n
  have hg := r.grounded n
  rcases (r.change n).aside_or_pass_or_drops hb hg with haside | ⟨_, _, _, _, _, hw, _, hstep⟩ | hdrops
  · rcases (r.change n).sameRings_or_pass hg with hsame | ⟨_, _, _, hw, _, hstep⟩
    · exact .inl (.aside haside.ageless (haside.insider?_eq hb) hsame.ring (fun _ => haside.attempting_iff))
    · exact .inl (hstep.passing hb hw)
  · exact .inl (hstep.passing hb hw)
  · exact .inr hdrops

end Run

namespace Balancer

/-! ## What the pass inside has brought about -/

/-- The starts of a pass are for different endpoints, and as far as the pool says. -/
structure Opens (b : Balancer α) (attempts : List Attempt) : Prop where
  once : (attempts.map Attempt.endpoint).Nodup
  reached : ∀ a ∈ attempts, b.Reached a.endpoint a.phase
  starting : ∀ a ∈ attempts, ∀ id ∈ a.phase.exporter?, ∀ entry, b.pool.entry? id = some entry → entry.state = .starting

/-- The retirements of a pass are of different exporters, and as far as the pool says. -/
structure Closes (b : Balancer α) (retirements : List Retirement) : Prop where
  once : (retirements.map Retirement.id).Nodup
  suits : ∀ r ∈ retirements, ∃ entry, b.pool.entry? r.id = some entry ∧ r.phase.Suits entry

end Balancer

/-- Whether a pass is as far as the pool says. -/
def PassPhase.Matches (b : Balancer α) : PassPhase → Prop
  | .queued => True
  | .adding _ attempts => b.Opens attempts
  | .retiring _ _ retirements => b.Closes retirements

namespace Balancer

/-- The pool lists the exporters that are not stopped, and the pass inside is as far as the pool says. -/
structure Tended (b : Balancer α) : Prop where
  kept : b.Kept
  matched : ∀ t p, b.insider? = some (t, p) → p.phase.Matches b

section Matches

variable {b c : Balancer α}

/-- Starts are as far as they were as long as no exporter ages. -/
theorem Opens.ageless {attempts : List Attempt} (hs : b.Opens attempts) (h : Ageless b c) : c.Opens attempts where
  once := hs.once
  reached := fun a ha => (hs.reached a ha).ageless h
  starting := fun a ha id hid entry' he' => by
    obtain ⟨entry, he, hlife⟩ := h.entry_before he'
    rw [hlife.state]
    exact hs.starting a ha id hid entry he

theorem suits_of_sameLife {phase : RetirementPhase} {entry entry' : Entry} (h : phase.Suits entry) (hlife : entry'.SameLife entry) :
    phase.Suits entry' := by
  cases phase <;> simpa only [RetirementPhase.Suits, hlife.state] using h

/-- Retirements are as far as they were as long as no exporter ages. -/
theorem Closes.ageless {retirements : List Retirement} (hr : b.Closes retirements) (h : Ageless b c) : c.Closes retirements where
  once := hr.once
  suits := fun x hx => by
    obtain ⟨entry, he, hsuits⟩ := hr.suits x hx
    obtain ⟨entry', he', hlife⟩ := h.entries x.id entry he
    exact ⟨entry', he', suits_of_sameLife hsuits hlife⟩

/-- A pass is as far as it was as long as no exporter ages. -/
theorem matches_ageless {phase : PassPhase} (hmatches : phase.Matches b) (h : Ageless b c) : phase.Matches c := by
  cases phase with
  | queued => trivial
  | adding wanted attempts => exact Opens.ageless hmatches h
  | retiring added failed retirements => exact Closes.ageless hmatches h

/-- The starts of a pass that has just been let in are for endpoints that have no exporter. -/
theorem opens_missing (b : Balancer α) (wanted : List Endpoint) : b.Opens ((b.pool.missing wanted).map (fun e => ⟨e, .pending⟩)) where
  once := by
    rw [map_endpoint_missing]
    exact nodup_missing b.pool wanted
  reached := fun a ha => by
    obtain ⟨e, he, rfl⟩ := List.mem_map.1 ha
    exact ne_of_not_contains (by simpa using (List.mem_filter.1 he).2)
  starting := fun a ha id hid => by
    obtain ⟨e, _, rfl⟩ := List.mem_map.1 ha
    cases hid

/-- A start refers to an exporter only as long as that is being started. -/
theorem AttemptStep.starting {e : Endpoint} {phase phase' : AttemptPhase} (h : AttemptStep b e phase c phase') :
    ∀ id ∈ phase'.exporter?, ∀ entry, c.pool.entry? id = some entry → entry.state = .starting := by
  intro id hid entry he
  cases h with
  | make made _ _ _ =>
    obtain rfl := Option.some.inj hid
    rcases entry?_of_make made he with ⟨_, hnew⟩ | ⟨_, rfl⟩
    · exact absurd rfl hnew
    · rfl
  | _ => cases hid

/-- After a step of one of them, the starts of a pass are as far as the pool says. -/
theorem Opens.attemptStep {attempts : List Attempt} {way : Nat} {a a' : Attempt} (hs : b.Opens attempts)
    (hat : attempts[way]? = some a) (hendpoint : a'.endpoint = a.endpoint)
    (hown : ∀ x ∈ attempts, ∀ id ∈ x.phase.exporter?, b.endpointOf? id = some x.endpoint)
    (h : AttemptStep b a.endpoint a.phase c a'.phase) : c.Opens (attempts.set way a') := by
  obtain ⟨others, hmem, hmem', hne, hnodup⟩ := mem_set_of_key hat hendpoint hs.once
  have ha : a ∈ attempts := List.mem_of_getElem? hat
  refine ⟨hnodup, fun x hx => ?_, fun x hx id hid entry he => ?_⟩
  · rcases (hmem' x).1 hx with rfl | hx
    · rw [hendpoint]
      exact h.reached (hs.reached a ha)
    · exact h.reached_of_ne (hne x hx) (hs.starting a ha) (hs.reached x ((hmem x).2 (.inr hx)))
  · rcases (hmem' x).1 hx with rfl | hx
    · exact h.starting id hid entry he
    · have hx' := (hmem x).2 (.inr hx)
      have hother : ∀ {phase : AttemptPhase}, (∀ y ∈ phase.exporter?, c.endpointOf? y = some a.endpoint) → phase.exporter? ≠ some id :=
        fun hphase heq => by
          have hboth := (h.keeps id x.endpoint (hown x hx' id hid)).symm.trans (hphase id heq)
          exact hne x hx (Option.some.inj hboth)
      refine hs.starting x hx' id hid entry (h.entry?_before (hother (fun y hy => ?_)) (hother h.grounded) he)
      exact h.keeps y a.endpoint (hown a ha y hy)

/-- The retirements that a pass begins with are of exporters that are not stopped. -/
theorem Kept.closes (hk : b.Kept) (hg : b.Grounded) (wanted : List Endpoint) :
    b.Closes ((b.pool.extra wanted).map (fun id => ⟨id, .pending⟩)) where
  once := hk.nodup_extra hg wanted
  suits := fun r hr => by
    obtain ⟨id, hid, rfl⟩ := List.mem_map.1 hr
    obtain ⟨x, hx, rfl⟩ := List.mem_map.1 hid
    have hmem : x ∈ b.pool.current := (List.mem_filter.1 hx).1
    obtain ⟨entry, he, hendpoint⟩ := entry?_of_endpointOf? (hg.current x hmem)
    exact ⟨entry, he, (hk.listed x.2 entry he).2 (hendpoint ▸ hmem)⟩

/-- A step of a retirement brings its exporter into the stage that it says. -/
theorem RetirementStep.suits {id : ExporterId} {entry : Entry} {phase phase' : RetirementPhase} (hsuits : phase.Suits entry)
    (h : RetirementStep b id entry phase c phase') : ∃ new, c.pool.entry? id = some new ∧ phase'.Suits new := by
  cases h with
  | mark touches _ => exact ⟨_, touches.after, rfl⟩
  | drain before after touches _ =>
    have hstate := (RetirementPhase.suits_iff_of_deadline? before entry).1 hsuits
    exact ⟨_, touches.after, (RetirementPhase.suits_iff_of_deadline? after _).2 hstate⟩
  | close _ touches _ => exact ⟨_, touches.after, hsuits⟩
  | giveUp _ _ touches _ => exact ⟨_, touches.after, hsuits⟩
  | leave _ touches _ => exact ⟨_, touches.after, rfl⟩

/-- After a step of one of them, the retirements of a pass are as far as the pool says. -/
theorem Closes.retirementStep {retirements : List Retirement} {way : Nat} {r r' : Retirement} {entry : Entry}
    (hr : b.Closes retirements) (hat : retirements[way]? = some r) (hid : r'.id = r.id) (made : b.pool.entry? r.id = some entry)
    (h : RetirementStep b r.id entry r.phase c r'.phase) : c.Closes (retirements.set way r') := by
  obtain ⟨others, hmem, hmem', hne, hnodup⟩ := mem_set_of_key hat hid hr.once
  obtain ⟨entry₀, he₀, hsuits⟩ := hr.suits r (List.mem_of_getElem? hat)
  obtain rfl := Option.some.inj (made.symm.trans he₀)
  refine ⟨hnodup, fun x hx => ?_⟩
  rcases (hmem' x).1 hx with rfl | hx
  · rw [hid]
    exact h.suits hsuits
  · obtain ⟨entry', he', hsuits'⟩ := hr.suits x ((hmem x).2 (.inr hx))
    exact ⟨entry', (h.entry?_of_ne (hne x hx)).trans he', hsuits'⟩

/-- The retirement of an exporter finds it as far as the pool says. -/
theorem Closes.suits_of_made {retirements : List Retirement} (hr : b.Closes retirements) {r : Retirement} (hmem : r ∈ retirements)
    {entry : Entry} (made : b.pool.entry? r.id = some entry) : r.phase.Suits entry := by
  obtain ⟨entry', he, hsuits⟩ := hr.suits r hmem
  obtain rfl := Option.some.inj (made.symm.trans he)
  exact hsuits

/-- The exporters that the starts of the pass inside refer to are those of their endpoints. -/
theorem Grounded.endpointOf?_of_adding (hg : b.Grounded) {t : TaskId} {p : Pass} (hp : b.insider? = some (t, p))
    {wanted : List Endpoint} {attempts : List Attempt} (hphase : p.phase = .adding wanted attempts) :
    ∀ x ∈ attempts, ∀ id ∈ x.phase.exporter?, b.endpointOf? id = some x.endpoint := by
  obtain ⟨target, publish, phase⟩ := p
  dsimp only at hphase
  subst hphase
  exact hg.duties t _ (insider?_eq_some_iff.1 hp).2

/-- A step of the pass inside leaves the pool and the pass as far as each other. -/
theorem Tended.passing {b' : Balancer α} (hb : b.Tended) (hg : b.Grounded) (h : Passing b b') : b'.Tended := by
  have hafter : ∀ {t : TaskId} {p : Pass} {c : Balancer α}, b'.insider? = some (t, p) → c.Kept → p.phase.Matches c → Ageless c b' →
      b'.Tended := fun hp hkept hmatches hageless =>
    ⟨hkept.ageless hageless, fun t' p' hp' => by
      obtain ⟨rfl, rfl⟩ := insider?_inj hp hp'
      exact matches_ageless hmatches hageless⟩
  cases h with
  | aside ageless inside _ _ =>
    exact ⟨hb.kept.ageless ageless, fun t p hp => matches_ageless (hb.matched t p (inside ▸ hp)) ageless⟩
  | @enter t p wanted attempts _ _ after _ attempts_eq ageless _ =>
    refine hafter after hb.kept ?_ ageless
    rw [attempts_eq]
    exact b.opens_missing wanted
  | @attempt t p wanted attempts way a a' c before phase after at_way endpoint step ageless _ =>
    have hopens := hb.matched t p before
    rw [phase] at hopens
    have ho : b.Opens attempts := hopens
    have hmem := List.mem_of_getElem? at_way
    have hown := hg.endpointOf?_of_adding before phase
    refine hafter after (hb.kept.attemptStep step (fun hunmade x hx => ?_) (fun id hid entry he => ⟨ho.starting a hmem id hid entry he, ?_⟩))
      (ho.attemptStep at_way endpoint hown step) ageless
    · have hreached := ho.reached a hmem
      generalize a.phase = phase₀ at hunmade hreached
      cases phase₀ with
      | pending => exact hreached x hx
      | creating _ _ _ => exact hreached x hx
      | _ => cases hunmade
    · exact Option.some.inj ((endpointOf?_eq_some he).symm.trans (hown a hmem id hid))
  | @publish t p wanted attempts before phase after _ ageless _ =>
    exact hafter after hb.kept (hb.kept.closes hg wanted) ageless
  | @retire t p added failed retirements way r r' entry c before phase after at_way id made step ageless _ =>
    have hcloses := hb.matched t p before
    rw [phase] at hcloses
    have hc : b.Closes retirements := hcloses
    exact hafter after (hb.kept.retirementStep (hc.suits_of_made (List.mem_of_getElem? at_way) made) step)
      (hc.retirementStep at_way id made step) ageless
  | conclude _ _ after _ ageless _ _ =>
    refine ⟨hb.kept.ageless ageless, fun t p hp => ?_⟩
    rw [insider?_eq_none after] at hp
    cases hp

end Matches

end Balancer

namespace Run

/-- In every state of every run the pool and the pass inside are as far as each other. -/
theorem tended (r : Run α) : ∀ n, (r.state n).Tended
  | 0 => ⟨(Balancer.orderly_new _ _ _ _).kept, fun _ _ hp => nomatch hp⟩
  | n + 1 => by
    rcases r.passing_or_drops n with hpassing | ⟨t, p, _, hdrops⟩
    · exact (r.tended n).passing (r.grounded n) hpassing
    · refine ⟨(r.tended n).kept.ageless hdrops.ageless, fun t p hp => ?_⟩
      rw [Balancer.insider?_eq_none hdrops.free] at hp
      cases hp

end Run

/-! ## What is left behind -/

/-- Whether a pass is starting or stopping an exporter. -/
def Pass.Tends (p : Pass) (id : ExporterId) : Prop :=
  match p.phase with
  | .queued => False
  | .adding _ attempts => ∃ a ∈ attempts, a.phase.exporter? = some id
  | .retiring _ _ retirements => ∃ x ∈ retirements, x.id = id ∧ x.phase ≠ .pending

/-- Whether an exporter is neither running nor stopped. -/
def Entry.IsBetween (entry : Entry) : Prop := entry.state = .starting ∨ entry.state = .stopping

namespace Balancer

/-- Whether the pass inside is starting or stopping an exporter. -/
def Tends (b : Balancer α) (id : ExporterId) : Prop := ∃ t p, b.insider? = some (t, p) ∧ p.Tends id

section Tending

variable {b b' : Balancer α} {t : TaskId} {p : Pass} {id : ExporterId}

theorem tends_iff (hp : b.insider? = some (t, p)) : b.Tends id ↔ p.Tends id := by
  constructor
  · rintro ⟨t', p', hp', htends⟩
    obtain ⟨rfl, rfl⟩ := insider?_inj hp hp'
    exact htends
  · exact fun htends => ⟨t, p, hp, htends⟩

theorem not_tends_of_free (hfree : b.pool.gate.inside = none) : ¬ b.Tends id := by
  rintro ⟨t, p, hp, _⟩
  rw [insider?_eq_none hfree] at hp
  cases hp

theorem exporter?_of_isOver {a : Attempt} (h : a.isOver = true) : a.phase.exporter? = none := by
  obtain ⟨e, phase⟩ := a
  cases phase <;> first | rfl | cases h

/-- An exporter that is neither running nor stopped after a step of a start is one of the start, or it was so before. -/
theorem AttemptStep.tends {c : Balancer α} {e : Endpoint} {phase phase' : AttemptPhase} (h : AttemptStep b e phase c phase')
    {entry : Entry} (he : c.pool.entry? id = some entry) (hbetween : entry.IsBetween) :
    phase'.exporter? = some id ∨ (b.pool.entry? id = some entry ∧ phase.exporter? ≠ some id) := by
  by_cases hid' : phase'.exporter? = some id
  · exact .inl hid'
  · have hid : phase.exporter? ≠ some id := fun hid => by
      cases h with
      | run touches _ =>
        obtain rfl := Option.some.inj hid
        obtain rfl := Option.some.inj (he.symm.trans touches.after)
        rcases hbetween with h | h <;> cases h
      | stumble touches _ =>
        obtain rfl := Option.some.inj hid
        obtain rfl := Option.some.inj (he.symm.trans touches.after)
        rcases hbetween with h | h <;> cases h
      | _ => cases hid
    exact .inr ⟨h.entry?_before hid hid' he, hid⟩

theorem RetirementStep.ne_pending {c : Balancer α} {entry : Entry} {phase phase' : RetirementPhase}
    (h : RetirementStep b id entry phase c phase') : phase' ≠ .pending := by
  cases h with
  | drain _ after _ _ =>
    rintro rfl
    cases after
  | _ => exact fun h => nomatch h

/-- An exporter that is neither running nor stopped after a step of one of the starts of a pass is one of theirs then, or it was so before
and none of theirs. -/
theorem Opens.between_before {c : Balancer α} {attempts : List Attempt} {way : Nat} {a a' : Attempt} (hs : b.Opens attempts)
    (hat : attempts[way]? = some a) (hendpoint : a'.endpoint = a.endpoint) (h : AttemptStep b a.endpoint a.phase c a'.phase)
    {entry : Entry} (he : c.pool.entry? id = some entry) (hbetween : entry.IsBetween)
    (hnot : ¬ ∃ y ∈ attempts.set way a', y.phase.exporter? = some id) :
    b.pool.entry? id = some entry ∧ ¬ ∃ y ∈ attempts, y.phase.exporter? = some id := by
  obtain ⟨others, hmem, hmem', _, _⟩ := mem_set_of_key hat hendpoint hs.once
  rcases h.tends he hbetween with hid | ⟨he, hid⟩
  · exact absurd ⟨a', (hmem' a').2 (.inl rfl), hid⟩ hnot
  · refine ⟨he, fun ⟨y, hy, hy'⟩ => ?_⟩
    rcases (hmem y).1 hy with rfl | hy
    · exact hid hy'
    · exact hnot ⟨y, (hmem' y).2 (.inr hy), hy'⟩

/-- An exporter that no retirement of a pass has begun after a step of one of them is as it was, and none had begun it before. -/
theorem Closes.between_before {c : Balancer α} {retirements : List Retirement} {way : Nat} {x x' : Retirement} {old entry : Entry}
    (hr : b.Closes retirements) (hat : retirements[way]? = some x) (hid : x'.id = x.id)
    (h : RetirementStep b x.id old x.phase c x'.phase) (he : c.pool.entry? id = some entry)
    (hnot : ¬ ∃ y ∈ retirements.set way x', y.id = id ∧ y.phase ≠ .pending) :
    b.pool.entry? id = some entry ∧ ¬ ∃ y ∈ retirements, y.id = id ∧ y.phase ≠ .pending := by
  obtain ⟨others, hmem, hmem', _, _⟩ := mem_set_of_key hat hid hr.once
  have hne : id ≠ x.id := fun heq => hnot ⟨x', (hmem' x').2 (.inl rfl), hid.trans heq.symm, h.ne_pending⟩
  refine ⟨(h.entry?_of_ne hne).symm.trans he, fun ⟨y, hy, hy', hbegun⟩ => ?_⟩
  rcases (hmem y).1 hy with rfl | hy
  · exact hne hy'.symm
  · exact hnot ⟨y, (hmem' y).2 (.inr hy), hy', hbegun⟩

/-- An exporter that is neither running nor stopped after a step is tended then, or it was neither before and nobody tended it. -/
theorem Tended.between_before (hb : b.Tended) (h : Passing b b') {entry' : Entry} (he' : b'.pool.entry? id = some entry')
    (hbetween : entry'.IsBetween) :
    b'.Tends id ∨ ((∃ entry, b.pool.entry? id = some entry ∧ entry.IsBetween) ∧ ¬ b.Tends id) := by
  have hbefore : ∀ {c : Balancer α}, Ageless c b' → ∃ entry, c.pool.entry? id = some entry ∧ entry.IsBetween := fun hageless => by
    obtain ⟨entry, he, hlife⟩ := hageless.entry_before he'
    exact ⟨entry, he, by rwa [Entry.IsBetween, hlife.state] at hbetween⟩
  by_cases htends' : b'.Tends id
  · exact .inl htends'
  · refine .inr ?_
    cases h with
    | aside ageless inside _ _ =>
      refine ⟨hbefore ageless, fun htends => htends' ?_⟩
      rwa [Tends, inside]
    | enter free _ _ _ _ ageless _ => exact ⟨hbefore ageless, not_tends_of_free free⟩
    | @attempt t p wanted attempts way a a' c before phase after at_way endpoint step ageless _ =>
      have hopens := hb.matched t p before
      rw [phase] at hopens
      obtain ⟨entry, he, hstate⟩ := hbefore ageless
      rw [tends_iff after] at htends'
      obtain ⟨he, hnot⟩ := Opens.between_before hopens at_way endpoint step he hstate htends'
      refine ⟨⟨entry, he, hstate⟩, fun htends => hnot ?_⟩
      rwa [tends_iff before, Pass.Tends, phase] at htends
    | @publish t p wanted attempts before phase after ended ageless _ =>
      refine ⟨hbefore ageless, fun htends => ?_⟩
      rw [tends_iff before, Pass.Tends, phase] at htends
      obtain ⟨y, hy, hy'⟩ := htends
      rw [exporter?_of_isOver (List.all_eq_true.1 ended y hy)] at hy'
      cases hy'
    | @retire t p added failed retirements way x x' entry c before phase after at_way hid made step ageless _ =>
      have hcloses := hb.matched t p before
      rw [phase] at hcloses
      obtain ⟨entry₀, he, hstate⟩ := hbefore ageless
      rw [tends_iff after] at htends'
      obtain ⟨he, hnot⟩ := Closes.between_before hcloses at_way hid step he htends'
      refine ⟨⟨entry₀, he, hstate⟩, fun htends => hnot ?_⟩
      rwa [tends_iff before, Pass.Tends, phase] at htends
    | @conclude t p added failed retirements before phase after ended ageless _ _ =>
      obtain ⟨entry, he, hstate⟩ := hbefore ageless
      refine ⟨⟨entry, he, hstate⟩, fun htends => ?_⟩
      rw [tends_iff before, Pass.Tends, phase] at htends
      obtain ⟨y, hy, rfl, _⟩ := htends
      have hcloses := hb.matched t p before
      rw [phase] at hcloses
      have hsuits := (show b.Closes retirements from hcloses).suits_of_made hy he
      rw [show y.phase = .retired from of_decide_eq_true (List.all_eq_true.1 ended y hy)] at hsuits
      rcases hstate with h | h <;> exact absurd (h.symm.trans hsuits) (fun h => nomatch h)

end Tending

end Balancer

namespace Run

/-- Whether, before a step, a pass was given up while it was starting or stopping an exporter. -/
def LeftBehind (r : Run α) (id : ExporterId) (n : Nat) : Prop :=
  ∃ m < n, ∃ t p, r.action m = .abandon t ∧ (r.state m).insider? = some (t, p) ∧ p.Tends id

/-- Whatever exporter is neither running nor stopped, the pass inside tends it, or one that was given up has left it. -/
theorem tended_or_left (r : Run α) : ∀ n id entry, (r.state n).pool.entry? id = some entry → entry.IsBetween →
    (r.state n).Tends id ∨ r.LeftBehind id n := by
  intro n
  induction n with
  | zero => exact fun id entry he => nomatch he
  | succ n ih =>
    intro id entry' he' hbetween
    have hstays : r.LeftBehind id n → r.LeftBehind id (n + 1) := fun ⟨m, hm, hleft⟩ => ⟨m, Nat.lt_succ_of_lt hm, hleft⟩
    rcases r.passing_or_drops n with hpassing | ⟨t, p, haction, hdrops⟩
    · rcases (r.tended n).between_before hpassing he' hbetween with htends | ⟨⟨entry, he, hstate⟩, hnot⟩
      · exact .inl htends
      · exact .inr (hstays ((ih id entry he hstate).resolve_left hnot))
    · obtain ⟨entry, he, hlife⟩ := hdrops.ageless.entry_before he'
      rw [Entry.IsBetween, hlife.state] at hbetween
      rcases ih id entry he hbetween with htends | hleft
      · exact .inr ⟨n, Nat.lt_succ_self n, t, p, haction, hdrops.before, (Balancer.tends_iff hdrops.before).1 htends⟩
      · exact .inr (hstays hleft)

end Run

end TelemetryRouter
