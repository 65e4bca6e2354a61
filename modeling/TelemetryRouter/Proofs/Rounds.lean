import TelemetryRouter.Proofs.Consistency
import TelemetryRouter.Proofs.Listings

/-!
# Passes in the order of the gate

Everything that happens to the ring and to the list of the pool happens in a step of the pass inside the gate, so the passes of a run
form one sequence: the rounds that are over, in the order in which the gate let them in, and at most one pass that is under way.
-/

namespace TelemetryRouter

variable {α : Type}

/-! ## The endpoints of starts -/

theorem Pool.mem_missing_iff {pool : Pool} {wanted : List Endpoint} {e : Endpoint} :
    e ∈ pool.missing wanted ↔ e ∈ wanted ∧ pool.find? e = none := by
  rw [Pool.missing, List.mem_filter, Endpoint.mem_normalize]
  simp [Pool.contains]

/-- A start that makes a step is for the endpoint that it was for. -/
theorem Attempt.map_endpoint_set {attempts : List Attempt} {way : Nat} {a a' : Attempt} (hat : attempts[way]? = some a)
    (hendpoint : a'.endpoint = a.endpoint) :
    (attempts.set way a').map Attempt.endpoint = attempts.map Attempt.endpoint := by
  rw [List.map_set, hendpoint]
  refine List.ext_getElem? (fun i => ?_)
  by_cases hi : way = i
  · subst hi
    have hlt : way < (attempts.map Attempt.endpoint).length := by
      rw [List.length_map]
      exact (List.getElem?_eq_some_iff.1 hat).1
    rw [List.getElem?_set_self hlt, List.getElem?_map, hat]
    rfl
  · rw [List.getElem?_set_ne hi]

/-- An endpoint is among those of the starts in a phase exactly if its start is in that phase. -/
theorem Pass.mem_endpointsIn {attempts : List Attempt} {phase : AttemptPhase} {e : Endpoint} :
    e ∈ Pass.endpointsIn attempts phase ↔ Attempt.mk e phase ∈ attempts := by
  rw [Pass.endpointsIn, Endpoint.sort, List.mem_mergeSort, List.mem_map]
  constructor
  · rintro ⟨⟨e', phase'⟩, hmem, rfl⟩
    obtain ⟨hmem, hphase⟩ := List.mem_filter.1 hmem
    have heq : phase' = phase := of_decide_eq_true hphase
    exact heq ▸ hmem
  · intro hmem
    exact ⟨⟨e, phase⟩, List.mem_filter.2 ⟨hmem, decide_eq_true rfl⟩, rfl⟩

namespace Balancer

/-! ## The pass inside -/

/-- The pass inside the gate, with its task. -/
def insider? (b : Balancer α) : Option (TaskId × Pass) :=
  b.pool.gate.inside.bind (fun t => match b.duty? t with
    | some (.pass p) => some (t, p)
    | _ => none)

section Insider

variable {b b' : Balancer α} {t : TaskId} {p : Pass}

theorem insider?_eq_some_iff : b.insider? = some (t, p) ↔ b.pool.gate.inside = some t ∧ b.duty? t = some (.pass p) := by
  rw [insider?, Option.bind_eq_some_iff]
  constructor
  · rintro ⟨t', hinside, h⟩
    split at h
    · rename_i q hd
      injection h with h
      injection h with ht hp
      subst ht
      subst hp
      exact ⟨hinside, hd⟩
    · cases h
  · rintro ⟨hinside, hd⟩
    exact ⟨t, hinside, by rw [hd]⟩

theorem insider?_inj {t' : TaskId} {p' : Pass} (h : b.insider? = some (t, p)) (h' : b.insider? = some (t', p')) : t' = t ∧ p' = p :=
  Prod.mk.inj (Option.some.inj (h'.symm.trans h))

theorem insider?_eq_none (h : b.pool.gate.inside = none) : b.insider? = none := by
  rw [insider?, h]
  rfl

/-- In an orderly state, somebody inside is there with a pass that was let in. -/
theorem Orderly.insider? (ho : b.Orderly) (h : b.pool.gate.inside = some t) :
    ∃ p, b.insider? = some (t, p) ∧ p.phase.Accounts b := by
  obtain ⟨p, hd, haccounts⟩ := ho.taken t h
  exact ⟨p, insider?_eq_some_iff.2 ⟨h, hd⟩, haccounts⟩

/-- In an orderly state, nobody is inside if no pass is. -/
theorem Orderly.free_of_insider? (ho : b.Orderly) (h : b.insider? = none) : b.pool.gate.inside = none := by
  rcases hinside : b.pool.gate.inside with _ | t
  · rfl
  · obtain ⟨p, hsome, _⟩ := ho.insider? hinside
    rw [h] at hsome
    cases hsome

theorem Orderly.ne_queued (ho : b.Orderly) (h : b.insider? = some (t, p)) : p.phase ≠ .queued := by
  obtain ⟨hinside, hd⟩ := insider?_eq_some_iff.1 h
  obtain ⟨q, hq, haccounts⟩ := ho.taken t hinside
  exact pass_eq_of_duty? hd hq ▸ haccounts.ne_queued

theorem Guarded.insider? (hb : b.Guarded) (h : b.pool.gate.inside = some t) : ∃ p, b.insider? = some (t, p) ∧ p.phase ≠ .queued := by
  obtain ⟨p, hd, hp⟩ := hb.inside t h
  exact ⟨p, insider?_eq_some_iff.2 ⟨h, hd⟩, hp⟩

/-- What happens beside the passes leaves the pass inside as it is. -/
theorem Aside.insider?_eq (h : Aside b b') (hb : b.Guarded) : b'.insider? = b.insider? := by
  rcases hinside : b.pool.gate.inside with _ | t
  · rw [insider?_eq_none hinside, insider?_eq_none (h.inside.trans hinside)]
  · obtain ⟨p, hsome, hp⟩ := hb.insider? hinside
    have hd := (insider?_eq_some_iff.1 hsome).2
    rw [hsome, insider?_eq_some_iff]
    exact ⟨h.inside.trans hinside, (h.passes t p hp).2 hd⟩

end Insider

/-! ## Steps, as the pass inside sees them -/

/-- What a step is to the pass inside the gate. -/
inductive Passing (b b' : Balancer α) : Prop
  | aside (ageless : Ageless b b') (inside : b'.insider? = b.insider?) (ring : b'.ring = b.ring)
    (attempting : ∀ e phase, b'.Attempting e phase ↔ b.Attempting e phase)
  | enter {t : TaskId} {p : Pass} {wanted : List Endpoint} {attempts : List Attempt} (free : b.pool.gate.inside = none)
    (waits : b.duty? t = some (.pass p)) (after : b'.insider? = some (t, { p with phase := .adding wanted attempts }))
    (wanted_eq : wanted = b.wanted p.target) (attempts_eq : attempts = (b.pool.missing wanted).map (fun e => ⟨e, .pending⟩))
    (ageless : Ageless b b') (ring : b'.ring = b.ring)
  | attempt {t : TaskId} {p : Pass} {wanted : List Endpoint} {attempts : List Attempt} {way : Nat} {a a' : Attempt}
    {c : Balancer α} (before : b.insider? = some (t, p)) (phase : p.phase = .adding wanted attempts)
    (after : b'.insider? = some (t, { p with phase := .adding wanted (attempts.set way a') }))
    (at_way : attempts[way]? = some a) (endpoint : a'.endpoint = a.endpoint)
    (step : AttemptStep b a.endpoint a.phase c a'.phase) (ageless : Ageless c b') (ring : b'.ring = b.ring)
  | publish {t : TaskId} {p : Pass} {wanted : List Endpoint} {attempts : List Attempt} (before : b.insider? = some (t, p))
    (phase : p.phase = .adding wanted attempts)
    (after : b'.insider? = some (t, { p with
      phase := .retiring (Pass.endpointsIn attempts .started) (Pass.endpointsIn attempts .failed)
        ((b.pool.extra wanted).map (fun id => ⟨id, .pending⟩)) }))
    (ended : attempts.all Attempt.isOver = true) (ageless : Ageless b b') (ring : b'.ring = b.ringAfter p)
  | retire {t : TaskId} {p : Pass} {added failed : List Endpoint} {retirements : List Retirement} {way : Nat}
    {r r' : Retirement} {entry : Entry} {c : Balancer α} (before : b.insider? = some (t, p))
    (phase : p.phase = .retiring added failed retirements)
    (after : b'.insider? = some (t, { p with phase := .retiring added failed (retirements.set way r') }))
    (at_way : retirements[way]? = some r) (id : r'.id = r.id) (made : b.pool.entry? r.id = some entry)
    (step : RetirementStep b r.id entry r.phase c r'.phase) (ageless : Ageless c b') (ring : b'.ring = b.ring)
  | conclude {t : TaskId} {p : Pass} {added failed : List Endpoint} {retirements : List Retirement}
    (before : b.insider? = some (t, p)) (phase : p.phase = .retiring added failed retirements)
    (after : b'.pool.gate.inside = none) (ended : retirements.all Retirement.isOver = true) (ageless : Ageless b b')
    (ring : b'.ring = b.ring)
    (tells : (b'.task? t).map Task.outcome = some (.reconciled (b.passOutcome added failed retirements)))

theorem PassStep.passing {b b' : Balancer α} (hb : b.Guarded) {t : TaskId} {rest : List (Work α)} {p : Pass}
    (hw : b.works t = .pass p :: rest) (h : PassStep b t rest p b') : Passing b b' := by
  have ht := lt_of_works hw
  have hd := duty?_of_works hw rfl
  have hbefore : p.phase ≠ .queued → b.insider? = some (t, p) :=
    fun hp => insider?_eq_some_iff.2 ⟨hb.turn t p hd hp, hd⟩
  have hafter : ∀ {c : Balancer α} {p' : Pass}, c.tasks = b.tasks → c.pool.gate.inside = some t →
      (c.withWorks t (.pass p' :: rest)).insider? = some (t, p') := by
    intro c p' hts hinside
    have hr : Reworks b (c.withWorks t (.pass p' :: rest)) t _ := reworks_withWorks ht hts
    exact insider?_eq_some_iff.2 ⟨hinside, hr.duty?_cons rfl⟩
  cases h with
  | enter phase enters wanted_eq attempts_eq =>
    obtain ⟨hfree, _, hinside⟩ := (Gate.enter?_eq_some_iff _ _ _).1 enters
    exact .enter hfree hd (hafter rfl hinside) wanted_eq attempts_eq (.of_eq rfl rfl rfl) rfl
  | attempt phase at_way endpoint frame step =>
    have hp := hbefore (by rw [phase]; exact fun h => nomatch h)
    have hinside := (insider?_eq_some_iff.1 hp).1
    exact .attempt hp phase (hafter frame.tasks (by rw [frame.gate]; exact hinside)) at_way endpoint step (.of_eq rfl rfl rfl)
      frame.ring
  | publish phase ended =>
    have hp := hbefore (by rw [phase]; exact fun h => nomatch h)
    have hinside := (insider?_eq_some_iff.1 hp).1
    exact .publish hp phase (hafter rfl hinside) ended (.of_eq rfl rfl rfl) rfl
  | retire phase at_way id frame made step =>
    have hp := hbefore (by rw [phase]; exact fun h => nomatch h)
    have hinside := (insider?_eq_some_iff.1 hp).1
    exact .retire hp phase (hafter frame.tasks (by rw [frame.gate]; exact hinside)) at_way id made step (.of_eq rfl rfl rfl)
      frame.ring
  | @conclude added failed retirements phase ended =>
    have hp := hbefore (by rw [phase]; exact fun h => nomatch h)
    have hinside := (insider?_eq_some_iff.1 hp).1
    obtain ⟨metrics, heq⟩ := concludePass_eq b t rest (b.passOutcome added failed retirements)
    rw [heq]
    refine .conclude hp phase (if_pos hinside) ended (.of_eq rfl rfl rfl) rfl ?_
    rw [task?, finish, List.getElem?_modify_eq, List.getElem?_eq_getElem ht]
    rfl

end Balancer

/-! ## Rounds -/

/-- A pass that is over: its task, the ring that it brought, if any, and the endpoints that it could not start an exporter for. -/
structure Round where
  task : TaskId
  publish : Option Ring
  failed : List Endpoint

/-- The endpoints that a pass could not start an exporter for, once it is past its starts. -/
def Pass.failed (p : Pass) : List Endpoint :=
  match p.phase with
  | .retiring _ failed _ => failed
  | _ => []

namespace Run

/-- The task whose pass is let in by a step, with the ring that the pass brings. -/
def enters? (r : Run α) (n : Nat) : Option (TaskId × Option Ring) :=
  if (r.state n).pool.gate.inside = none then (r.state (n + 1)).insider?.map (fun x => (x.1, x.2.publish)) else none

/-- The pass that is over with a step. -/
def round? (r : Run α) (n : Nat) : Option Round :=
  if (r.state (n + 1)).pool.gate.inside = none then (r.state n).insider?.map (fun x => ⟨x.1, x.2.publish, x.2.failed⟩) else none

/-- The passes that were let in before a step, in order. -/
def entered (r : Run α) (n : Nat) : List (TaskId × Option Ring) := gather r.enters? n

/-- The passes that were over before a step, in order. -/
def rounds (r : Run α) (n : Nat) : List Round := gather r.round? n

/-- The pass that is under way before a step, if any. -/
def underway (r : Run α) (n : Nat) : List (TaskId × Option Ring) :=
  ((r.state n).insider?.map (fun x => (x.1, x.2.publish))).toList

section Finishing

variable (r : Run α) (hr : r.FinishesPasses) {n : Nat}

include hr

/-- Every step of a run is one of the pass inside, or leaves it alone. -/
theorem passing (n : Nat) : Balancer.Passing (r.state n) (r.state (n + 1)) := by
  have ho := r.orderly hr n
  have hg := r.grounded n
  rcases (r.change n).aside_or_pass hg ho.inside (hr n) with haside | ⟨_, _, _, _, _, hw, _, hstep⟩
  · rcases (r.change n).sameRings_or_pass hg with hsame | ⟨_, _, _, hw, _, hstep⟩
    · exact .aside haside.ageless (haside.insider?_eq ho.guarded) hsame.ring (fun _ => haside.attempting_iff)
    · exact hstep.passing ho.guarded hw
  · exact hstep.passing ho.guarded hw

omit hr in
theorem records_of_insider?_eq {t : TaskId} {p p' : Pass} (hbefore : (r.state n).insider? = some (t, p))
    (hafter : (r.state (n + 1)).insider? = some (t, p')) : r.enters? n = none ∧ r.round? n = none := by
  have hinside := (Balancer.insider?_eq_some_iff.1 hbefore).1
  have hinside' := (Balancer.insider?_eq_some_iff.1 hafter).1
  exact ⟨if_neg (by rw [hinside]; exact fun h => nomatch h), if_neg (by rw [hinside']; exact fun h => nomatch h)⟩

theorem records_of_free (hbefore : (r.state n).insider? = none) (hafter : (r.state (n + 1)).insider? = none) :
    r.enters? n = none ∧ r.round? n = none := by
  refine ⟨?_, ?_⟩
  · rw [enters?, if_pos ((r.orderly hr n).free_of_insider? hbefore), hafter]
    rfl
  · rw [round?, if_pos ((r.orderly hr (n + 1)).free_of_insider? hafter), hbefore]
    rfl

omit hr in
theorem records_of_enter {t : TaskId} {p : Pass} (hbefore : (r.state n).pool.gate.inside = none)
    (hafter : (r.state (n + 1)).insider? = some (t, p)) : r.enters? n = some (t, p.publish) ∧ r.round? n = none := by
  have hinside' := (Balancer.insider?_eq_some_iff.1 hafter).1
  refine ⟨?_, if_neg (by rw [hinside']; exact fun h => nomatch h)⟩
  rw [enters?, if_pos hbefore, hafter]
  rfl

omit hr in
theorem records_of_conclude {t : TaskId} {p : Pass} (hbefore : (r.state n).insider? = some (t, p))
    (hafter : (r.state (n + 1)).pool.gate.inside = none) :
    r.enters? n = none ∧ r.round? n = some ⟨t, p.publish, p.failed⟩ := by
  have hinside := (Balancer.insider?_eq_some_iff.1 hbefore).1
  refine ⟨if_neg (by rw [hinside]; exact fun h => nomatch h), ?_⟩
  rw [round?, if_pos hafter, hbefore]
  rfl

/-- The passes that were let in are those that are over, in the order in which they were let in, and the one that is under way. -/
theorem entered_eq : ∀ n, r.entered n = (r.rounds n).map (fun x => (x.task, x.publish)) ++ r.underway n := by
  intro n
  induction n with
  | zero => rfl
  | succ n ih =>
    have hgo : ∀ {t : TaskId} {p p' : Pass}, (r.state n).insider? = some (t, p) → (r.state (n + 1)).insider? = some (t, p') →
        p'.publish = p.publish →
          r.entered (n + 1) = (r.rounds (n + 1)).map (fun x => (x.task, x.publish)) ++ r.underway (n + 1) := by
      intro t p p' hbefore hafter hpublish
      obtain ⟨henters, hround⟩ := r.records_of_insider?_eq hbefore hafter
      rw [entered, rounds, gather_succ_of_none henters, gather_succ_of_none hround, ← entered, ← rounds, ih, underway, underway,
        hbefore, hafter, Option.map_some, Option.map_some, hpublish]
    cases r.passing hr n with
    | aside _ inside _ _ =>
      rcases hbefore : (r.state n).insider? with _ | ⟨t, p⟩
      · obtain ⟨henters, hround⟩ := r.records_of_free hr hbefore (inside.trans hbefore)
        rw [entered, rounds, gather_succ_of_none henters, gather_succ_of_none hround, ← entered, ← rounds, ih, underway, underway,
          inside]
      · exact hgo hbefore (inside.trans hbefore) rfl
    | enter free _ after _ _ _ _ =>
      obtain ⟨henters, hround⟩ := r.records_of_enter free after
      rw [entered, rounds, gather_succ_of_some henters, gather_succ_of_none hround, ← entered, ← rounds, ih, underway, underway,
        Balancer.insider?_eq_none free, after, Option.map_none, Option.toList_none, List.append_nil]
      rfl
    | attempt before _ after _ _ _ _ _ => exact hgo before after rfl
    | publish before _ after _ _ _ => exact hgo before after rfl
    | retire before _ after _ _ _ _ _ _ => exact hgo before after rfl
    | conclude before _ after _ _ _ _ =>
      obtain ⟨henters, hround⟩ := r.records_of_conclude before after
      rw [entered, rounds, gather_succ_of_none henters, gather_succ_of_some hround, ← entered, ← rounds, ih, underway, underway,
        before, Balancer.insider?_eq_none after, List.map_append, Option.map_none, Option.toList_none, List.append_nil]
      rfl

end Finishing

end Run

end TelemetryRouter
