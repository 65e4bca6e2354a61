import TelemetryRouter.Proofs.Refreshes

/-!
# Passes one after the other

However the passes of a run overlap, the ring and the pool end up as if each pass had been made from beginning to end before the next
one, in the order in which the gate let them in: a pass publishes its ring, if it brings one, and then the members of the published
ring are served, except those that were not served before and could not be started. A pass that only refreshes the pool
removes nothing and cannot bring back what an earlier pass has removed.
-/

namespace TelemetryRouter

variable {α : Type}

/-- The published ring, and the endpoints that have an exporter. -/
structure Fleet where
  ring : Ring
  served : List Endpoint

/-- The ring and the served endpoints after a pass that nothing overlaps: those members of the ring are served that were served
before or could be started. -/
def Fleet.after (f : Fleet) (x : Round) : Fleet :=
  let ring := x.publish.getD f.ring
  ⟨ring, ring.endpoints.filter (fun e => f.served.contains e || !x.failed.contains e)⟩

theorem Fleet.mem_served_after {f : Fleet} {x : Round} {e : Endpoint} :
    e ∈ (f.after x).served ↔ e ∈ (x.publish.getD f.ring).endpoints ∧ (e ∈ f.served ∨ e ∉ x.failed) := by
  simp [Fleet.after]

/-- Of passes one after the other, the last one that brings a ring decides which is published. -/
theorem Fleet.ring_foldl (f : Fleet) (xs : List Round) :
    (xs.foldl Fleet.after f).ring = (xs.filterMap Round.publish).getLast?.getD f.ring := by
  induction xs generalizing f with
  | nil => rfl
  | cons x xs ih =>
    rw [List.foldl_cons, ih]
    cases hpublish : x.publish with
    | none =>
      rw [List.filterMap_cons_none hpublish]
      show _ = (xs.filterMap Round.publish).getLast?.getD f.ring
      rw [show (f.after x).ring = f.ring by rw [Fleet.after, hpublish]; rfl]
    | some ring =>
      rw [List.filterMap_cons_some hpublish, List.getLast?_cons, Option.getD_some]
      rw [show (f.after x).ring = ring by rw [Fleet.after, hpublish]; rfl]

namespace Balancer

/-- Whether the ring and the pool are what they were before the pass that is under way, as far as that has not changed them yet; if
none is, they are a fleet. -/
def Replays (b : Balancer α) (f : Fleet) : Prop :=
  match b.insider? with
  | none => b.ring = f.ring ∧ ∀ e, b.Runs e ↔ e ∈ f.served
  | some (_, p) => match p.phase with
    | .queued => True
    | .adding _ attempts => b.ring = f.ring ∧ ∀ e, e ∈ f.served ↔ b.Runs e ∧ e ∉ attempts.map Attempt.endpoint
    | .retiring _ failed _ => b.ring = p.publish.getD f.ring ∧ ∀ e ∈ b.ring.endpoints, b.Runs e ↔ e ∈ f.served ∨ e ∉ failed

section Replays

variable {b b' c : Balancer α} {f : Fleet} {failed failed' : Endpoint → Prop} {t : TaskId} {p : Pass}

theorem replays_of_free (h : b.insider? = none) : b.Replays f ↔ b.ring = f.ring ∧ ∀ e, b.Runs e ↔ e ∈ f.served := by
  unfold Replays
  rw [h]

theorem replays_of_adding {wanted : List Endpoint} {attempts : List Attempt} (h : b.insider? = some (t, p))
    (hphase : p.phase = .adding wanted attempts) :
    b.Replays f ↔ b.ring = f.ring ∧ ∀ e, e ∈ f.served ↔ b.Runs e ∧ e ∉ attempts.map Attempt.endpoint := by
  unfold Replays
  rw [h]
  dsimp only
  rw [hphase]

theorem replays_of_retiring {added refused : List Endpoint} {retirements : List Retirement} (h : b.insider? = some (t, p))
    (hphase : p.phase = .retiring added refused retirements) :
    b.Replays f ↔ b.ring = p.publish.getD f.ring ∧ ∀ e ∈ b.ring.endpoints, b.Runs e ↔ e ∈ f.served ∨ e ∉ refused := by
  unfold Replays
  rw [h]
  dsimp only
  rw [hphase]

theorem Replays.aside (h : b.Replays f) (hageless : Ageless b b') (hinside : b'.insider? = b.insider?)
    (hring : b'.ring = b.ring) : b'.Replays f := by
  unfold Replays at *
  simp only [hinside, hring, hageless.runs_iff]
  exact h

theorem Replays.enter (h : b.Replays f) (hageless : Ageless b b') (hring : b'.ring = b.ring) (hfree : b.pool.gate.inside = none)
    {wanted wanted' : List Endpoint} {p' : Pass} (hafter : b'.insider? = some (t, p'))
    (hphase : p'.phase = .adding wanted' ((b.pool.missing wanted).map (fun e => ⟨e, .pending⟩))) : b'.Replays f := by
  obtain ⟨hf, hserved⟩ := (replays_of_free (insider?_eq_none hfree)).1 h
  refine (replays_of_adding hafter hphase).2 ⟨hring.trans hf, fun e => ?_⟩
  rw [hageless.runs_iff, hserved e]
  refine ⟨fun hmem => ⟨hmem, fun hstarts => ?_⟩, fun hmem => hmem.1⟩
  obtain ⟨a, ha, rfl⟩ := List.mem_map.1 hstarts
  obtain ⟨e, he, rfl⟩ := List.mem_map.1 ha
  have hlacks : b.Lacks e := ne_of_not_contains (by simpa using (List.mem_filter.1 he).2)
  exact ((hserved e).2 hmem).not_lacks hlacks

/-- A step of a start changes nothing for the other endpoints. -/
theorem Replays.attempt (h : b.Replays f) (ho : b.Orderly) (hg : b.Grounded) {wanted : List Endpoint} {attempts : List Attempt}
    {way : Nat} {a a' : Attempt} {p' : Pass} (hbefore : b.insider? = some (t, p)) (hphase : p.phase = .adding wanted attempts)
    (hafter : b'.insider? = some (t, p')) (hphase' : p'.phase = .adding wanted (attempts.set way a'))
    (hat : attempts[way]? = some a) (hendpoint : a'.endpoint = a.endpoint) (step : AttemptStep b a.endpoint a.phase c a'.phase)
    (hageless : Ageless c b') (hring : b'.ring = b.ring) : b'.Replays f := by
  have hd := (insider?_eq_some_iff.1 hbefore).2
  have ha : a ∈ attempts := List.mem_of_getElem? hat
  have hs := ho.starts_of_adding hd hphase
  have hgrounded := hg.duties t _ hd
  unfold Work.IsGrounded at hgrounded
  dsimp only at hgrounded
  rw [hphase] at hgrounded
  obtain ⟨hf, hserved⟩ := (replays_of_adding hbefore hphase).1 h
  refine (replays_of_adding hafter hphase').2 ⟨hring.trans hf, fun e => ?_⟩
  rw [Attempt.map_endpoint_set hat hendpoint, hserved e, and_congr_left_iff]
  intro hnot
  have he : e ≠ a.endpoint := fun heq => hnot (heq ▸ List.mem_map_of_mem ha)
  rw [hageless.runs_iff]
  exact ⟨step.runs he (fun id hid entry hentry => (hs.starting id entry hentry).2 ⟨a, ha, hid⟩),
    step.runs_before he hg (hgrounded a ha)⟩

/-- A pass that publishes serves what was served before and what it has started. -/
theorem Replays.publish (h : b.Replays f) (hb : b.Covered failed) {wanted added : List Endpoint} {attempts : List Attempt}
    {retirements : List Retirement} {p' : Pass} (hbefore : b.insider? = some (t, p)) (hphase : p.phase = .adding wanted attempts)
    (hafter : b'.insider? = some (t, p')) (hphase' : p'.phase = .retiring added (Pass.endpointsIn attempts .failed) retirements)
    (hpublish : p'.publish = p.publish) (hover : attempts.all Attempt.isOver = true) (hageless : Ageless b b')
    (hring : b'.ring = b.ringAfter p) : b'.Replays f := by
  obtain ⟨hf, hserved⟩ := (replays_of_adding hbefore hphase).1 h
  obtain ⟨hwanted, hcovers⟩ := hb.covers (insider?_eq_some_iff.1 hbefore).2 hphase
  refine (replays_of_retiring hafter hphase').2 ⟨?_, fun e he => ?_⟩
  · rw [hring, ringAfter, hpublish, hf]
  rw [hring, ← hwanted] at he
  rw [hageless.runs_iff, Pass.mem_endpointsIn, hserved e]
  constructor
  · intro hruns
    refine .inr (fun hfailed => hruns.not_lacks (hcovers.reached _ hfailed))
  · rintro (⟨hruns, _⟩ | hnot)
    · exact hruns
    · rcases hcovers.each e he with hruns | hmem
      · exact hruns
      · obtain ⟨⟨e, phase⟩, ha, rfl⟩ := List.mem_map.1 hmem
        have hend := List.all_eq_true.1 hover _ ha
        have hreached := hcovers.reached _ ha
        cases phase with
        | started => exact hreached
        | failed => exact absurd ha hnot
        | _ => cases hend

theorem Replays.retire (h : b.Replays f) (hb : b.Covered failed) (hg : b.Grounded) {added refused : List Endpoint}
    {retirements : List Retirement} {way : Nat} {x x' : Retirement} {entry : Entry} {p' : Pass}
    (hbefore : b.insider? = some (t, p)) (hphase : p.phase = .retiring added refused retirements)
    (hafter : b'.insider? = some (t, p')) (hphase' : p'.phase = .retiring added refused (retirements.set way x'))
    (hpublish : p'.publish = p.publish) (hat : retirements[way]? = some x) (made : b.pool.entry? x.id = some entry)
    (step : RetirementStep b x.id entry x.phase c x'.phase) (hageless : Ageless c b') (hring : b'.ring = b.ring) :
    b'.Replays f := by
  obtain ⟨hf, hserved⟩ := (replays_of_retiring hbefore hphase).1 h
  have hclears := hb.clears (insider?_eq_some_iff.1 hbefore).2 hphase
  refine (replays_of_retiring hafter hphase').2 ⟨?_, fun e he => ?_⟩
  · rw [hring, hpublish, hf]
  rw [hring] at he
  have hne : e ≠ entry.endpoint := fun heq =>
    hclears.outside x (List.mem_of_getElem? hat) _ (endpointOf?_eq_some made) (heq ▸ he)
  rw [← hserved e he, hageless.runs_iff]
  exact ⟨step.runs_before, step.runs hg made hne⟩

/-- A pass that is over has changed the fleet as if nothing had overlapped it. -/
theorem Replays.conclude (h : b.Replays f) (hb' : b'.Covered failed') (ho' : b'.Orderly) (hg' : b'.Grounded)
    {added refused : List Endpoint} {retirements : List Retirement} (hbefore : b.insider? = some (t, p))
    (hphase : p.phase = .retiring added refused retirements) (hafter : b'.pool.gate.inside = none) (hageless : Ageless b b')
    (hring : b'.ring = b.ring) : b'.Replays (f.after ⟨t, p.publish, p.failed⟩) := by
  obtain ⟨hf, hserved⟩ := (replays_of_retiring hbefore hphase).1 h
  have hfailed : p.failed = refused := by rw [Pass.failed, hphase]
  refine (replays_of_free (insider?_eq_none hafter)).2 ⟨hring.trans hf, fun e => ?_⟩
  rw [Fleet.mem_served_after, ← hf, hfailed]
  constructor
  · intro hruns
    obtain ⟨id, entry, hmem, _⟩ := hruns
    have hin : e ∈ b.ring.endpoints := hring ▸ hb'.within hafter _ hmem
    exact ⟨hin, (hserved e hin).1 (hageless.runs_iff.1 (ho'.runs_of_free hg' hafter hmem))⟩
  · rintro ⟨hin, hwas⟩
    exact hageless.runs_iff.2 ((hserved e hin).2 hwas)

end Replays

end Balancer

namespace Run

/-- The ring and the served endpoints after the passes that were over before a step, made one after the other in the order in which
they were let in. -/
def fleet (r : Run α) (n : Nat) : Fleet := (r.rounds n).foldl Fleet.after ⟨(r.state 0).ring, []⟩

/-- How the passes of a run are as good as made one after the other. -/
structure InLockOrder (r : Run α) : Prop where
  /-- Two passes that were let in and are not over are one. -/
  alone : ∀ n t t' p p', (r.state n).duty? t = some (.pass p) → (r.state n).duty? t' = some (.pass p') →
    p.phase ≠ .queued → p'.phase ≠ .queued → t = t'
  /-- The passes that are over, and after them the one under way, are those that were let in, in order. -/
  order : ∀ n, r.entered n = (r.rounds n).map (fun x => (x.task, x.publish)) ++ r.underway n
  /-- When no pass is under way, the ring is that of the pass that was let in last of those that brought one. -/
  ring : ∀ n, (r.state n).pool.gate.inside = none →
    (r.state n).ring = ((r.entered n).filterMap Prod.snd).getLast?.getD (r.state 0).ring
  /-- When no pass is under way, the pool has exporters for the members of the ring whose last start has not failed, and they run. -/
  pool : ∀ n, (r.state n).pool.gate.inside = none → ∀ e,
    ((r.state n).pool.find? e ≠ none ↔ e ∈ (r.state n).ring.endpoints ∧ ¬ r.LastFailed e n) ∧
      ((r.state n).pool.find? e ≠ none → (r.state n).pool.state? e = some .running)
  /-- When no pass is under way, ring and pool are as if the passes had been made one after the other. -/
  replay : ∀ n, (r.state n).pool.gate.inside = none →
    (r.state n).ring = (r.fleet n).ring ∧ ∀ e, (r.state n).pool.find? e ≠ none ↔ e ∈ (r.fleet n).served
  /-- A pass that refreshes the pool only starts exporters for endpoints that were in the ring, and had none, when it was let in; and
  that ring is published as long as the pass is under way. -/
  starts : ∀ n t p wanted attempts, (r.state n).duty? t = some (.pass p) → p.IsRefresh → p.phase = .adding wanted attempts →
    ∃ k < n, r.enters? k = some (t, none) ∧ (∀ j, k ≤ j → j ≤ n → (r.state j).ring = (r.state k).ring) ∧
      ∀ a ∈ attempts, a.endpoint ∈ (r.state k).ring.endpoints ∧ (r.state k).pool.find? a.endpoint = none
  /-- A pass that refreshes the pool retires nothing, and tells so. -/
  retires : ∀ n t p added failed retirements, (r.state n).duty? t = some (.pass p) → p.IsRefresh →
    p.phase = .retiring added failed retirements → retirements = [] ∧ ((r.state (n + 1)).pool.gate.inside = none →
      ((r.state (n + 1)).task? t).map Task.outcome = some (.reconciled ⟨added, [], failed⟩))
  /-- While a pass that refreshes the pool is under way, no endpoint loses its running exporter. -/
  spares : ∀ n t p, (r.state n).duty? t = some (.pass p) → p.IsRefresh → p.phase ≠ .queued → ∀ e,
    (r.state n).pool.state? e = some .running → (r.state (n + 1)).pool.state? e = some .running
  /-- A pass that refreshes the pool starts no exporter for an endpoint that has left the ring before, unless a pass has brought the
  endpoint back in between. -/
  gone : ∀ n t p wanted attempts a, (r.state n).duty? t = some (.pass p) → p.IsRefresh → p.phase = .adding wanted attempts →
    a ∈ attempts → ∀ m ≤ n, a.endpoint ∉ (r.state m).ring.endpoints → ∃ j, m ≤ j ∧ j < n ∧ ∃ t' q ring,
      (r.state j).duty? t' = some (.pass q) ∧ q.publish = some ring ∧ a.endpoint ∈ ring.endpoints ∧ (r.state (j + 1)).ring = ring

section Aligned

variable (r : Run α) (hr : r.FinishesPasses) (ha : r.KeepsAligned)

include hr ha

/-- The ring and the pool are at any time what the passes before have made of them, up to the pass that is under way. -/
theorem replays (n : Nat) : (r.state n).Replays (r.fleet n) := by
  induction n with
  | zero =>
    refine (Balancer.replays_of_free rfl).2 ⟨rfl, fun e => ?_⟩
    exact ⟨fun ⟨_, _, hmem, _⟩ => (nomatch hmem), fun hmem => (nomatch hmem)⟩
  | succ n ih =>
    have ho := r.orderly hr n
    have hb := r.covered hr ha n
    have hg := r.grounded n
    have hsame : r.round? n = none → r.fleet (n + 1) = r.fleet n := fun hround => by
      rw [fleet, fleet, rounds, gather_succ_of_none hround, ← rounds]
    cases r.passing hr n with
    | aside ageless inside ring _ =>
      have hround : r.round? n = none := by
        rcases hbefore : (r.state n).insider? with _ | ⟨t, p⟩
        · exact (r.records_of_free hr hbefore (inside.trans hbefore)).2
        · exact (r.records_of_insider?_eq hbefore (inside.trans hbefore)).2
      exact hsame hround ▸ ih.aside ageless inside ring
    | enter free _ after _ attempts_eq ageless ring =>
      subst attempts_eq
      exact hsame (r.records_of_enter free after).2 ▸ ih.enter ageless ring free after rfl
    | attempt before phase after at_way endpoint step ageless ring =>
      exact hsame (r.records_of_insider?_eq before after).2 ▸
        ih.attempt ho hg before phase after rfl at_way endpoint step ageless ring
    | publish before phase after ended ageless ring =>
      exact hsame (r.records_of_insider?_eq before after).2 ▸ ih.publish hb before phase after rfl rfl ended ageless ring
    | retire before phase after at_way _ made step ageless ring =>
      exact hsame (r.records_of_insider?_eq before after).2 ▸
        ih.retire hb hg before phase after rfl rfl at_way made step ageless ring
    | conclude before phase after _ ageless ring _ =>
      rw [fleet, rounds, gather_succ_of_some (r.records_of_conclude before after).2, List.foldl_concat, ← rounds, ← fleet]
      exact ih.conclude (r.covered hr ha (n + 1)) (r.orderly hr (n + 1)) (r.grounded (n + 1)) before phase after ageless ring

omit ha in
/-- A ring that was not published before has been brought by the pass that published it. -/
theorem brought {e : Endpoint} {m n : Nat} (hmn : m ≤ n) (hout : e ∉ (r.state m).ring.endpoints)
    (hin : e ∈ (r.state n).ring.endpoints) : ∃ j, m ≤ j ∧ j < n ∧ ∃ t q ring, (r.state j).duty? t = some (.pass q) ∧
      q.publish = some ring ∧ e ∈ ring.endpoints ∧ (r.state (j + 1)).ring = ring := by
  induction n, hmn using Nat.le_induction with
  | base => exact absurd hin hout
  | succ n hmn ih =>
    by_cases hbefore : e ∈ (r.state n).ring.endpoints
    · obtain ⟨j, hmj, hjn, hj⟩ := ih hbefore
      exact ⟨j, hmj, Nat.lt_succ_of_lt hjn, hj⟩
    · have hother : (r.state (n + 1)).ring ≠ (r.state n).ring := fun heq => hbefore (heq ▸ hin)
      cases r.passing hr n with
      | @publish t p _ _ before _ _ _ _ ring =>
        rcases hpublish : p.publish with _ | brings
        · rw [Balancer.ringAfter, hpublish] at ring
          exact absurd ring hother
        · rw [Balancer.ringAfter, hpublish, Option.getD_some] at ring
          exact ⟨n, hmn, Nat.lt_succ_self n, t, p, brings, (Balancer.insider?_eq_some_iff.1 before).2, hpublish,
            ring ▸ hin, ring⟩
      | aside _ _ ring _ => exact absurd ring hother
      | enter _ _ _ _ _ _ ring => exact absurd ring hother
      | attempt _ _ _ _ _ _ _ ring => exact absurd ring hother
      | retire _ _ _ _ _ _ _ _ ring => exact absurd ring hother
      | conclude _ _ _ _ _ ring _ => exact absurd ring hother

omit ha in
theorem insider?_of_duty? {n : Nat} {t : TaskId} {p : Pass} (hd : (r.state n).duty? t = some (.pass p))
    (hp : p.phase ≠ .queued) : (r.state n).insider? = some (t, p) :=
  Balancer.insider?_eq_some_iff.2 ⟨(r.orderly hr n).turn t p hd hp, hd⟩

omit hr ha in
/-- An endpoint whose exporter is found to run has a running exporter. -/
theorem runs_of_state? {n : Nat} {e : Endpoint} (h : (r.state n).pool.state? e = some .running) : (r.state n).Runs e := by
  rw [Pool.state?, Option.map_eq_some_iff] at h
  obtain ⟨entry, hentry, hstate⟩ := h
  obtain ⟨id, hfind, he⟩ := Option.bind_eq_some_iff.1 hentry
  exact ⟨id, entry, Pool.mem_current_of_find? hfind, he, hstate⟩

omit ha in
/-- When no pass is under way, an exporter is found for an endpoint exactly if it has a running one. -/
theorem find?_ne_none_iff {n : Nat} (hfree : (r.state n).pool.gate.inside = none) (e : Endpoint) :
    (r.state n).pool.find? e ≠ none ↔ (r.state n).Runs e := by
  have ho := r.orderly hr n
  refine ⟨fun hfind => ?_, fun ⟨id, _, hmem, _⟩ => ?_⟩
  · obtain ⟨id, hid⟩ := Option.ne_none_iff_exists'.1 hfind
    exact ho.runs_of_free (r.grounded n) hfree (Pool.mem_current_of_find? hid)
  · rw [ho.kept.find?_eq_some hmem]
    exact fun h => nomatch h

/-- A pass that refreshes the pool and was let in has been about the ring that was published then. -/
theorem refreshing_of_duty? {n : Nat} {t : TaskId} {p : Pass} (hd : (r.state n).duty? t = some (.pass p)) (hrefresh : p.IsRefresh)
    (hp : p.phase ≠ .queued) : ∃ k, r.Refreshing t p k n :=
  r.refreshing hr ha (r.insider?_of_duty? hr hd hp) hrefresh

omit ha in
/-- A pass that retires exporters and is gone after the next step has told what it has done. -/
theorem outcome_of_retiring {n : Nat} {t : TaskId} {p : Pass} {added failed : List Endpoint} {retirements : List Retirement}
    (hd : (r.state n).duty? t = some (.pass p)) (hphase : p.phase = .retiring added failed retirements)
    (hfree : (r.state (n + 1)).pool.gate.inside = none) : ((r.state (n + 1)).task? t).map Task.outcome =
      some (.reconciled ((r.state n).passOutcome added failed retirements)) := by
  have hp := r.insider?_of_duty? hr hd (by rw [hphase]; intro h; cases h)
  have hgone : ∀ {t' : TaskId} {q : Pass}, (r.state (n + 1)).insider? ≠ some (t', q) := by
    intro t' q h
    rw [Balancer.insider?_eq_none hfree] at h
    cases h
  cases r.passing hr n with
  | conclude before phase _ _ _ _ tells =>
    obtain ⟨rfl, rfl⟩ := Balancer.insider?_inj before hp
    rw [hphase] at phase
    injection phase with hadded hfailed hretirements
    rw [tells, hadded, hfailed, hretirements]
  | aside _ inside _ _ => exact absurd (inside.trans hp) hgone
  | enter free _ _ _ _ _ _ =>
    rw [(Balancer.insider?_eq_some_iff.1 hp).1] at free
    cases free
  | attempt _ _ after _ _ _ _ _ => exact absurd after hgone
  | publish _ _ after _ _ _ => exact absurd after hgone
  | retire _ _ after _ _ _ _ _ _ => exact absurd after hgone

/-- In a run whose passes are finished and bring the pool in line with the ring, the passes are as good as made one after the other,
and those that refresh the pool do no harm. -/
theorem inLockOrder : r.InLockOrder where
  alone := fun n t t' p p' hd hd' hp hp' => by
    have hturn := (r.orderly hr n).turn t p hd hp
    rw [(r.orderly hr n).turn t' p' hd' hp'] at hturn
    exact (Option.some.inj hturn).symm
  order := r.entered_eq hr
  ring := fun n hfree => by
    obtain ⟨hring, _⟩ := (Balancer.replays_of_free (Balancer.insider?_eq_none hfree)).1 (r.replays hr ha n)
    have hunderway : r.underway n = [] := by
      rw [underway, Balancer.insider?_eq_none hfree]
      rfl
    rw [hring, fleet, Fleet.ring_foldl, r.entered_eq hr n, hunderway, List.append_nil, List.filterMap_map]
    rfl
  pool := fun n hfree e => by
    have hruns := r.find?_ne_none_iff hr hfree e
    refine ⟨?_, fun hfind => (hruns.1 hfind).state?_eq (r.orderly hr n).kept⟩
    rw [hruns, ← r.listed_iff hr ha hfree]
    constructor
    · rintro ⟨id, _, hmem, _⟩
      exact ⟨id, hmem⟩
    · rintro ⟨_, hmem⟩
      exact (r.orderly hr n).runs_of_free (r.grounded n) hfree hmem
  replay := fun n hfree => by
    obtain ⟨hring, hserved⟩ := (Balancer.replays_of_free (Balancer.insider?_eq_none hfree)).1 (r.replays hr ha n)
    exact ⟨hring, fun e => (r.find?_ne_none_iff hr hfree e).trans (hserved e)⟩
  starts := fun n t p wanted attempts hd hrefresh hphase => by
    obtain ⟨k, hk⟩ := r.refreshing_of_duty? hr ha hd hrefresh (by rw [hphase]; intro h; cases h)
    refine ⟨k, hk.begun.1, hk.begun.2.2, hk.ring, fun a hmem => ?_⟩
    have hmissing : a.endpoint ∈ attempts.map Attempt.endpoint := List.mem_map_of_mem hmem
    rw [(hk.starts wanted attempts hphase).2] at hmissing
    exact Pool.mem_missing_iff.1 hmissing
  retires := fun n t p added failed retirements hd hrefresh hphase => by
    obtain ⟨k, hk⟩ := r.refreshing_of_duty? hr ha hd hrefresh (by rw [hphase]; intro h; cases h)
    have hnone := hk.retires added failed retirements hphase
    refine ⟨hnone, fun hfree => ?_⟩
    rw [r.outcome_of_retiring hr hd hphase hfree, hnone, Balancer.passOutcome, List.filterMap_nil, Endpoint.sort, List.mergeSort_nil]
  spares := fun n t p hd hrefresh hp e hstate =>
    (r.runs_of_refresh hr ha (r.insider?_of_duty? hr hd hp) hrefresh (r.runs_of_state? hstate)).state?_eq
      (r.orderly hr (n + 1)).kept
  gone := fun n t p wanted attempts a hd hrefresh hphase hmem m hmn hout => by
    obtain ⟨k, hk⟩ := r.refreshing_of_duty? hr ha hd hrefresh (by rw [hphase]; intro h; cases h)
    have hmissing : a.endpoint ∈ attempts.map Attempt.endpoint := List.mem_map_of_mem hmem
    rw [(hk.starts wanted attempts hphase).2] at hmissing
    have hin : a.endpoint ∈ (r.state n).ring.endpoints := by
      rw [hk.ring n (Nat.le_of_lt hk.begun.1) (Nat.le_refl n)]
      exact (Pool.mem_missing_iff.1 hmissing).1
    exact r.brought hr hmn hout hin

end Aligned

/-- A run in which a pass that refreshes the pool waits behind one that replaces the only endpoint by another, which cannot be started
at once. -/
def queuedBehind : Run Unit := ofScript ⟨[("b", { Behaviour.smooth with start := ⟨0, .times 1, none⟩ })]⟩
  [(0, .request (.update [⟨"a"⟩])), (7, .request (.update [⟨"b"⟩])), (9, .request .reconcileToRing)]
  (fun n => if n < 7 then 0 else if n < 18 then 1 else 2)

/-- In that run, the pass that waits starts the endpoint that could not be started, and leaves the one that was removed alone. -/
theorem inLockOrder_queuedBehind : queuedBehind.FinishesPasses ∧ queuedBehind.KeepsAligned ∧
    (queuedBehind.rounds 24).map (fun x => (x.task, x.publish.map Ring.endpoints, x.failed)) =
      [(0, some [⟨"a"⟩], []), (1, some [⟨"b"⟩], [⟨"b"⟩]), (2, none, [])] ∧
    (queuedBehind.state 10).pool.gate = ⟨some 1, [2]⟩ ∧ (queuedBehind.state 24).pool.gate = Gate.free ∧
    (queuedBehind.state 24).pool.running = [⟨"b"⟩] ∧ queuedBehind.InLockOrder := by
  have hfinishes : queuedBehind.FinishesPasses := finishesPasses_ofScript (by decide)
  have haligned : queuedBehind.KeepsAligned := keepsAligned_ofScript (by decide)
  exact ⟨hfinishes, haligned, by decide +kernel, by decide +kernel, by decide +kernel, by decide +kernel,
    queuedBehind.inLockOrder hfinishes haligned⟩

end Run

end TelemetryRouter
