import TelemetryRouter.Proofs.Coverage

/-!
# The ring and the pool agree

In a run whose passes are finished and bring the pool in line with the ring, the published ring never names an endpoint whose exporter
is on its way out, and an endpoint that it names has a running exporter unless its last start has failed. So a key is only ever
routed to an exporter that can be leased, or to an endpoint that could not be started.
-/

namespace TelemetryRouter

variable {α : Type}

namespace Balancer

section Lookups

variable {b : Balancer α} {e : Endpoint}

theorem Kept.find?_eq_some (hb : b.Kept) {id : ExporterId} (h : (e, id) ∈ b.pool.current) : b.pool.find? e = some id := by
  rcases hfind : b.pool.find? e with _ | id'
  · exact absurd (List.lookup_eq_none_iff.1 hfind (e, id) h) (by simp)
  · exact congrArg some (hb.eq_of_mem (Pool.mem_current_of_find? hfind) h)

theorem Runs.state?_eq (h : b.Runs e) (hb : b.Kept) : b.pool.state? e = some .running := by
  obtain ⟨id, entry, hmem, he, hstate⟩ := h
  rw [Pool.state?, hb.find?_eq_some hmem, Option.bind_some, he, Option.map_some, hstate]

theorem Lacks.find?_eq_none (h : b.Lacks e) : b.pool.find? e = none :=
  List.lookup_eq_none_iff.2 (fun c hc => by simpa using (h c hc).symm)

theorem Begins.state?_eq (h : b.Begins e) (ho : b.Orderly) (hg : b.Grounded) :
    ∃ id wake, b.pool.find? e = some id ∧ b.pool.state? e = some .starting ∧ b.Attempting e (.starting id wake) := by
  obtain ⟨id, wake, hmem, hattempting⟩ := h
  have hfind := ho.kept.find?_eq_some hmem
  refine ⟨id, wake, hfind, ?_, hattempting⟩
  obtain ⟨t, p, wanted, attempts, hd, hphase, hin⟩ := hattempting
  have hs := ho.starts_of_adding hd hphase
  obtain ⟨entry, he, _⟩ := entry?_of_endpointOf? (hg.current _ hmem)
  rw [Pool.state?, hfind, Option.bind_some, he, Option.map_some, (hs.starting id entry he).2 ⟨_, hin, rfl⟩]

/-- An exporter that is being stopped is being retired by the pass under way. -/
theorem Orderly.retiring_of_stopping (ho : b.Orderly) {id : ExporterId} {entry : Entry} (he : b.pool.entry? id = some entry)
    (hstate : entry.state = .stopping) : ∃ phase, b.Retiring id phase := by
  rcases hinside : b.pool.gate.inside with _ | t
  · rcases ho.free hinside id entry he with h | h <;> rw [h] at hstate <;> cases hstate
  · obtain ⟨p, hd, haccounts⟩ := ho.taken t hinside
    rcases hphase : p.phase with _ | ⟨wanted, attempts⟩ | ⟨added, refused, retirements⟩
    · exact absurd hphase haccounts.ne_queued
    · rw [hphase] at haccounts
      have hs : b.Starts attempts := haccounts
      exact absurd hstate (hs.others id entry he)
    · rw [hphase] at haccounts
      have hr : b.Retires retirements := haccounts
      obtain ⟨r, hr, rfl⟩ := hr.stopping id entry he hstate
      exact ⟨r.phase, t, p, added, refused, retirements, hd, hphase, hr⟩

theorem Covered.outside {failed : Endpoint → Prop} (hb : b.Covered failed) {id : ExporterId} {phase : RetirementPhase}
    (h : b.Retiring id phase) (he : b.endpointOf? id = some e) : e ∉ b.ring.endpoints := by
  obtain ⟨t, p, added, refused, retirements, hd, hphase, hmem⟩ := h
  exact (hb.clears hd hphase).outside _ hmem e he

end Lookups

end Balancer

theorem Ring.IsBuilt.mem_of_owner {ring : Ring} (h : ring.IsBuilt) {key : RoutingKey} {e : Endpoint}
    (howner : ring.owner key = some e) : e ∈ ring.endpoints := by
  obtain ⟨es, n, rfl⟩ := h
  exact (Endpoint.mem_normalize es e).2 (Ring.nearest_of_ownerAt Sha256.position es n howner).1

namespace Run

/-- Whether the start of an exporter for an endpoint comes to a phase in a step. -/
def Comes (r : Run α) (e : Endpoint) (phase : AttemptPhase) (n : Nat) : Prop :=
  (r.state (n + 1)).Attempting e phase ∧ ¬ (r.state n).Attempting e phase

/-- Whether, of all starts of exporters for an endpoint that have ended before a step, the last one has failed. -/
def LastFailed (r : Run α) (e : Endpoint) (n : Nat) : Prop :=
  ∃ k < n, r.Comes e .failed k ∧ ∀ j, k < j → j < n → ¬ r.Comes e .started j ∧ ¬ r.Comes e .failed j

/-- How the ring and the pool agree after so many steps. -/
structure Consistent (r : Run α) (n : Nat) : Prop where
  /-- An exporter that is being stopped is not of a published endpoint. -/
  unstopped : ∀ id entry, (r.state n).pool.entry? id = some entry → entry.state = .stopping →
    entry.endpoint ∉ (r.state n).ring.endpoints
  /-- An exporter that is being retired is not of a published endpoint. -/
  unretired : ∀ id phase e, (r.state n).Retiring id phase → (r.state n).endpointOf? id = some e →
    e ∉ (r.state n).ring.endpoints
  /-- A published endpoint has a running exporter, or its last start has failed and there is none but one that is being started. -/
  served : ∀ e ∈ (r.state n).ring.endpoints, (r.state n).pool.state? e = some .running ∨
    (r.LastFailed e n ∧ ((r.state n).pool.find? e = none ∨ ∃ id wake, (r.state n).pool.find? e = some id ∧
      (r.state n).pool.state? e = some .starting ∧ (r.state n).Attempting e (.starting id wake)))
  /-- When no pass is under way, all exporters of the pool run, and they are of published endpoints. -/
  settled : (r.state n).pool.gate.inside = none → ∀ c ∈ (r.state n).pool.current,
    (r.state n).pool.state? c.1 = some .running ∧ c.1 ∈ (r.state n).ring.endpoints
  /-- A key is routed to a running exporter, unless the last start for its owner has failed. -/
  routed : ∀ key e, (r.state n).ring.owner key = some e →
    (r.state n).pool.state? e = some .running ∨ (r.LastFailed e n ∧ (r.state n).pool.state? e ≠ some .running)

/-- The failures that are the last ones of their endpoints are kept track of. -/
theorem counts (r : Run α) (n : Nat) :
    Balancer.Counts (r.state n) (r.state (n + 1)) (fun e => r.LastFailed e n) (fun e => r.LastFailed e (n + 1)) where
  ends := fun e hafter hbefore =>
    ⟨n, Nat.lt_succ_self n, ⟨hafter, hbefore⟩, fun j hj hlt => absurd (Nat.le_of_lt_succ hlt) (Nat.not_le.2 hj)⟩
  stays := fun e ⟨k, hk, hcomes, hlast⟩ hstarted => by
    by_cases hfails : r.Comes e .failed n
    · exact ⟨n, Nat.lt_succ_self n, hfails, fun j hj hlt => absurd (Nat.le_of_lt_succ hlt) (Nat.not_le.2 hj)⟩
    · refine ⟨k, Nat.lt_succ_of_lt hk, hcomes, fun j hj hlt => ?_⟩
      rcases Nat.lt_or_eq_of_le (Nat.le_of_lt_succ hlt) with hlt | rfl
      · exact hlast j hj hlt
      · exact ⟨fun hcomes => hcomes.2 (hstarted hcomes.1), hfails⟩

/-- In a run whose passes are finished and bring the pool in line with the ring, the pool covers the ring in every state. -/
theorem covered (r : Run α) (hr : r.FinishesPasses) (ha : r.KeepsAligned) : ∀ n, (r.state n).Covered (fun e => r.LastFailed e n)
  | 0 => Balancer.covered_new _ _ _ _ _
  | n + 1 => by
    have hb := r.covered hr ha n
    have ho := r.orderly hr n
    have hg := r.grounded n
    have hpass : ∀ {t : TaskId} {p : Pass} {rest : List (Work α)}, (r.state n).works t = .pass p :: rest →
        (∀ w ∈ rest, w.isInert = true) → Balancer.PassStep (r.state n) t rest p (r.state (n + 1)) →
          (r.state (n + 1)).Covered (fun e => r.LastFailed e (n + 1)) := fun hw hrest hstep =>
      hb.passStep ho hg (r.aligned ha n _ _ (Balancer.duty?_of_works hw rfl)) hw hrest hstep (r.counts n)
    rcases (r.change n).aside_or_pass hg ho.inside (hr n) with haside | ⟨_, _, _, _, _, hw, hrest, hstep⟩
    · rcases (r.change n).sameRings_or_pass hg with hsame | ⟨_, _, _, hw, hrest, hstep⟩
      · exact hb.aside haside hsame.ring (r.counts n)
      · exact hpass hw hrest hstep
    · exact hpass hw hrest hstep

/-- In a run whose passes are finished and bring the pool in line with the ring, the ring and the pool agree in every state. -/
theorem consistent (r : Run α) (hr : r.FinishesPasses) (ha : r.KeepsAligned) (n : Nat) : r.Consistent n := by
  have hb := r.covered hr ha n
  have ho := r.orderly hr n
  have hg := r.grounded n
  have hserved : ∀ e ∈ (r.state n).ring.endpoints, (r.state n).pool.state? e = some .running ∨
      (r.LastFailed e n ∧ ((r.state n).pool.find? e = none ∨ ∃ id wake, (r.state n).pool.find? e = some id ∧
        (r.state n).pool.state? e = some .starting ∧ (r.state n).Attempting e (.starting id wake))) := by
    intro e he
    rcases hb.served e he with hruns | ⟨hlast, hlacks | hbegins⟩
    · exact .inl (hruns.state?_eq ho.kept)
    · exact .inr ⟨hlast, .inl hlacks.find?_eq_none⟩
    · exact .inr ⟨hlast, .inr (hbegins.state?_eq ho hg)⟩
  refine ⟨fun id entry he hstate => ?_, fun id phase e hretiring he => hb.outside hretiring he, hserved,
    fun hfree c hc => ⟨(ho.runs_of_free hg hfree hc).state?_eq ho.kept, hb.within hfree c hc⟩, fun key e howner => ?_⟩
  · obtain ⟨phase, hretiring⟩ := ho.retiring_of_stopping he hstate
    exact hb.outside hretiring (Balancer.endpointOf?_eq_some he)
  · rcases hserved e ((r.published n).ring.mem_of_owner howner) with hruns | ⟨hlast, hnone | ⟨_, _, _, hstarting, _⟩⟩
    · exact .inl hruns
    · exact .inr ⟨hlast, by rw [Pool.state?, hnone]; exact fun h => nomatch h⟩
    · exact .inr ⟨hlast, by rw [hstarting]; exact fun h => nomatch h⟩

/-- A run in which an endpoint is replaced by one whose exporter refuses to start. -/
def replaced : Run Unit := ofScript ⟨[("b", { Behaviour.smooth with start := ⟨0, .always, none⟩ })]⟩
  [(0, .request (.update [⟨"a"⟩])), (7, .request (.update [⟨"b"⟩]))]
  (fun n => if n < 7 then 0 else 1)

/-- In that run, the old endpoint is being stopped when the new one is published and could not be started. -/
theorem consistent_replaced : replaced.FinishesPasses ∧ replaced.KeepsAligned ∧
    (replaced.state 14).ring.endpoints = [⟨"b"⟩] ∧ (replaced.state 14).pool.state? ⟨"b"⟩ = none ∧
    (replaced.state 14).pool.state? ⟨"a"⟩ = some .stopping ∧ replaced.Consistent 14 := by
  have hfinishes : replaced.FinishesPasses := finishesPasses_ofScript (by decide)
  have haligned : replaced.KeepsAligned := keepsAligned_ofScript (by decide)
  exact ⟨hfinishes, haligned, by decide +kernel, by decide +kernel, by decide +kernel, replaced.consistent hfinishes haligned 14⟩

end Run

end TelemetryRouter
