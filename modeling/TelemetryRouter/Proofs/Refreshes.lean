import TelemetryRouter.Proofs.LastStarts

/-!
# Passes that refresh the pool

A pass that refreshes the pool learns what it wants when it is let in: the members of the ring that is published then. That ring
stays published until the pass is over, so the pass has nothing to retire, and it starts exporters only for members of
that ring that have none. An endpoint that has left the ring is therefore out of its reach.
-/

namespace TelemetryRouter

variable {α : Type}

/-- Whether a pass refreshes the pool: it wants the members of the published ring, and brings no ring of its own. -/
def Pass.IsRefresh (p : Pass) : Prop := p.target = .publishedRing ∧ p.publish = none

namespace Run

/-- What a pass that refreshes the pool is about, from the step that let it in. -/
structure Refreshing (r : Run α) (t : TaskId) (p : Pass) (k n : Nat) : Prop where
  begun : k < n ∧ (r.state k).pool.gate.inside = none ∧ r.enters? k = some (t, none)
  ring : ∀ j, k ≤ j → j ≤ n → (r.state j).ring = (r.state k).ring
  within : ∀ c ∈ (r.state n).pool.current, c.1 ∈ (r.state k).ring.endpoints
  starts : ∀ wanted attempts, p.phase = .adding wanted attempts → wanted = (r.state k).ring.endpoints ∧
    attempts.map Attempt.endpoint = (r.state k).pool.missing (r.state k).ring.endpoints
  retires : ∀ added failed retirements, p.phase = .retiring added failed retirements → retirements = []

section Refreshes

variable {r : Run α} {t : TaskId} {p p' : Pass} {k n : Nat}

/-- What the pass is about stays the same while it goes on. -/
theorem Refreshing.succ (h : r.Refreshing t p k n) (hring : (r.state (n + 1)).ring = (r.state n).ring)
    (hwithin : ∀ c ∈ (r.state (n + 1)).pool.current, c.1 ∈ (r.state k).ring.endpoints)
    (hstarts : ∀ wanted attempts, p'.phase = .adding wanted attempts → wanted = (r.state k).ring.endpoints ∧
      attempts.map Attempt.endpoint = (r.state k).pool.missing (r.state k).ring.endpoints)
    (hretires : ∀ added failed retirements, p'.phase = .retiring added failed retirements → retirements = []) :
    r.Refreshing t p' k (n + 1) where
  begun := ⟨Nat.lt_succ_of_lt h.begun.1, h.begun.2⟩
  ring := fun j hkj hjn => by
    rcases Nat.lt_or_eq_of_le hjn with hlt | rfl
    · exact h.ring j hkj (Nat.le_of_lt_succ hlt)
    · rw [hring]
      exact h.ring n (Nat.le_of_lt h.begun.1) (Nat.le_refl n)
  within := hwithin
  starts := hstarts
  retires := hretires

/-- A step of a start lists no exporter but of its endpoint that was not listed before. -/
theorem fst_of_mem_current {b c : Balancer α} {e : Endpoint} {phase phase' : AttemptPhase}
    (h : Balancer.AttemptStep b e phase c phase') {x : Endpoint × ExporterId} (hx : x ∈ c.pool.current) :
    x.1 = e ∨ x ∈ b.pool.current := by
  by_cases he : x.1 = e
  · exact .inl he
  · exact .inr ((h.mem_current_iff he).1 hx)

variable (hr : r.FinishesPasses) (ha : r.KeepsAligned)

include hr ha

/-- Whatever pass that refreshes the pool is under way, it has been about the ring that was published when it was let in. -/
theorem refreshing (hp : (r.state n).insider? = some (t, p)) (hrefresh : p.IsRefresh) : ∃ k, r.Refreshing t p k n := by
  induction n generalizing t p with
  | zero => cases hp
  | succ n ih =>
    cases r.passing hr n with
    | aside ageless inside ring _ =>
      rw [inside] at hp
      obtain ⟨k, hk⟩ := ih hp hrefresh
      exact ⟨k, hk.succ ring (fun c hc => hk.within c (ageless.current ▸ hc)) hk.starts hk.retires⟩
    | @enter t' q wanted attempts free _ after wanted_eq attempts_eq ageless ring =>
      obtain ⟨rfl, rfl⟩ := Balancer.insider?_inj after hp
      have hwanted : wanted = (r.state n).ring.endpoints := by
        rw [wanted_eq, show q.target = .publishedRing from hrefresh.1]
        rfl
      refine ⟨n, ⟨Nat.lt_succ_self n, free, ?_⟩, fun j hnj hj => ?_, fun c hc => ?_, fun wanted' attempts' hphase => ?_,
        fun _ _ _ hphase => ?_⟩
      · rw [(r.records_of_enter free after).1]
        exact congrArg (fun x => some (t, x)) hrefresh.2
      · rcases Nat.lt_or_eq_of_le hj with hlt | rfl
        · rw [Nat.le_antisymm (Nat.le_of_lt_succ hlt) hnj]
        · exact ring
      · exact (r.covered hr ha n).within free c (ageless.current ▸ hc)
      · injection hphase with hwanted' hattempts'
        rw [← hwanted', ← hattempts', attempts_eq, List.map_map, hwanted]
        exact ⟨rfl, List.map_id' _⟩
      · cases hphase
    | @attempt t' q wanted attempts way a a' c before phase after at_way endpoint step ageless ring =>
      obtain ⟨rfl, rfl⟩ := Balancer.insider?_inj after hp
      obtain ⟨k, hk⟩ := ih before hrefresh
      obtain ⟨hwanted, hattempts⟩ := hk.starts wanted attempts phase
      refine ⟨k, hk.succ ring (fun x hx => ?_) (fun wanted' attempts' hphase => ?_) (fun _ _ _ hphase => nomatch hphase)⟩
      · rcases fst_of_mem_current step (ageless.current ▸ hx) with he | hx
        · have hmem : a.endpoint ∈ attempts.map Attempt.endpoint := List.mem_map_of_mem (List.mem_of_getElem? at_way)
          rw [hattempts] at hmem
          exact he ▸ (Pool.mem_missing_iff.1 hmem).1
        · exact hk.within x hx
      · injection hphase with hwanted' hattempts'
        rw [← hwanted', ← hattempts', Attempt.map_endpoint_set at_way endpoint]
        exact ⟨hwanted, hattempts⟩
    | @publish t' q wanted attempts before phase after _ ageless ring =>
      obtain ⟨rfl, rfl⟩ := Balancer.insider?_inj after hp
      obtain ⟨k, hk⟩ := ih before hrefresh
      obtain ⟨hwanted, _⟩ := hk.starts wanted attempts phase
      refine ⟨k, hk.succ ?_ (fun x hx => hk.within x (ageless.current ▸ hx)) (fun _ _ hphase => nomatch hphase)
        (fun _ _ _ hphase => ?_)⟩
      · rw [ring, Balancer.ringAfter, show q.publish = none from hrefresh.2]
        rfl
      · injection hphase with _ _ hretirements
        have hnone : (r.state n).pool.extra wanted = [] := by
          rw [Pool.extra, List.map_eq_nil_iff, List.filter_eq_nil_iff]
          intro x hx
          have hin := hk.within x hx
          rw [← hwanted] at hin
          simpa using hin
        rw [← hretirements, hnone]
        rfl
    | @retire t' q added failed retirements way x x' entry c before phase after at_way _ _ _ _ _ =>
      obtain ⟨rfl, rfl⟩ := Balancer.insider?_inj after hp
      obtain ⟨k, hk⟩ := ih before hrefresh
      rw [hk.retires added failed retirements phase] at at_way
      cases at_way
    | conclude _ _ after _ _ _ _ =>
      rw [Balancer.insider?_eq_none after] at hp
      cases hp

/-- A step of a pass that refreshes the pool leaves every running exporter running. -/
theorem runs_of_refresh {e : Endpoint} (hp : (r.state n).insider? = some (t, p)) (hrefresh : p.IsRefresh)
    (hruns : (r.state n).Runs e) : (r.state (n + 1)).Runs e := by
  have ho := r.orderly hr n
  have hb := r.covered hr ha n
  cases r.passing hr n with
  | aside ageless _ _ _ => exact hruns.ageless ageless
  | publish _ _ _ _ ageless _ => exact hruns.ageless ageless
  | conclude _ _ _ _ ageless _ _ => exact hruns.ageless ageless
  | enter free _ _ _ _ _ _ =>
    rw [Balancer.insider?_eq_none free] at hp
    cases hp
  | @attempt t' q wanted attempts way a a' c before phase after at_way endpoint step ageless ring =>
    have hd := (Balancer.insider?_eq_some_iff.1 before).2
    have hmem : a ∈ attempts := List.mem_of_getElem? at_way
    have hs := ho.starts_of_adding hd phase
    refine (step.runs (fun heq => ?_) (fun id hid entry he => (hs.starting id entry he).2 ⟨a, hmem, hid⟩) hruns).ageless ageless
    subst heq
    exact step.ne_started (hb.started_of_runs ho ((ho.attempting_own hd phase hmem _).2 rfl) hruns)
  | @retire t' q added failed retirements way x x' entry c before phase after at_way _ _ _ _ _ =>
    obtain ⟨rfl, rfl⟩ := Balancer.insider?_inj before hp
    obtain ⟨k, hk⟩ := r.refreshing hr ha hp hrefresh
    rw [hk.retires added failed retirements phase] at at_way
    cases at_way

end Refreshes

end Run

end TelemetryRouter
