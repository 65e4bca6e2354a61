import TelemetryRouter.Proofs.Posts
import TelemetryRouter.Proofs.Rounds

/-!
# Passes that empty the pool

A pass that wants no endpoints and brings a ring without any has nothing to start. It publishes that ring and retires whatever the pool
lists, so nothing is published and nothing is listed when it is done, and another pass of this kind leaves it so.
-/

namespace TelemetryRouter

variable {α : Type}

namespace Balancer

/-- Whether no endpoint is published and no exporter is listed. -/
structure Vacant (b : Balancer α) : Prop where
  ring : b.ring.endpoints = []
  pool : b.pool.current = []

/-- What a pass that empties the ring and the pool is about, in its phase. -/
structure Clearing (b : Balancer α) (p : Pass) : Prop where
  starts : ∀ wanted attempts, p.phase = .adding wanted attempts → wanted = [] ∧ attempts = []
  retires : ∀ added failed retirements, p.phase = .retiring added failed retirements → b.ring.endpoints = [] ∧
    ∀ c ∈ b.pool.current, ∃ x ∈ retirements, x.id = c.2

section Clearings

variable {b b' : Balancer α} {t : TaskId} {p : Pass}

/-- A retirement that makes a step is of the exporter that it was of. -/
theorem exists_id_set {retirements : List Retirement} {way : Nat} {x x' : Retirement} (hat : retirements[way]? = some x)
    (hid : x'.id = x.id) {id : ExporterId} (h : ∃ y ∈ retirements, y.id = id) : ∃ y ∈ retirements.set way x', y.id = id := by
  obtain ⟨y, hy, rfl⟩ := h
  obtain ⟨i, hi⟩ := List.getElem?_of_mem hy
  by_cases hway : way = i
  · subst hway
    obtain rfl : x = y := Option.some.inj (hat.symm.trans hi)
    exact ⟨x', List.mem_of_getElem? (List.getElem?_set_self (List.getElem?_eq_some_iff.1 hat).1), hid⟩
  · exact ⟨y, List.mem_of_getElem? ((List.getElem?_set_ne hway).trans hi), rfl⟩

/-- While the pass inside empties the ring and the pool, every step keeps to what it is about. -/
theorem Passing.clearing (h : Passing b b') (hb : ∀ t p, b.insider? = some (t, p) → p.Empties → b.Clearing p)
    (hp : b'.insider? = some (t, p)) (hempties : p.Empties) : b'.Clearing p := by
  have hsame : ∀ {t' : TaskId} {q : Pass}, b'.insider? = some (t', q) → q = p := fun hq => (insider?_inj hp hq).2
  cases h with
  | aside ageless inside ring _ =>
    rw [inside] at hp
    have hclearing := hb t p hp hempties
    exact ⟨hclearing.starts, fun added failed retirements hphase => by
      rw [ring, ageless.current]
      exact hclearing.retires added failed retirements hphase⟩
  | @enter t' q wanted attempts _ _ after wanted_eq attempts_eq _ _ =>
    obtain rfl := hsame after
    refine ⟨fun wanted' attempts' hphase => ?_, fun _ _ _ hphase => by cases hphase⟩
    injection hphase with hwanted hattempts
    have hnone : wanted = [] := wanted_eq.trans (congrArg b.wanted hempties.1)
    have hmissing : b.pool.missing [] = [] := List.eq_nil_iff_forall_not_mem.2 (fun e he => by
      cases (Endpoint.mem_normalize [] e).1 (List.mem_filter.1 he).1)
    rw [← hwanted, ← hattempts, attempts_eq, hnone, hmissing]
    exact ⟨rfl, rfl⟩
  | @attempt t' q wanted attempts way _ _ _ before phase after at_way _ _ _ _ =>
    obtain rfl := hsame after
    rw [((hb t' q before hempties).starts wanted attempts phase).2] at at_way
    cases at_way
  | @publish t' q wanted attempts before phase after _ ageless ring =>
    obtain rfl := hsame after
    refine ⟨(fun _ _ hphase => by cases hphase), fun added failed retirements hphase => ?_⟩
    injection hphase with _ _ hretirements
    obtain ⟨published, hpublish, hnil⟩ := hempties.2
    have hpublish : q.publish = some published := hpublish
    refine ⟨?_, fun c hc => ?_⟩
    · rw [ring, ringAfter, hpublish]
      exact hnil
    · rw [ageless.current] at hc
      rw [← hretirements, ((hb t' q before hempties).starts wanted attempts phase).1]
      refine ⟨⟨c.2, .pending⟩, List.mem_map_of_mem (List.mem_map_of_mem (List.mem_filter.2 ⟨hc, ?_⟩)), rfl⟩
      rfl
  | @retire t' q added failed retirements way x x' entry c before phase after at_way id _ step ageless ring =>
    obtain rfl := hsame after
    obtain ⟨hring, hlisted⟩ := (hb t' q before hempties).retires added failed retirements phase
    refine ⟨(fun _ _ hphase => by cases hphase), fun added' failed' retirements' hphase => ?_⟩
    injection hphase with _ _ hretirements
    refine ⟨ring ▸ hring, fun y hy => ?_⟩
    rw [ageless.current] at hy
    rw [← hretirements]
    exact exists_id_set at_way id (hlisted y (step.mem_current hy))
  | conclude _ _ after _ _ _ _ =>
    rw [insider?_eq_none after] at hp
    cases hp

/-- When a pass that empties the ring and the pool is done, they are empty. -/
theorem Clearing.vacant (h : b.Clearing p) (ho : b.Orderly) (hg : b.Grounded) (hp : b.insider? = some (t, p)) (hdone : p.IsDone) :
    b.Vacant := by
  obtain ⟨added, failed, retirements, hphase, hover⟩ := hdone
  obtain ⟨hring, hlisted⟩ := h.retires added failed retirements hphase
  refine ⟨hring, List.eq_nil_iff_forall_not_mem.2 (fun c hc => ?_)⟩
  have hretires := ho.retires_of_retiring (insider?_eq_some_iff.1 hp).2 hphase
  obtain ⟨x, hx, hid⟩ := hlisted c hc
  obtain ⟨entry, he, hfits⟩ := hretires.fits x hx
  have hstate : entry.state = .stopped := by
    have hxover := List.all_eq_true.1 hover x hx
    obtain ⟨id, phase⟩ := x
    cases phase <;> first | exact hfits | cases hxover
  rw [hid] at he
  have hendpoint := hg.current c hc
  rw [endpointOf?_eq_some he] at hendpoint
  refine (ho.kept.listed c.2 entry he).2 ?_ hstate
  rw [Option.some.inj hendpoint]
  exact hc

/-- As long as all passes empty the ring and the pool, what is empty stays so, and no exporter is made. -/
theorem Passing.vacant (h : Passing b b') (hb : b.Vacant) (hpasses : ∀ t p, b.insider? = some (t, p) → p.Empties ∧ b.Clearing p) :
    b'.Vacant ∧ b'.pool.made.length = b.pool.made.length := by
  cases h with
  | aside ageless _ ring _ => exact ⟨⟨ring ▸ hb.ring, ageless.current.trans hb.pool⟩, ageless.length⟩
  | enter _ _ _ _ _ ageless ring => exact ⟨⟨ring ▸ hb.ring, ageless.current.trans hb.pool⟩, ageless.length⟩
  | @attempt t p wanted attempts way _ _ _ before phase _ at_way _ _ _ _ =>
    rw [((hpasses t p before).2.starts wanted attempts phase).2] at at_way
    cases at_way
  | @publish t p _ _ before _ _ _ ageless ring =>
    obtain ⟨_, published, hpublish, hnil⟩ := (hpasses t p before).1
    refine ⟨⟨?_, ageless.current.trans hb.pool⟩, ageless.length⟩
    rw [ring, ringAfter, hpublish]
    exact hnil
  | @retire _ _ _ _ _ _ x x' _ _ _ _ _ _ _ _ step ageless ring =>
    refine ⟨⟨ring ▸ hb.ring, ageless.current.trans (List.eq_nil_iff_forall_not_mem.2 (fun c hc => ?_))⟩, ?_⟩
    · have hmem := step.mem_current hc
      rw [hb.pool] at hmem
      cases hmem
    · refine ageless.length.trans ?_
      obtain ⟨id, phase⟩ := x
      obtain ⟨id', phase'⟩ := x'
      dsimp only at step
      cases step with
      | mark touches _ => exact touches.length
      | drain _ _ touches _ => exact touches.length
      | close _ touches _ => exact touches.length
      | giveUp _ _ touches _ => exact touches.length
      | leave _ touches _ => exact touches.length
  | conclude _ _ _ _ ageless ring _ => exact ⟨⟨ring ▸ hb.ring, ageless.current.trans hb.pool⟩, ageless.length⟩

end Clearings

end Balancer

namespace Run

/-- In every state of a run that finishes its passes, a pass inside that empties the ring and the pool keeps to what it is about. -/
theorem clearing (r : Run α) (hr : r.FinishesPasses) :
    ∀ n t p, (r.state n).insider? = some (t, p) → p.Empties → (r.state n).Clearing p
  | 0, _, _, hp, _ => nomatch hp
  | n + 1, _, _, hp, hempties => (r.passing hr n).clearing (r.clearing hr n) hp hempties

end Run

end TelemetryRouter
