import Mathlib.Algebra.GroupWithZero.Nat
import TelemetryRouter.Proofs.Dispatches

/-!
# Dispatches end

A task is served when each of its ways is tried again and again, time goes on without end, and nobody gives the task up. The dispatch of
a served task ends: every move that is not blocked brings one of its parcels nearer to its end, and no parcel is blocked for ever.
-/

namespace TelemetryRouter

variable {α : Type}

namespace Run

/-- Whether a run serves a task: it tries all its ways again and again, lets time pass, and does not give the task up. -/
structure Serves (r : Run α) (t : TaskId) : Prop where
  moves : ∀ n way, ∃ m, n ≤ m ∧ r.action m = .move t way
  time : ∀ tick, ∃ m, tick ≤ (r.state m).now
  kept : ∀ n, r.action n ≠ .abandon t

variable {r : Run α} {t m : Nat}

/-- A served task makes a move that is not blocked, if one of its ways opens in the course of time. -/
theorem Serves.moves_on (hs : r.Serves t) {task : Task α} (ht : (r.state m).task? t = some task) {way tick : Nat}
    (hopen : ∀ j, m ≤ j → (r.state j).task? t = some task → tick ≤ (r.state j).now → (r.state j).move t way ≠ none) :
    ∃ j way next, m ≤ j ∧ (r.state j).task? t = some task ∧ r.action j = .move t way ∧ (r.state j).move t way = some next := by
  by_contra hnever
  have hstays : ∀ j, m ≤ j → (r.state j).task? t = some task := by
    intro j hj
    induction j, hj using Nat.le_induction with
    | base => exact ht
    | succ j hj ih =>
      by_cases hmove : ∃ way, r.action j = .move t way
      · obtain ⟨way, hmove⟩ := hmove
        have hblocked : (r.state j).move t way = none := by
          refine Option.eq_none_iff_forall_ne_some.2 (fun next hnext => ?_)
          exact hnever ⟨j, way, next, hj, ih, hmove, hnext⟩
        rw [state_succ_of_blocked hmove hblocked]
        exact ih
      · have hlt : t < (r.state j).tasks.length := (List.getElem?_eq_some_iff.1 ih).1
        exact (r.task?_succ hlt (fun way hway => hmove ⟨way, hway⟩) (hs.kept j)).trans ih
  obtain ⟨late, hlate⟩ := hs.time tick
  obtain ⟨j, hj, hmove⟩ := hs.moves (max m late) way
  have hmj : m ≤ j := Nat.le_trans (Nat.le_max_left _ _) hj
  have hnow : tick ≤ (r.state j).now := Nat.le_trans hlate (r.now_le (Nat.le_trans (Nat.le_max_right _ _) hj))
  obtain ⟨next, hnext⟩ := Option.ne_none_iff_exists'.1 (hopen j hmj (hstays j hmj) hnow)
  exact hnever ⟨j, way, next, hmj, hstays j hmj, hmove, hnext⟩

theorem outcome?_of_task? {b : Balancer α} {outcome : Outcome α} (h : b.task? t = some ⟨[], outcome⟩) :
    b.outcome? t = some outcome := by
  rw [Balancer.outcome?, h]
  rfl

/-- A delivery can go on, if all its parcels are over or the exporter of one is done. -/
theorem deliver_open {b : Balancer α} {started : Nat} {deadline : Option Instant} {token : Option String}
    {parcels : List (Parcel α)} {outcome : Outcome α} (ht : b.task? t = some ⟨[.deliver started deadline token parcels], outcome⟩)
    {way : Nat} (hopen : parcels.all Parcel.isOver = true ∨ ∃ p, parcels[way]? = some p ∧ p.isOver = false ∧
      ∀ id since wake, p.phase = .exporting id since wake → wake ≤ b.now) : b.move t way ≠ none := by
  rw [Balancer.move, Balancer.works_of_task? ht]
  show b.stepDeliver t [] started deadline token parcels way ≠ none
  unfold Balancer.stepDeliver
  split
  · simp
  · rename_i hnot
    obtain ⟨p, hp, hover, hdone⟩ := hopen.resolve_left hnot
    rw [hp, Option.bind_some]
    simpa using b.stepParcel_ne_none started deadline token hover hdone

/-- How many steps the parcels of a delivery may still take. -/
def remaining (parcels : List (Parcel α)) : Nat := (parcels.map (fun p => p.phase.remaining)).sum

theorem remaining_set_lt {parcels : List (Parcel α)} {way : Nat} {p p' : Parcel α} (hp : parcels[way]? = some p)
    (h : p'.phase.remaining < p.phase.remaining) : remaining (parcels.set way p') < remaining parcels := by
  induction parcels generalizing way with
  | nil => cases hp
  | cons q parcels ih =>
    cases way with
    | zero =>
      injection hp with hp
      subst hp
      simpa [remaining] using h
    | succ way =>
      have hrest := ih hp
      simp only [remaining, List.set_cons_succ, List.map_cons, List.sum_cons] at hrest ⊢
      omega

theorem Serves.ends_deliver (hs : r.Serves t) {started : Nat} {deadline : Option Instant} {token : Option String}
    {parcels : List (Parcel α)} {outcome : Outcome α}
    (ht : (r.state m).task? t = some ⟨[.deliver started deadline token parcels], outcome⟩) :
    ∃ j result, m ≤ j ∧ (r.state j).outcome? t = some (.dispatched result) := by
  induction hsum : remaining parcels using Nat.strong_induction_on generalizing m parcels with
  | _ total ih =>
    have hways : ∃ way tick, ∀ j, (r.state j).task? t = some ⟨[.deliver started deadline token parcels], outcome⟩ →
        tick ≤ (r.state j).now → (r.state j).move t way ≠ none := by
      by_cases hall : parcels.all Parcel.isOver = true
      · exact ⟨0, 0, fun j hj _ => deliver_open hj (.inl hall)⟩
      · obtain ⟨p, hp, hover⟩ : ∃ p ∈ parcels, p.isOver = false := by simpa using hall
        obtain ⟨way, hat⟩ := List.getElem?_of_mem hp
        rcases hphase : p.phase with _ | _ | ⟨id, since, wake⟩ | _ | _
        case exporting =>
          refine ⟨way, wake, fun j hj hnow => deliver_open hj (.inr ⟨p, hat, hover, fun id' since' wake' h => ?_⟩)⟩
          rw [hphase] at h
          injection h with _ _ hwake
          exact hwake ▸ hnow
        all_goals
          refine ⟨way, 0, fun j hj _ => deliver_open hj (.inr ⟨p, hat, hover, fun id' since' wake' h => ?_⟩)⟩
          rw [hphase] at h
          cases h
    obtain ⟨way, tick, hopen⟩ := hways
    obtain ⟨j, way, next, hmj, hj, hmove, hnext⟩ := hs.moves_on ht (fun j _ => hopen j)
    have hstate : r.state (j + 1) = next := by
      rw [state, hmove, Balancer.perform, hnext]
      rfl
    have hworks := Balancer.works_of_task? hj
    have hstep : (r.state j).stepDeliver t [] started deadline token parcels way = some next := by
      rw [← hnext, Balancer.move, hworks]
      rfl
    have hgrounded := (r.grounded j).duties t _ (Balancer.duty?_of_works hworks rfl)
    cases Balancer.stepDeliver_cases hgrounded hstep with
    | @parcel p p' c at_way endpoint batch_eq frame step =>
      have hlater : (r.state (j + 1)).task? t = some ⟨[.deliver started deadline token (parcels.set way p')], outcome⟩ :=
        hstate ▸ task?_withWorks_self hj frame.tasks
      have hless : remaining (parcels.set way p') < total := hsum ▸ remaining_set_lt at_way step.remaining_lt
      obtain ⟨i, result, hji, hi⟩ := ih _ hless hlater rfl
      exact ⟨i, result, by omega, hi⟩
    | finish ended =>
      have hlater : (r.state (j + 1)).task? t = some ⟨[], .dispatched (Parcel.result parcels)⟩ :=
        hstate ▸ task?_finish_self hj rfl
      exact ⟨j + 1, _, by omega, outcome?_of_task? hlater⟩

theorem Serves.ends {n : Nat} {batch : Batch α} {context : DispatchContext} (hs : r.Serves (r.state n).nextTask)
    (hrequest : r.action n = .request (.dispatch batch context)) :
    ∃ j result, n < j ∧ (r.state j).outcome? (r.state n).nextTask = some (.dispatched result) := by
  have hbegins : ∀ j, (r.state j).task? (r.state n).nextTask = some ⟨[.dispatch batch context], .done⟩ → 0 ≤ (r.state j).now →
      (r.state j).move (r.state n).nextTask 0 ≠ none := by
    intro j hj _
    rw [Balancer.move, Balancer.works_of_task? hj]
    simp [Balancer.step]
  obtain ⟨j, way, next, hnj, hj, hmove, _⟩ := hs.moves_on (task?_of_request hrequest) (fun j _ => hbegins j)
  obtain ⟨task, ht, hstage⟩ := stage_of_lt hrequest hnj
  obtain rfl : task = ⟨[.dispatch batch context], .done⟩ := Option.some.inj (ht.symm.trans hj)
  cases hstage with
  | waiting idle =>
    rcases answers_or_handles hnj hj idle hmove with ⟨result, hover, _⟩ | ⟨started, deadline, parcels, hdeliver, _⟩
    · exact ⟨j + 1, result, Nat.lt_succ_of_lt hnj, outcome?_of_task? hover⟩
    · obtain ⟨i, result, hji, hi⟩ := hs.ends_deliver hdeliver
      exact ⟨i, result, by omega, hi⟩

end Run

end TelemetryRouter
