import TelemetryRouter.Balancer.Requests

/-!
# The feed of the balancer

Lists of endpoints reach the balancer through its resolver, the mailboxes and the background task. This part of the state, together
with the counters of resolutions, is what discovery is about. Passes, exports and leases leave it alone; the only thing they write
near it are other metrics of the same recorder.
-/

namespace TelemetryRouter

variable {α : Type}

/-! ## Counters -/

namespace MetricBook

/-- How often an event was counted under a metric. -/
def count (b : MetricBook) (k : MetricKey) : Nat :=
  match b.find? k with
  | some (.counter n) => n
  | _ => 0

theorem find?_eq_none_iff (b : MetricBook) (k : MetricKey) : b.find? k = none ↔ b.entries.any (fun e => e.1 == k) = false := by
  rw [find?, Option.map_eq_none_iff, List.find?_eq_none, List.any_eq_false]

/-- Replacing what is known of one metric replaces it for that metric only. -/
theorem find?_set (b : MetricBook) (k : MetricKey) (s : MetricState) (k' : MetricKey) :
    (b.set k s).find? k' = if k' = k then some s else b.find? k' := by
  unfold set
  split
  · rename_i hany
    have hfound : ((fun e : MetricKey × MetricState => e.1 == k') ∘ fun e => if e.1 == k then (k, s) else e) = fun e => e.1 == k' := by
      funext e
      dsimp only [Function.comp]
      split
      · rename_i he
        rw [eq_of_beq he]
      · rfl
    rw [find?, List.find?_map, hfound, Option.map_map]
    rcases he : b.entries.find? (fun e => e.1 == k') with _ | e
    · have hne : k' ≠ k := by
        rintro rfl
        rw [List.find?_eq_none] at he
        obtain ⟨e, hmem, hk⟩ := List.any_eq_true.1 hany
        exact he e hmem hk
      rw [if_neg hne, find?, he]
      rfl
    · have hkey : e.1 = k' := by simpa using List.find?_some he
      rw [find?, he, Option.map_some, Option.map_some]
      by_cases hk : k' = k
      · rw [if_pos hk, Function.comp, if_pos (by rw [hkey, hk]; exact beq_self_eq_true k)]
      · rw [if_neg hk, Function.comp, if_neg (by rw [hkey]; simpa using hk)]
  · rename_i hany
    rw [find?, List.find?_append, Option.map_or]
    by_cases hk : k' = k
    · subst hk
      have hnone := (b.find?_eq_none_iff k').2 (Bool.eq_false_iff.2 hany)
      rw [find?] at hnone
      rw [hnone, if_pos rfl]
      simp
    · have hnot : (k == k') = false := by simpa using fun h : k = k' => hk h.symm
      rw [if_neg hk, find?, List.find?_cons, hnot]
      simp

theorem count_set_of_ne (b : MetricBook) {k k' : MetricKey} (h : k' ≠ k) (s : MetricState) : (b.set k s).count k' = b.count k' := by
  rw [count, count, find?_set, if_neg h]

theorem count_increment_self (b : MetricBook) (k : MetricKey) : (b.increment k).count k = b.count k + 1 := by
  unfold increment
  split
  · rename_i n h
    rw [count, count, find?_set, if_pos rfl, h]
  · rename_i h
    have hzero : b.count k = 0 := by
      unfold count
      split
      · rename_i n h'
        exact absurd h' (h n)
      · rfl
    rw [hzero, count, find?_set, if_pos rfl]

theorem count_increment_of_ne (b : MetricBook) {k k' : MetricKey} (h : k' ≠ k) : (b.increment k).count k' = b.count k' := by
  unfold increment
  split <;> exact b.count_set_of_ne h _

theorem count_addSample_of_ne (b : MetricBook) {k k' : MetricKey} (h : k' ≠ k) (sample : Float) :
    (b.addSample k sample).count k' = b.count k' := by
  unfold addSample
  split <;> exact b.count_set_of_ne h _

theorem ne_of_name {k k' : MetricKey} (h : k'.name ≠ k.name) : k' ≠ k := fun heq => h (congrArg MetricKey.name heq)

/-- How many resolutions of a resolver were counted, the successful or the others. -/
def resolutions (b : MetricBook) (resolver : String) (success : Bool) : Nat := b.count (resolutionsKey resolver success)

theorem resolutions_recordResolution (b : MetricBook) (resolver : String) (success success' : Bool) :
    (b.recordResolution resolver success).resolutions resolver success' =
      b.resolutions resolver success' + if success' = success then 1 else 0 := by
  unfold recordResolution resolutions
  split
  · rename_i h
    rw [h, count_increment_self]
  · rename_i h
    rw [count_increment_of_ne, Nat.add_zero]
    intro heq
    cases success <;> cases success' <;> simp [resolutionsKey, flag] at heq h

theorem resolutions_recordExport (b : MetricBook) (endpoint : String) (latency : Duration) (success : Bool) :
    (b.recordExport endpoint latency success).resolutions = b.resolutions := by
  funext resolver success'
  unfold recordExport resolutions
  rw [count_increment_of_ne _ (ne_of_name (by simp [resolutionsKey, outcomeKey])),
    count_addSample_of_ne _ (ne_of_name (by simp [resolutionsKey, latencyKey]))]

theorem resolutions_recordBackends (b : MetricBook) (name : String) (n : Nat) :
    (b.recordBackends name n).resolutions = b.resolutions := by
  funext resolver success
  unfold recordBackends setGauge resolutions
  exact count_set_of_ne _ (ne_of_name (by simp [resolutionsKey, backendsKey])) _

theorem resolutions_recordBackendUpdate (b : MetricBook) (name : String) :
    (b.recordBackendUpdate name).resolutions = b.resolutions := by
  funext resolver success
  unfold recordBackendUpdate resolutions
  exact count_increment_of_ne _ (ne_of_name (by simp [resolutionsKey, backendUpdatesKey]))

end MetricBook

/-! ## The feed -/

/-- What discovery is about. -/
structure Feed where
  resolver : Resolver
  background : Option TaskId
  stopRequests : List TaskId
  mailboxes : List (Mailbox (List Endpoint))
  inboxes : List MailboxId
  resolutions : String → Bool → Nat

namespace Balancer

/-- The part of a balancer that discovery is about. -/
def feed (b : Balancer α) : Feed :=
  { resolver := b.resolver
    background := b.background
    stopRequests := b.stopRequests
    mailboxes := b.mailboxes
    inboxes := b.inboxes
    resolutions := b.metrics.resolutions }

/-- Other metrics that count the same resolutions leave the feed alone. -/
theorem feed_record (b : Balancer α) {f : MetricBook → MetricBook} (h : (f b.metrics).resolutions = b.metrics.resolutions) :
    (b.record f).feed = b.feed := by
  unfold feed record
  dsimp only
  rw [h]

theorem feed_concludePass (b : Balancer α) (t : TaskId) (rest : List (Work α)) (outcome : ReconcileOutcome) :
    (b.concludePass t rest outcome).feed = b.feed := by
  have hsize : ∀ c : Balancer α, (c.record (·.recordBackends b.resolver.name c.pool.size)).feed = c.feed :=
    fun c => c.feed_record (MetricBook.resolutions_recordBackends _ _ _)
  unfold concludePass
  dsimp only
  split
  · exact (hsize _).trans (b.feed_record (MetricBook.resolutions_recordBackendUpdate _ _))
  · exact hsize b

end Balancer

end TelemetryRouter
