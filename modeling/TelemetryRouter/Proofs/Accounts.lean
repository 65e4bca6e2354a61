import Mathlib.Data.Nat.Pairing
import TelemetryRouter.Proofs.Endings

/-!
# What a dispatch accounts for

However a dispatch is interleaved with other dispatches, with changes of the fleet and with whatever the exporters do, its result
accounts for every item once: each part of the batch goes to at most one call of an exporter of its own endpoint, is reported as
delivered exactly when that call has ended well, and comes back unchanged otherwise. Only a time limit beyond the range of the clock
leaves a dispatch without a report.
-/

namespace TelemetryRouter

variable {α : Type}

/-! ## Results -/

namespace DispatchResult

/-- The parcels that a result reports as delivered. -/
def deliveries : DispatchResult α → List Delivery
  | .report deliveries => deliveries
  | .failed e => e.delivered
  | .clockOverflow => []

/-- The parcels that a result hands back. -/
def failures : DispatchResult α → List (FailedDelivery α)
  | .failed (.undelivered _ returned) => returned
  | _ => []

end DispatchResult

namespace Parcel

/-- What a parcel adds to the deliveries of a result, if anything. -/
def delivery? (p : Parcel α) : Option Delivery :=
  match p.phase with
  | .delivered => some ⟨p.endpoint, p.batch.itemCount⟩
  | _ => none

/-- What a parcel adds to the parcels that a result hands back, if anything. -/
def failure? (p : Parcel α) : Option (FailedDelivery α) :=
  match p.phase with
  | .failed e => some ⟨p.endpoint, e, p.batch⟩
  | _ => none

theorem deliveries_result_eq_filterMap (parcels : List (Parcel α)) : (result parcels).deliveries = parcels.filterMap delivery? := by
  unfold result
  dsimp only
  split <;> rfl

/-- A result hands back what its parcels add to the parcels handed back. -/
theorem failures_result_eq_filterMap (parcels : List (Parcel α)) : (result parcels).failures = parcels.filterMap failure? := by
  unfold result
  dsimp only
  split
  · rename_i hempty
    exact (List.isEmpty_iff.1 hempty).symm
  · rfl

theorem deliveries_result (parcels : List (Parcel α)) : (result parcels).deliveries =
    (parcels.filter (fun p => p.phase = .delivered)).map (fun p => ⟨p.endpoint, p.batch.itemCount⟩) := by
  rw [deliveries_result_eq_filterMap]
  induction parcels with
  | nil => rfl
  | cons p parcels ih =>
    obtain ⟨e, batch, phase⟩ := p
    cases phase with
    | delivered => simp [delivery?, ih]
    | _ => simp [List.filterMap_cons, delivery?, ih]

/-- A result hands back the parcels that were not delivered, in order and with their batches. -/
theorem failures_result {parcels : List (Parcel α)} (hover : ∀ p ∈ parcels, p.isOver = true) :
    (result parcels).failures.map (fun f => (f.endpoint, f.batch)) =
      (parcels.filter (fun p => p.phase ≠ .delivered)).map (fun p => (p.endpoint, p.batch)) := by
  rw [failures_result_eq_filterMap]
  induction parcels with
  | nil => rfl
  | cons p parcels ih =>
    have hp := hover p List.mem_cons_self
    have ih := ih (fun q hq => hover q (List.mem_cons_of_mem p hq))
    obtain ⟨e, batch, phase⟩ := p
    cases phase with
    | delivered => simpa [List.filterMap_cons, failure?] using ih
    | failed error => simpa [List.filterMap_cons, failure?] using ih
    | _ => cases hp

/-- A result is a report exactly when nothing comes back. -/
theorem result_eq_report_iff (parcels : List (Parcel α)) :
    (∃ deliveries, result parcels = .report deliveries) ↔ (result parcels).failures = [] := by
  unfold result
  dsimp only
  split
  · exact ⟨fun _ => rfl, fun _ => ⟨_, rfl⟩⟩
  · rename_i hfailed
    refine ⟨fun ⟨_, h⟩ => (nomatch h), fun h => absurd (List.isEmpty_iff.2 h) hfailed⟩

/-- The items of the delivered parcels and of those that come back are the items of all. -/
theorem sum_result {parcels : List (Parcel α)} (hover : ∀ p ∈ parcels, p.isOver = true) :
    ((result parcels).deliveries.map Delivery.items).sum + ((result parcels).failures.map (fun f => f.batch.itemCount)).sum =
      (parcels.map (fun p => p.batch.itemCount)).sum := by
  have hfailures := congrArg (fun fs => (fs.map (fun f => f.2.itemCount)).sum) (failures_result hover)
  simp only [List.map_map, Function.comp_def] at hfailures
  rw [deliveries_result, hfailures, List.map_map]
  clear hfailures hover
  induction parcels with
  | nil => rfl
  | cons p parcels ih =>
    by_cases hp : p.phase = .delivered
    · simp [hp] at ih ⊢
      omega
    · simp [hp] at ih ⊢
      omega

end Parcel

namespace Balancer

/-- The parcels that a batch is cut into have all its items. -/
theorem Cuts.sum_itemCount {b : Balancer α} {batch : Batch α} {parcels : List (Parcel α)} (h : b.Cuts batch parcels) :
    (parcels.map (fun p => p.batch.itemCount)).sum = batch.itemCount := by
  obtain ⟨owners, howners, hparts⟩ := h
  have hlen : owners.length = batch.items.length := by
    have hlen := congrArg List.length howners
    rw [List.length_map, List.length_map] at hlen
    exact hlen.symm
  have hcounts := congrArg (fun ps => (ps.map (fun p => p.2.itemCount)).sum) hparts
  simp only [List.map_map, Function.comp_def] at hcounts
  rw [hcounts]
  exact batch.sum_itemCount_parts hlen

end Balancer

namespace Run

/-! ## The accounts -/

section Accounts

variable (r : Run α) (t n : Nat)

/-- What a task has done for a parcel of a dispatch that is over, in the way of the parcel. -/
structure Handled (i m : Nat) (p : Parcel α) : Prop where
  ended : p.isOver = true
  once : ∀ x y, r.Does t i n m x → r.Does t i n m y → x.what.isExportCall = true → y.what.isExportCall = true → x = y
  /-- It is called with all items of the parcel, unless it refuses the call. -/
  whole : ∀ x, r.Does t i n m x → x.what.isExportCall = true → x.what = .exporting p.batch.itemCount ∨ x.what = .exportRefused
  /-- Everything is done through the lease of the parcel, to an exporter of its endpoint. -/
  leased : ∀ x, r.Does t i n m x → r.Fits t i p x
  /-- The parcel was delivered exactly when the exporter was seen to have taken it. -/
  delivered : p.phase = .delivered ↔ ∃ x, r.Does t i n m x ∧ x.what = .exported
  /-- What the exporter took it was called with before. -/
  called : ∀ x, r.Does t i n m x → x.what = .exported →
    ∃ y, r.Does t i n m y ∧ y.step < x.step ∧ y.exporter = x.exporter ∧ y.what = .exporting p.batch.itemCount

/-- What the result of a dispatch says of the parcels that the batch was cut into in a step. -/
structure Delivers (batch : Batch α) (k m : Nat) (result : DispatchResult α) (parcels : List (Parcel α)) : Prop where
  cuts : (r.state k).Cuts batch parcels
  handled : ∀ i p, parcels[i]? = some p → r.Handled t n i m p
  within : ∀ i x, r.Does t i n m x → i < parcels.length
  /-- The delivered parcels are reported in order. -/
  deliveries : result.deliveries =
    (parcels.filter (fun p => p.phase = .delivered)).map (fun p => ⟨p.endpoint, p.batch.itemCount⟩)
  /-- All others come back in order, with their endpoints and their batches. -/
  failures : result.failures.map (fun f => (f.endpoint, f.batch)) =
    (parcels.filter (fun p => p.phase ≠ .delivered)).map (fun p => (p.endpoint, p.batch))
  report : (∃ deliveries, result = .report deliveries) ↔ result.failures = []
  total : (result.deliveries.map Delivery.items).sum + (result.failures.map (fun f => f.batch.itemCount)).sum = batch.itemCount

/-- What the result of a dispatch of a batch with items means, by the ring that was published when it began. -/
structure Accounts (batch : Batch α) (context : DispatchContext) (k m : Nat) (result : DispatchResult α) : Prop where
  begins : n < k ∧ k < m ∧ r.Begins t batch context k
  /-- There is nothing to route to exactly on the ring without endpoints. -/
  unrouted : result = .failed (.routing .noEndpoints) ↔ (r.state k).ring.endpoints = []
  idle : (r.state k).ring.endpoints = [] → r.Idle t n m
  /-- The dispatch fails without a report exactly when the clock cannot represent its deadline. -/
  overflow : result = .clockOverflow ↔ (r.state k).ring.endpoints ≠ [] ∧ (r.state k).ClockOverflows context
  /-- Otherwise the result accounts for every parcel. -/
  delivers : (r.state k).ring.endpoints ≠ [] → ¬ (r.state k).ClockOverflows context →
    ∃ parcels, r.Delivers t n batch k m result parcels

/-- What the dispatch of a batch gives, with a task that was started for it in a step. -/
structure Dispatched (batch : Batch α) (context : DispatchContext) : Prop where
  ends : r.Serves t → ∃ m result, n < m ∧ (r.state m).outcome? t = some (.dispatched result)
  /-- The result stays. -/
  stays : ∀ m m' result, n < m → m ≤ m' → (r.state m).outcome? t = some (.dispatched result) →
    (r.state m').outcome? t = some (.dispatched result)
  /-- Without items, no lease is taken, no exporter called, and nothing reported. -/
  empty : batch.isEmpty = true → ∀ m, n < m → r.Idle t n m ∧
    ∀ result, (r.state m).outcome? t = some (.dispatched result) → result = .report []
  /-- With items, the result accounts for them. -/
  accounts : batch.isEmpty = false → ∀ m result, n < m → (r.state m).outcome? t = some (.dispatched result) →
    ∃ k, r.Accounts t n batch context k m result

end Accounts

variable {r : Run α} {t n m : Nat} {batch : Batch α} {context : DispatchContext}

theorem Traced.handled {i : Nat} {p : Parcel α} (h : r.Traced t i n m p) (hover : p.isOver = true) : r.Handled t n i m p := by
  obtain ⟨deeds, hcourse, hdeeds, hfits⟩ := h
  refine ⟨hover, ?_, ?_, ?_, ?_, ?_⟩
  · intro x y hx hy hcx hcy
    exact hcourse.once ((hdeeds x).2 hx) hcx ((hdeeds y).2 hy) hcy
  · intro x hx hcall
    exact hcourse.whole ((hdeeds x).2 hx) hcall
  · intro x hx
    exact hfits x ((hdeeds x).2 hx)
  · rw [hcourse.delivered_iff]
    simp only [hdeeds]
  · intro x hx hexported
    obtain ⟨y, hy, hlt, hexporter, hwhat⟩ := hcourse.called ((hdeeds x).2 hx) hexported
    exact ⟨y, (hdeeds y).1 hy, hlt, hexporter, hwhat⟩

/-- A delivery of which every parcel is over accounts for all of them. -/
theorem Handles.delivers {k : Nat} {parcels : List (Parcel α)} (h : r.Handles t n batch context k m parcels)
    (hall : parcels.all Parcel.isOver = true) : r.Delivers t n batch k m (Parcel.result parcels) parcels := by
  have hover : ∀ p ∈ parcels, p.isOver = true := List.all_eq_true.1 hall
  refine ⟨h.cuts, ?_, h.within, Parcel.deliveries_result parcels, Parcel.failures_result hover,
    Parcel.result_eq_report_iff parcels, ?_⟩
  · intro i p hp
    exact (h.traced i p hp).handled (hover p (List.mem_of_getElem? hp))
  · rw [Parcel.sum_result hover, h.cuts.sum_itemCount]

theorem result_ne (parcels : List (Parcel α)) :
    Parcel.result parcels ≠ .failed (.routing .noEndpoints) ∧ Parcel.result parcels ≠ .clockOverflow := by
  unfold Parcel.result
  dsimp only
  split <;> simp

theorem Answers.accounts {result : DispatchResult α} (h : r.Answers t n batch context m result) (hitems : batch.isEmpty = false) :
    ∃ k, r.Accounts t n batch context k m result := by
  cases h with
  | empty items _ =>
    rw [hitems] at items
    cases items
  | @unrouted k lt before begins _ members idle =>
    refine ⟨k, ⟨lt, before, begins⟩, ⟨fun _ => members, fun _ => rfl⟩, fun _ => idle, ?_, fun hne => absurd members hne⟩
    exact ⟨fun h => (nomatch h), fun h => absurd members h.1⟩
  | @overflow k lt before begins _ members overflows _ =>
    refine ⟨k, ⟨lt, before, begins⟩, ?_, fun hnil => absurd hnil members, ⟨fun _ => ⟨members, overflows⟩, fun _ => rfl⟩,
      fun _ hfits => absurd overflows hfits⟩
    exact ⟨fun h => (nomatch h), fun hnil => absurd hnil members⟩
  | @delivered k parcels before handles ended =>
    obtain ⟨hrouted, hclock⟩ := result_ne parcels
    refine ⟨k, ⟨handles.lt, before, handles.begins⟩, ?_, fun hnil => absurd hnil handles.members, ?_,
      fun _ _ => ⟨parcels, handles.delivers ended⟩⟩
    · exact ⟨fun h => absurd h hrouted, fun hnil => absurd hnil handles.members⟩
    · exact ⟨fun h => absurd h hclock, fun h => absurd h.2 handles.fits⟩

theorem task?_of_outcome? {b : Balancer α} {outcome : Outcome α} (h : b.outcome? t = some outcome) :
    b.task? t = some ⟨[], outcome⟩ := by
  unfold Balancer.outcome? at h
  split at h
  · rename_i task ht
    split at h
    · rename_i hover
      injection h with h
      obtain ⟨works, outcome'⟩ := task
      have hworks : works = [] := List.isEmpty_iff.1 hover
      dsimp only at h
      rw [ht, hworks, h]
    · cases h
  · cases h

theorem outcome?_of_le {m' : Nat} (hle : m ≤ m') {outcome : Outcome α} (h : (r.state m).outcome? t = some outcome) :
    (r.state m').outcome? t = some outcome := by
  induction m', hle using Nat.le_induction with
  | base => exact h
  | succ j _ ih =>
    have ht := task?_of_outcome? ih
    by_cases habandon : r.action j = .abandon t
    · refine outcome?_of_task? ?_
      rw [state, habandon, Balancer.perform, Balancer.task?_abandon_self, ht]
      rfl
    by_cases hmove : ∃ way, r.action j = .move t way
    · obtain ⟨way, hmove⟩ := hmove
      rw [state_succ_of_over ht hmove]
      exact ih
    · have hlt : t < (r.state j).tasks.length := (List.getElem?_eq_some_iff.1 ht).1
      exact outcome?_of_task? ((r.task?_succ hlt (fun way hway => hmove ⟨way, hway⟩) habandon).trans ht)

/-- Without items, there is one result, and the task was idle. -/
theorem Answers.of_isEmpty {result : DispatchResult α} (h : r.Answers t n batch context m result) (hempty : batch.isEmpty = true) :
    result = .report [] ∧ r.Idle t n m := by
  have hnot : ∀ {q : Prop}, batch.isEmpty = false → q := by
    intro q hitems
    rw [hempty] at hitems
    cases hitems
  cases h with
  | empty _ idle => exact ⟨rfl, idle⟩
  | unrouted _ _ _ items _ _ => exact hnot items
  | overflow _ _ _ items _ _ _ => exact hnot items
  | delivered _ handles _ => exact hnot handles.items

theorem Stage.idle {task : Task α} (h : r.Stage t n batch context m task) (hempty : batch.isEmpty = true) : r.Idle t n m := by
  cases h with
  | waiting idle => exact idle
  | delivering _ handles =>
    have hitems := handles.items
    rw [hempty] at hitems
    cases hitems
  | abandoned idle => exact idle hempty
  | ended answers => exact (answers.of_isEmpty hempty).2

/-- A dispatch that has ended has answered in its last stage. -/
theorem answers_of_outcome {result : DispatchResult α} (hrequest : r.action n = .request (.dispatch batch context)) (hm : n < m)
    (houtcome : (r.state m).outcome? (r.state n).nextTask = some (.dispatched result)) :
    r.Answers (r.state n).nextTask n batch context m result := by
  obtain ⟨task, ht, hstage⟩ := stage_of_lt hrequest hm
  obtain rfl : task = ⟨[], .dispatched result⟩ := Option.some.inj (ht.symm.trans (task?_of_outcome? houtcome))
  cases hstage with
  | ended answers => exact answers

/-- Whatever else happens in a run, a dispatch accounts for every item of its batch. -/
theorem dispatch_accounts (r : Run α) {n : Nat} {batch : Batch α} {context : DispatchContext}
    (hrequest : r.action n = .request (.dispatch batch context)) :
    r.Dispatched (r.state n).nextTask n batch context := by
  refine ⟨fun hs => hs.ends hrequest, ?_, ?_, ?_⟩
  · intro m m' result _ hle houtcome
    exact outcome?_of_le hle houtcome
  · intro hempty m hm
    obtain ⟨task, _, hstage⟩ := stage_of_lt hrequest hm
    exact ⟨hstage.idle hempty, fun result houtcome => ((answers_of_outcome hrequest hm houtcome).of_isEmpty hempty).1⟩
  · intro hitems m result hm houtcome
    exact (answers_of_outcome hrequest hm houtcome).accounts hitems

/-! ## Two runs -/

/-- A batch of one item. -/
def oneItem : Batch Unit := ⟨[⟨Resource.empty, "", [⟨Scope.empty, "", [()]⟩]⟩]⟩

/-- A run with one exporter that gets a batch of one item, and in which the dispatch of the batch is served. Without a time limit of its
own, a dispatch has the time limit that is given here. -/
def lone (limit : Option Duration) : Run Unit where
  options := ⟨⟨1, .ofSeconds 30, .ofSeconds 30⟩, limit, none⟩
  adapter := ⟨.logs, fun _ _ => none⟩
  resolver := .new .fixed []
  backends := ⟨[]⟩
  action := fun n =>
    if n = 0 then .request (.update [⟨"a"⟩])
    else if n < 8 then .move 0 0
    else if n = 8 then .request (.dispatch oneItem ⟨none, none⟩)
    else if n % 3 = 0 then .move 1 0
    else if n % 3 = 1 then .advance n
    else .move 1 (Nat.unpair (n / 3)).1

theorem action_lone (limit : Option Duration) {n : Nat} (h : 9 ≤ n) : (lone limit).action n =
    if n % 3 = 0 then .move 1 0 else if n % 3 = 1 then .advance n else .move 1 (Nat.unpair (n / 3)).1 := by
  have hzero : n ≠ 0 := by omega
  have hearly : ¬ n < 8 := by omega
  have height : n ≠ 8 := by omega
  simp [lone, hzero, hearly, height]

theorem serves_lone (limit : Option Duration) : (lone limit).Serves 1 where
  moves := by
    intro n way
    have hle : n + 9 ≤ Nat.pair way (n + 9) := Nat.right_le_pair way (n + 9)
    refine ⟨3 * Nat.pair way (n + 9) + 2, by omega, ?_⟩
    have hmod : (3 * Nat.pair way (n + 9) + 2) % 3 = 2 := by omega
    have hdiv : (3 * Nat.pair way (n + 9) + 2) / 3 = Nat.pair way (n + 9) := by omega
    rw [action_lone limit (by omega)]
    simp [hmod, hdiv]
  time := by
    intro tick
    refine ⟨3 * tick + 10 + 1, ?_⟩
    have hmod : (3 * tick + 10) % 3 = 1 := by omega
    have hadvance : (lone limit).action (3 * tick + 10) = .advance (3 * tick + 10) := by
      rw [action_lone limit (by omega)]
      simp [hmod]
    rw [state, hadvance]
    show tick ≤ max _ (3 * tick + 10)
    omega
  kept := by
    intro n h
    unfold lone at h
    dsimp only at h
    repeat' split at h
    all_goals cases h

/-- The dispatch in that run, without a time limit: it is served, and its item is taken by the exporter. -/
theorem dispatch_accounts_lone : (lone none).Serves 1 ∧
    ((lone none).state 19).history 0 = [.created, .starting, .started, .exporting 1, .exported] ∧
    (lone none).Dispatched ((lone none).state 8).nextTask 8 oneItem ⟨none, none⟩ :=
  ⟨serves_lone none, by decide +kernel, (lone none).dispatch_accounts rfl⟩

/-- Whether a task has ended with a dispatch that could not tell its deadline. -/
def endsInOverflow : Option (Outcome Unit) → Bool
  | some (.dispatched .clockOverflow) => true
  | _ => false

theorem eq_of_endsInOverflow {outcome? : Option (Outcome Unit)} (h : endsInOverflow outcome? = true) :
    outcome? = some (.dispatched .clockOverflow) := by
  unfold endsInOverflow at h
  split at h
  · rfl
  · cases h

/-- The longest time limit that a duration can be is beyond the range of the clock: the dispatch has neither delivered its item nor
handed it back, although there is an endpoint to route to. -/
theorem overflow_lone : ((lone (some (.ofSeconds 18446744073709551615))).state 9).ring.endpoints = [⟨"a"⟩] ∧
    ((lone (some (.ofSeconds 18446744073709551615))).state 10).outcome? 1 = some (.dispatched .clockOverflow) ∧
    ¬ ∃ parcels, (lone (some (.ofSeconds 18446744073709551615))).Delivers 1 8 oneItem 9 10 .clockOverflow parcels := by
  refine ⟨by decide +kernel, ?_, ?_⟩
  · exact eq_of_endsInOverflow (by decide +kernel)
  · rintro ⟨parcels, hdelivers⟩
    have htotal := hdelivers.total
    have hone : oneItem.itemCount = 1 := rfl
    rw [hone] at htotal
    cases htotal

end Run

end TelemetryRouter
