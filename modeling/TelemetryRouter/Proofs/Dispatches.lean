import TelemetryRouter.Proofs.Courses
import TelemetryRouter.Proofs.Holders
import TelemetryRouter.Proofs.OwnMoves
import TelemetryRouter.Proofs.Rings

/-!
# The stages of a dispatch

A dispatch waits until its task moves for the first time. It then looks at the published ring once, and either has its result at once
or cuts the batch into parcels. From then on it goes on with the parcels in any order, each on its course, until all of them are over.
`Run.Stage` says for every later state how far a dispatch is and what its moves have done until then, whatever else happens in the run.
-/

namespace TelemetryRouter

variable {α : Type}

namespace Balancer

/-! ## The first step -/

/-- Whether the clock cannot represent the deadline of a dispatch: the caller gives none, and the time limit of exports goes beyond
the range of the clock. -/
def ClockOverflows (b : Balancer α) (context : DispatchContext) : Prop :=
  context.deadline = none ∧ ∃ limit, b.options.exportTimeout = some limit ∧ Instant.after? b.now limit = none

/-- There is no deadline exactly when the clock cannot represent it. -/
theorem deadlineFor_eq_none_iff (b : Balancer α) (context : DispatchContext) :
    b.deadlineFor context = none ↔ b.ClockOverflows context := by
  unfold deadlineFor ClockOverflows
  split
  · rename_i d _ hdeadline
    simp [hdeadline]
  · rename_i hdeadline hlimit
    simp [hdeadline, hlimit]
  · rename_i limit hdeadline hlimit
    rw [Option.map_eq_none_iff]
    simp [hdeadline, hlimit]

/-- Whether parcels are what a batch is cut into by the published ring: every item has an owner, and every owner has one parcel, in the
order of the first items, with exactly the items that it owns. -/
def Cuts (b : Balancer α) (batch : Batch α) (parcels : List (Parcel α)) : Prop :=
  ∃ owners : List Endpoint, batch.items.map (fun x => b.ring.owner (b.adapter.keyOrEmpty x.1 x.2.2)) = owners.map some ∧
    parcels.map (fun p => (p.endpoint, p.batch)) = owners.eraseDups.map (fun e => (e, (batch.answered owners).part e))

/-- What the first step of a dispatch does. -/
inductive BeginStep (b : Balancer α) (t : TaskId) (rest : List (Work α)) (batch : Batch α) (context : DispatchContext) :
    Balancer α → Prop
  | empty (items : batch.isEmpty = true) : BeginStep b t rest batch context (b.finish t rest (.dispatched (.report [])))
  | unrouted (items : batch.isEmpty = false) (members : b.ring.endpoints = []) :
    BeginStep b t rest batch context (b.finish t rest (.dispatched (.failed (.routing .noEndpoints))))
  | overflow (items : batch.isEmpty = false) (members : b.ring.endpoints ≠ []) (overflows : b.ClockOverflows context) :
    BeginStep b t rest batch context (b.finish t rest (.dispatched .clockOverflow))
  | deliver {parcels : List (Parcel α)} {deadline : Option Instant} (items : batch.isEmpty = false) (members : b.ring.endpoints ≠ [])
    (fits : ¬ b.ClockOverflows context) (cuts : b.Cuts batch parcels) (pending : ∀ p ∈ parcels, p.phase = .pending) :
    BeginStep b t rest batch context (b.withWorks t (.deliver b.now deadline context.token parcels :: rest))

/-- The first step of a dispatch is one of these, as the published ring is the ring of a list. -/
theorem beginDispatch_cases {b : Balancer α} (hring : b.ring.IsBuilt) (t : TaskId) (rest : List (Work α)) (batch : Batch α)
    (context : DispatchContext) : BeginStep b t rest batch context (b.beginDispatch t rest batch context) := by
  unfold beginDispatch
  split
  · rename_i hempty
    exact .empty hempty
  · rename_i hitems
    have hitems : batch.isEmpty = false := Bool.eq_false_iff.2 hitems
    split
    · rename_i hnone
      exact .unrouted hitems ((b.adapter.regroupOn_eq_none_iff hring batch).1 hnone)
    · rename_i groups hgroups
      have hmembers : b.ring.endpoints ≠ [] := by
        intro hnil
        rw [(b.adapter.regroupOn_eq_none_iff hring batch).2 hnil] at hgroups
        cases hgroups
      have hcuts : b.Cuts batch (groups.map (fun g => Parcel.mk g.1 g.2 .pending)) := by
        obtain ⟨owners, howners, hparts⟩ := b.adapter.regroupOn_eq_parts hring hgroups
        refine ⟨owners, howners, ?_⟩
        rw [List.map_map, hparts, List.map_map]
        rfl
      have hpending : ∀ p ∈ groups.map (fun g => Parcel.mk g.1 g.2 .pending), p.phase = .pending := by
        intro p hp
        obtain ⟨g, _, rfl⟩ := List.mem_map.1 hp
        rfl
      split
      · rename_i hnone
        exact .overflow hitems hmembers ((b.deadlineFor_eq_none_iff context).1 hnone)
      · rename_i deadline hsome
        refine .deliver hitems hmembers (fun hoverflows => ?_) hcuts hpending
        rw [(b.deadlineFor_eq_none_iff context).2 hoverflows] at hsome
        cases hsome

theorem Cuts.set {b : Balancer α} {batch : Batch α} {parcels : List (Parcel α)} (h : b.Cuts batch parcels) {i : Nat}
    {p p' : Parcel α} (hp : parcels[i]? = some p) (hendpoint : p'.endpoint = p.endpoint) (hbatch : p'.batch = p.batch) :
    b.Cuts batch (parcels.set i p') := by
  obtain ⟨owners, howners, hparts⟩ := h
  refine ⟨owners, howners, ?_⟩
  obtain ⟨hi, rfl⟩ := List.getElem?_eq_some_iff.1 hp
  rw [List.map_set, hendpoint, hbatch, ← hparts]
  apply List.ext_getElem?
  intro j
  rw [List.getElem?_set]
  split
  · rename_i hij
    subst hij
    simp [hi]
  · rfl

/-! ## Tasks without parcels -/

theorem works_of_task? {b : Balancer α} {t : TaskId} {task : Task α} (h : b.task? t = some task) : b.works t = task.works := by
  rw [works, h]
  rfl

/-- A task of which the first work is inert, or which has none, has leased nothing. -/
theorem leased?_eq_none {b : Balancer α} {t : TaskId} {task : Task α} (h : b.task? t = some task)
    (hinert : ∀ w ∈ task.works, w.isInert = true) (i : Nat) : b.leased? (.parcel t i) = none := by
  have hnone : b.duty? t = none := duty?_eq_none (by rw [works_of_task? h]; exact hinert)
  rw [leased?, parcelsOf_eq_nil (fun _ _ _ _ hd => by rw [hnone] at hd; cases hd)]
  rfl

end Balancer

namespace Run

variable (r : Run α)

/-! ## What the moves of a task do -/

/-- Whether a way of a task has done something since a step and before another. -/
def Does (t i n m : Nat) (x : Deed) : Prop :=
  n < x.step ∧ x.step < m ∧ r.action x.step = .move t i ∧ r.Says x.exporter x.step x.what

/-- Whether a task has leased nothing since a step and up to another, and its moves have left the log alone. -/
structure Idle (t n m : Nat) : Prop where
  leases : ∀ j, n < j → j ≤ m → ∀ i, (r.state j).leased? (.parcel t i) = none
  moves : ∀ j, n < j → j < m → ∀ way, r.action j = .move t way → (r.state (j + 1)).events = (r.state j).events

/-- Whether a task begins the dispatch of a batch in a step. -/
def Begins (t : Nat) (batch : Batch α) (context : DispatchContext) (k : Nat) : Prop :=
  ∃ way, r.action k = .move t way ∧ (r.state k).works t = [.dispatch batch context]

/-- Whether a deed was done through the lease of a parcel, to an exporter of its endpoint. A batch that the exporter took is that of
the parcel. -/
structure Fits (t i : Nat) (p : Parcel α) (x : Deed) : Prop where
  leased : (r.state x.step).leased? (.parcel t i) = some x.exporter
  endpoint : (r.state x.step).endpointOf? x.exporter = some p.endpoint
  took : x.what = .exported → ∃ entry, (r.state x.step).pool.entry? x.exporter = some entry ∧
    (r.state (x.step + 1)).delivered = (r.state x.step).delivered ++ [(entry.address, p.batch)]

/-- Whether what a way of a task has done is the course of a parcel. -/
def Traced (t i n m : Nat) (p : Parcel α) : Prop :=
  ∃ deeds, p.phase.Course p.batch.itemCount deeds ∧ (∀ x, x ∈ deeds ↔ r.Does t i n m x) ∧ ∀ x ∈ deeds, r.Fits t i p x

/-- Whether a task that began its dispatch of a batch in a step delivers parcels of it, each on its course. -/
structure Handles (t n : Nat) (batch : Batch α) (context : DispatchContext) (k m : Nat) (parcels : List (Parcel α)) : Prop where
  lt : n < k
  begins : r.Begins t batch context k
  items : batch.isEmpty = false
  members : (r.state k).ring.endpoints ≠ []
  fits : ¬ (r.state k).ClockOverflows context
  cuts : (r.state k).Cuts batch parcels
  traced : ∀ i p, parcels[i]? = some p → r.Traced t i n m p
  within : ∀ i x, r.Does t i n m x → i < parcels.length

/-- What the result of a dispatch means. -/
inductive Answers (t n : Nat) (batch : Batch α) (context : DispatchContext) (m : Nat) : DispatchResult α → Prop
  | empty (items : batch.isEmpty = true) (idle : r.Idle t n m) : Answers t n batch context m (.report [])
  | unrouted {k : Nat} (lt : n < k) (before : k < m) (begins : r.Begins t batch context k) (items : batch.isEmpty = false)
    (members : (r.state k).ring.endpoints = []) (idle : r.Idle t n m) :
    Answers t n batch context m (.failed (.routing .noEndpoints))
  | overflow {k : Nat} (lt : n < k) (before : k < m) (begins : r.Begins t batch context k) (items : batch.isEmpty = false)
    (members : (r.state k).ring.endpoints ≠ []) (overflows : (r.state k).ClockOverflows context) (idle : r.Idle t n m) :
    Answers t n batch context m .clockOverflow
  | delivered {k : Nat} {parcels : List (Parcel α)} (before : k < m) (handles : r.Handles t n batch context k m parcels)
    (ended : parcels.all Parcel.isOver = true) : Answers t n batch context m (Parcel.result parcels)

/-- How far the dispatch is that a task was started for in an earlier step. -/
inductive Stage (t n : Nat) (batch : Batch α) (context : DispatchContext) (m : Nat) : Task α → Prop
  | waiting (idle : r.Idle t n m) : Stage t n batch context m ⟨[.dispatch batch context], .done⟩
  | delivering {k started : Nat} {deadline : Option Instant} {parcels : List (Parcel α)} (before : k < m)
    (handles : r.Handles t n batch context k m parcels) :
    Stage t n batch context m ⟨[.deliver started deadline context.token parcels], .done⟩
  | ended {result : DispatchResult α} (answers : r.Answers t n batch context m result) :
    Stage t n batch context m ⟨[], .dispatched result⟩
  | abandoned (idle : batch.isEmpty = true → r.Idle t n m) : Stage t n batch context m ⟨[], .done⟩

variable {r}

/-! ## One step later -/

section Steps

variable {t n m : Nat} {batch : Batch α} {context : DispatchContext}

/-- What was done until a step was done before it or in it. -/
theorem does_succ_iff (hm : n < m) {i : Nat} {x : Deed} :
    r.Does t i n (m + 1) x ↔ r.Does t i n m x ∨ (x.step = m ∧ r.action m = .move t i ∧ r.Says x.exporter m x.what) := by
  constructor
  · rintro ⟨hlt, hle, hmove, hsays⟩
    rcases Nat.lt_or_eq_of_le (Nat.le_of_lt_succ hle) with hbefore | heq
    · exact .inl ⟨hlt, hbefore, hmove, hsays⟩
    · exact .inr ⟨heq, heq ▸ hmove, heq ▸ hsays⟩
  · rintro (⟨hlt, hbefore, hmove, hsays⟩ | ⟨heq, hmove, hsays⟩)
    · exact ⟨hlt, Nat.lt_succ_of_lt hbefore, hmove, hsays⟩
    · exact ⟨heq ▸ hm, heq ▸ Nat.lt_succ_self _, heq ▸ hmove, heq ▸ hsays⟩

/-- Nothing is said in a step that leaves the log alone. -/
theorem not_says_of_events (h : (r.state (m + 1)).events = (r.state m).events) (id : ExporterId) (what : Occurrence) :
    ¬ r.Says id m what := by
  rintro ⟨said, hsaid, hwhat⟩
  rw [Balancer.history_congr h] at hsaid
  rw [List.self_eq_append_right.1 hsaid] at hwhat
  cases hwhat

/-- A way of a task that does not move, or whose move leaves the log alone, does nothing more. -/
theorem does_succ_iff_of_silent (hm : n < m) {i : Nat}
    (hsilent : r.action m = .move t i → (r.state (m + 1)).events = (r.state m).events) {x : Deed} :
    r.Does t i n (m + 1) x ↔ r.Does t i n m x := by
  rw [does_succ_iff hm]
  constructor
  · rintro (hbefore | ⟨_, hmove, hsays⟩)
    · exact hbefore
    · exact absurd hsays (not_says_of_events (hsilent hmove) _ _)
  · exact .inl

theorem Idle.not_does (h : r.Idle t n m) (i : Nat) (x : Deed) : ¬ r.Does t i n m x := by
  rintro ⟨hlt, hbefore, hmove, hsays⟩
  exact not_says_of_events (h.moves x.step hlt hbefore i hmove) _ _ hsays

theorem Traced.silent (hm : n < m) {i : Nat} {p : Parcel α} (h : r.Traced t i n m p)
    (hsilent : r.action m = .move t i → (r.state (m + 1)).events = (r.state m).events) : r.Traced t i n (m + 1) p := by
  obtain ⟨deeds, hcourse, hdeeds, hfits⟩ := h
  exact ⟨deeds, hcourse, fun x => (hdeeds x).trans (does_succ_iff_of_silent hm hsilent).symm, hfits⟩

/-- A delivery goes on while the moves of its task do nothing. -/
theorem Handles.silent (hm : n < m) {k : Nat} {parcels : List (Parcel α)} (h : r.Handles t n batch context k m parcels)
    (hsilent : ∀ i, r.action m = .move t i → (r.state (m + 1)).events = (r.state m).events) :
    r.Handles t n batch context k (m + 1) parcels where
  lt := h.lt
  begins := h.begins
  items := h.items
  members := h.members
  fits := h.fits
  cuts := h.cuts
  traced := fun i p hp => (h.traced i p hp).silent hm (hsilent i)
  within := fun i x hx => h.within i x ((does_succ_iff_of_silent hm (hsilent i)).1 hx)

/-- A task stays idle that has leased nothing and whose move, if any, leaves the log alone. -/
theorem Idle.succ (h : r.Idle t n m) (hleases : ∀ i, (r.state (m + 1)).leased? (.parcel t i) = none)
    (hsilent : ∀ way, r.action m = .move t way → (r.state (m + 1)).events = (r.state m).events) : r.Idle t n (m + 1) where
  leases := by
    intro j hj hle
    rcases Nat.lt_or_eq_of_le hle with hlt | rfl
    · exact h.leases j hj (Nat.le_of_lt_succ hlt)
    · exact hleases
  moves := by
    intro j hj hlt
    rcases Nat.lt_or_eq_of_le (Nat.le_of_lt_succ hlt) with hlt | rfl
    · exact h.moves j hj hlt
    · exact hsilent

/-- A result means the same when its task has done nothing more. -/
theorem Answers.succ (hm : n < m) {result : DispatchResult α} (h : r.Answers t n batch context m result)
    (hleases : ∀ i, (r.state (m + 1)).leased? (.parcel t i) = none)
    (hsilent : ∀ way, r.action m = .move t way → (r.state (m + 1)).events = (r.state m).events) :
    r.Answers t n batch context (m + 1) result := by
  cases h with
  | empty items idle => exact .empty items (idle.succ hleases hsilent)
  | unrouted lt before begins items members idle =>
    exact .unrouted lt (Nat.lt_succ_of_lt before) begins items members (idle.succ hleases hsilent)
  | overflow lt before begins items members overflows idle =>
    exact .overflow lt (Nat.lt_succ_of_lt before) begins items members overflows (idle.succ hleases hsilent)
  | delivered before handles ended => exact .delivered (Nat.lt_succ_of_lt before) (handles.silent hm hsilent) ended

/-! ## One step of a parcel -/

theorem Fits.congr {i : Nat} {p p' : Parcel α} {x : Deed} (h : r.Fits t i p x) (hendpoint : p'.endpoint = p.endpoint)
    (hbatch : p'.batch = p.batch) : r.Fits t i p' x where
  leased := h.leased
  endpoint := hendpoint ▸ h.endpoint
  took := hbatch ▸ h.took

theorem Traced.step (hm : n < m) {i started : Nat} {deadline : Option Instant} {token : Option String} {parcels : List (Parcel α)}
    {p p' : Parcel α} {c : Balancer α} {cut : Option RouterError} (h : r.Traced t i n m p) (hmove : r.action m = .move t i)
    (hd : (r.state m).duty? t = some (.deliver started deadline token parcels)) (hat : parcels[i]? = some p)
    (step : Balancer.ParcelStep (r.state m) p.endpoint p.batch cut p.phase c p'.phase) (hendpoint : p'.endpoint = p.endpoint)
    (hbatch : p'.batch = p.batch) (hevents : (r.state (m + 1)).events = c.events)
    (hdelivered : (r.state (m + 1)).delivered = c.delivered) : r.Traced t i n (m + 1) p' := by
  obtain ⟨deeds, hcourse, hdeeds, hfits⟩ := h
  obtain ⟨said, htells, hcourse', hsaid⟩ := step.course hcourse (fun x hx => ((hdeeds x).1 hx).2.1)
  have htells' : Balancer.Tells (r.state m) (r.state (m + 1)) said := by
    intro id
    rw [Balancer.history_congr hevents]
    exact htells id
  refine ⟨deeds ++ said.map (Deed.inStep m), hbatch ▸ hcourse', fun x => ?_, fun x hx => ?_⟩
  · rw [List.mem_append, hdeeds, does_succ_iff hm, r.says_iff_of_tells htells', List.mem_map]
    refine or_congr_right ?_
    constructor
    · rintro ⟨y, hy, rfl⟩
      exact ⟨rfl, hmove, hy⟩
    · rintro ⟨rfl, _, hx⟩
      exact ⟨_, hx, rfl⟩
  · rcases List.mem_append.1 hx with hx | hx
    · exact (hfits x hx).congr hendpoint hbatch
    · obtain ⟨y, hy, rfl⟩ := List.mem_map.1 hx
      obtain ⟨hlease, htook⟩ := hsaid y hy
      refine ⟨?_, ?_, fun hexported => ?_⟩
      · show (r.state m).leased? (.parcel t i) = some y.1
        rw [Balancer.leased?, Balancer.parcelsOf_of_duty? hd, hat]
        exact hlease
      · rw [hendpoint]
        exact (r.grounded m).duties t _ hd p (List.mem_of_getElem? hat) y.1 hlease
      · obtain ⟨entry, hentry, hkept⟩ := htook hexported
        refine ⟨entry, hentry, ?_⟩
        show (r.state (m + 1)).delivered = (r.state m).delivered ++ _
        rw [hdelivered, hbatch]
        exact hkept

/-- A step of one of the parcels continues the delivery. -/
theorem Handles.step (hm : n < m) {k way started : Nat} {deadline : Option Instant} {token : Option String}
    {parcels : List (Parcel α)} {p p' : Parcel α} {c : Balancer α} {cut : Option RouterError}
    (h : r.Handles t n batch context k m parcels) (hmove : r.action m = .move t way)
    (hd : (r.state m).duty? t = some (.deliver started deadline token parcels)) (hat : parcels[way]? = some p)
    (step : Balancer.ParcelStep (r.state m) p.endpoint p.batch cut p.phase c p'.phase) (hendpoint : p'.endpoint = p.endpoint)
    (hbatch : p'.batch = p.batch) (hevents : (r.state (m + 1)).events = c.events)
    (hdelivered : (r.state (m + 1)).delivered = c.delivered) :
    r.Handles t n batch context k (m + 1) (parcels.set way p') where
  lt := h.lt
  begins := h.begins
  items := h.items
  members := h.members
  fits := h.fits
  cuts := h.cuts.set hat hendpoint hbatch
  traced := by
    intro i q hq
    by_cases hi : way = i
    · subst hi
      rw [List.getElem?_set_self (List.getElem?_eq_some_iff.1 hat).1] at hq
      injection hq with hq
      subst hq
      exact (h.traced way p hat).step hm hmove hd hat step hendpoint hbatch hevents hdelivered
    · rw [List.getElem?_set_ne hi] at hq
      refine (h.traced i q hq).silent hm (fun hmove' => ?_)
      rw [hmove] at hmove'
      injection hmove' with _ hway
      exact absurd hway hi
  within := by
    intro i x hx
    rw [List.length_set]
    rcases (does_succ_iff hm).1 hx with hbefore | ⟨_, hmove', _⟩
    · exact h.within i x hbefore
    · rw [hmove] at hmove'
      injection hmove' with _ hway
      exact hway ▸ (List.getElem?_eq_some_iff.1 hat).1

/-! ## One step of a dispatch -/

theorem task?_withWorks_self {b c : Balancer α} {t : TaskId} {ws : List (Work α)} {task : Task α} (h : b.task? t = some task)
    (hts : c.tasks = b.tasks) : (c.withWorks t ws).task? t = some { task with works := ws } := by
  rw [Balancer.task?] at h
  rw [Balancer.task?, Balancer.withWorks, List.getElem?_modify_eq, hts, h]
  rfl

theorem task?_finish_self {b c : Balancer α} {t : TaskId} {rest : List (Work α)} {outcome : Outcome α} {task : Task α}
    (h : b.task? t = some task) (hts : c.tasks = b.tasks) : (c.finish t rest outcome).task? t = some ⟨rest, outcome⟩ := by
  rw [Balancer.task?] at h
  rw [Balancer.task?, Balancer.finish, List.getElem?_modify_eq, hts, h]
  rfl

theorem task?_spawn_self (b : Balancer α) (ws : List (Work α)) : (b.spawn ws).task? b.nextTask = some ⟨ws, .done⟩ := by
  rw [Balancer.task?, Balancer.spawn, Balancer.nextTask, List.getElem?_concat_length]

theorem state_succ_of_blocked {way : Nat} (hmove : r.action m = .move t way) (hblocked : (r.state m).move t way = none) :
    r.state (m + 1) = r.state m := by
  rw [state, hmove, Balancer.perform, hblocked]
  rfl

theorem state_succ_of_over {way : Nat} {outcome : Outcome α} (ht : (r.state m).task? t = some ⟨[], outcome⟩)
    (hmove : r.action m = .move t way) : r.state (m + 1) = r.state m := by
  refine state_succ_of_blocked hmove ?_
  rw [Balancer.move, Balancer.works_of_task? ht]

theorem leased?_of_over {outcome : Outcome α} (ht : (r.state m).task? t = some ⟨[], outcome⟩) (i : Nat) :
    (r.state m).leased? (.parcel t i) = none :=
  Balancer.leased?_eq_none ht (fun _ hw => nomatch hw) i

/-- The first move of a dispatch gives its result or cuts the batch into parcels. -/
theorem answers_or_handles (hm : n < m) {way : Nat} (ht : (r.state m).task? t = some ⟨[.dispatch batch context], .done⟩)
    (hidle : r.Idle t n m) (hmove : r.action m = .move t way) :
    (∃ result, (r.state (m + 1)).task? t = some ⟨[], .dispatched result⟩ ∧ r.Answers t n batch context (m + 1) result) ∨
      ∃ started deadline parcels, (r.state (m + 1)).task? t = some ⟨[.deliver started deadline context.token parcels], .done⟩ ∧
        r.Handles t n batch context m (m + 1) parcels := by
  have hworks : (r.state m).works t = [.dispatch batch context] := Balancer.works_of_task? ht
  have hbegins : r.Begins t batch context m := ⟨way, hmove, hworks⟩
  have hstep : r.state (m + 1) = (r.state m).beginDispatch t [] batch context := by
    rw [state, hmove, Balancer.perform, Balancer.move, hworks]
    rfl
  have hbegin := Balancer.beginDispatch_cases (r.published m).ring t [] batch context
  rw [← hstep] at hbegin
  have hend : ∀ {result : DispatchResult α}, r.state (m + 1) = (r.state m).finish t [] (.dispatched result) →
      (r.state (m + 1)).task? t = some ⟨[], .dispatched result⟩ ∧ r.Idle t n (m + 1) := by
    intro result hfinish
    have hover : (r.state (m + 1)).task? t = some ⟨[], .dispatched result⟩ := hfinish ▸ task?_finish_self ht rfl
    exact ⟨hover, hidle.succ (leased?_of_over hover) (fun _ _ => by rw [hfinish]; rfl)⟩
  generalize hnext : r.state (m + 1) = next at hbegin
  cases hbegin with
  | empty items =>
    obtain ⟨hover, hidle'⟩ := hend hnext
    exact .inl ⟨_, hnext ▸ hover, .empty items hidle'⟩
  | unrouted items members =>
    obtain ⟨hover, hidle'⟩ := hend hnext
    exact .inl ⟨_, hnext ▸ hover, .unrouted hm (Nat.lt_succ_self m) hbegins items members hidle'⟩
  | overflow items members overflows =>
    obtain ⟨hover, hidle'⟩ := hend hnext
    exact .inl ⟨_, hnext ▸ hover, .overflow hm (Nat.lt_succ_self m) hbegins items members overflows hidle'⟩
  | @deliver parcels deadline items members fits cuts pending =>
    have hnothing : ∀ i x, ¬ r.Does t i n (m + 1) x := by
      intro i x hx
      exact hidle.not_does i x ((does_succ_iff_of_silent hm (fun _ => by rw [hnext]; rfl)).1 hx)
    refine .inr ⟨_, deadline, parcels, task?_withWorks_self ht rfl, ⟨hm, hbegins, items, members, fits, cuts, ?_, ?_⟩⟩
    · intro i p hp
      refine ⟨[], ?_, fun x => ?_, fun _ hx => by cases hx⟩
      · rw [pending p (List.mem_of_getElem? hp)]
        exact .pending
      · exact ⟨(fun hx => by cases hx), fun hx => absurd hx (hnothing i x)⟩
    · intro i x hx
      exact absurd hx (hnothing i x)

theorem stage_of_begin (hm : n < m) {way : Nat} (ht : (r.state m).task? t = some ⟨[.dispatch batch context], .done⟩)
    (hidle : r.Idle t n m) (hmove : r.action m = .move t way) :
    ∃ task, (r.state (m + 1)).task? t = some task ∧ r.Stage t n batch context (m + 1) task := by
  rcases answers_or_handles hm ht hidle hmove with ⟨result, hover, hanswers⟩ | ⟨started, deadline, parcels, hdeliver, hhandles⟩
  · exact ⟨_, hover, .ended hanswers⟩
  · exact ⟨_, hdeliver, .delivering (Nat.lt_succ_self m) hhandles⟩

theorem stage_of_deliver (hm : n < m) {k way started : Nat} {deadline : Option Instant} {parcels : List (Parcel α)} (before : k < m)
    (ht : (r.state m).task? t = some ⟨[.deliver started deadline context.token parcels], .done⟩)
    (h : r.Handles t n batch context k m parcels) (hmove : r.action m = .move t way) :
    ∃ task, (r.state (m + 1)).task? t = some task ∧ r.Stage t n batch context (m + 1) task := by
  have hworks : (r.state m).works t = [.deliver started deadline context.token parcels] := Balancer.works_of_task? ht
  have hd : (r.state m).duty? t = some (.deliver started deadline context.token parcels) := Balancer.duty?_of_works hworks rfl
  have hmove' : (r.state m).move t way =
      (r.state m).stepDeliver t [] started deadline context.token parcels way := by
    rw [Balancer.move, hworks]
    rfl
  rcases hstep : (r.state m).move t way with _ | next
  · have hsame := state_succ_of_blocked hmove hstep
    exact ⟨_, hsame ▸ ht, .delivering (Nat.lt_succ_of_lt before) (h.silent hm (fun _ _ => by rw [hsame]))⟩
  · have hnext : r.state (m + 1) = next := by
      rw [state, hmove, Balancer.perform, hstep]
      rfl
    rw [hmove'] at hstep
    have hcases := Balancer.stepDeliver_cases ((r.grounded m).duties t _ hd) hstep
    cases hcases with
    | @parcel p p' c at_way endpoint batch_eq frame step =>
      refine ⟨_, hnext ▸ task?_withWorks_self ht frame.tasks, .delivering (Nat.lt_succ_of_lt before) ?_⟩
      exact h.step hm hmove hd at_way step endpoint batch_eq (by rw [hnext]; rfl) (by rw [hnext]; rfl)
    | finish ended =>
      refine ⟨_, hnext ▸ task?_finish_self ht rfl, .ended (.delivered (Nat.lt_succ_of_lt before) ?_ ended)⟩
      exact h.silent hm (fun _ _ => by rw [hnext]; rfl)

/-- Giving a dispatch up leaves its task without works. -/
theorem stage_of_abandon (hm : n < m) {task : Task α} (ht : (r.state m).task? t = some task)
    (h : r.Stage t n batch context m task) (habandon : r.action m = .abandon t) :
    ∃ task, (r.state (m + 1)).task? t = some task ∧ r.Stage t n batch context (m + 1) task := by
  have hnext : (r.state (m + 1)).task? t = some { task with works := [] } := by
    rw [state, habandon, Balancer.perform, Balancer.task?_abandon_self, ht]
    rfl
  have hsilent : ∀ way, r.action m = .move t way → (r.state (m + 1)).events = (r.state m).events := by
    intro way hmove
    rw [habandon] at hmove
    cases hmove
  refine ⟨_, hnext, ?_⟩
  cases h with
  | waiting idle => exact .abandoned (fun _ => idle.succ (leased?_of_over hnext) hsilent)
  | delivering before handles =>
    refine .abandoned (fun hempty => ?_)
    rw [handles.items] at hempty
    cases hempty
  | ended answers => exact .ended (answers.succ hm (leased?_of_over hnext) hsilent)
  | abandoned idle => exact .abandoned (fun hempty => (idle hempty).succ (leased?_of_over hnext) hsilent)

/-- A dispatch stays where it is while its task does not move and is not given up. -/
theorem stage_of_other (hm : n < m) {task : Task α} (ht : (r.state m).task? t = some task) (h : r.Stage t n batch context m task)
    (hmove : ∀ way, r.action m ≠ .move t way) (habandon : r.action m ≠ .abandon t) :
    ∃ task, (r.state (m + 1)).task? t = some task ∧ r.Stage t n batch context (m + 1) task := by
  have hlt : t < (r.state m).tasks.length := (List.getElem?_eq_some_iff.1 ht).1
  have hnext : (r.state (m + 1)).task? t = some task := (r.task?_succ hlt hmove habandon).trans ht
  have hsilent : ∀ way, r.action m = .move t way → (r.state (m + 1)).events = (r.state m).events :=
    fun way h => absurd h (hmove way)
  refine ⟨task, hnext, ?_⟩
  cases h with
  | waiting idle => exact .waiting (idle.succ (Balancer.leased?_eq_none hnext (by simp [Work.isInert])) hsilent)
  | delivering before handles => exact .delivering (Nat.lt_succ_of_lt before) (handles.silent hm hsilent)
  | ended answers => exact .ended (answers.succ hm (leased?_of_over hnext) hsilent)
  | abandoned idle => exact .abandoned (fun hempty => (idle hempty).succ (leased?_of_over hnext) hsilent)

/-- Whatever happens in a step, the dispatch is in a stage after it. -/
theorem Stage.next (hm : n < m) {task : Task α} (ht : (r.state m).task? t = some task) (h : r.Stage t n batch context m task) :
    ∃ task, (r.state (m + 1)).task? t = some task ∧ r.Stage t n batch context (m + 1) task := by
  by_cases habandon : r.action m = .abandon t
  · exact stage_of_abandon hm ht h habandon
  by_cases hmove : ∃ way, r.action m = .move t way
  · obtain ⟨way, hmove⟩ := hmove
    have hover : ∀ {outcome : Outcome α}, (r.state m).task? t = some ⟨[], outcome⟩ →
        r.state (m + 1) = r.state m := fun ht => state_succ_of_over ht hmove
    cases h with
    | waiting idle => exact stage_of_begin hm ht idle hmove
    | delivering before handles => exact stage_of_deliver hm before ht handles hmove
    | ended answers =>
      have hsame := hover ht
      have ht' := hsame ▸ ht
      exact ⟨_, ht', .ended (answers.succ hm (leased?_of_over ht') (fun _ _ => by rw [hsame]))⟩
    | abandoned idle =>
      have hsame := hover ht
      have ht' := hsame ▸ ht
      exact ⟨_, ht', .abandoned (fun hempty => (idle hempty).succ (leased?_of_over ht') (fun _ _ => by rw [hsame]))⟩
  · exact stage_of_other hm ht h (fun way hway => hmove ⟨way, hway⟩) habandon

end Steps

/-! ## All along a run -/

section Requested

variable {n : Nat} {batch : Batch α} {context : DispatchContext} (hrequest : r.action n = .request (.dispatch batch context))

include hrequest

theorem task?_of_request : (r.state (n + 1)).task? (r.state n).nextTask = some ⟨[.dispatch batch context], .done⟩ := by
  rw [state, hrequest]
  show (((r.state n).spawn []).withWorks (r.state n).nextTask [.dispatch batch context]).task? _ = _
  exact task?_withWorks_self (task?_spawn_self (r.state n) []) rfl

/-- In every state after its request, a dispatch is in a stage. -/
theorem stage_of_lt {m : Nat} (hm : n < m) :
    ∃ task, (r.state m).task? (r.state n).nextTask = some task ∧ r.Stage (r.state n).nextTask n batch context m task := by
  induction m, hm using Nat.le_induction with
  | base =>
    have ht := task?_of_request hrequest
    refine ⟨_, ht, .waiting ⟨fun j hj hle i => ?_, fun j hj hlt => absurd hlt (Nat.not_lt_of_le hj)⟩⟩
    have hjn : j = n + 1 := Nat.le_antisymm hle hj
    exact hjn ▸ Balancer.leased?_eq_none ht (by simp [Work.isInert]) i
  | succ m hm ih =>
    obtain ⟨task, ht, hstage⟩ := ih
    exact hstage.next hm ht

end Requested

end Run

end TelemetryRouter
