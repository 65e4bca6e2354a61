import TelemetryRouter.Proofs.Accounts
import TelemetryRouter.Proofs.Listings
import TelemetryRouter.Proofs.Posts
import TelemetryRouter.Proofs.Readings

/-!
# Dispatches and their parcels

A dispatch is at work in the task of its request only. It waits, delivers its parcels one step at a time, and ends with the result of the
parcels that were last seen of it (`Run.handling_of_mem`). What a step does to the parcels of any task is one of three things
(`Run.progress`): nothing, the cut of a batch, or one step of one parcel, with what that records.
-/

namespace TelemetryRouter

variable {α : Type}

/-- Whether a work is the dispatch of a batch, begun or not. -/
def Work.isDispatching : Work α → Bool
  | .dispatch _ _ => true
  | .deliver _ _ _ _ => true
  | _ => false

namespace Run

variable (r : Run α)

/-! ## Dispatches and their parcels -/

/-- The parcels of the dispatch of a task, as they were last seen. -/
def parcels (t : TaskId) : Nat → List (Parcel α)
  | 0 => []
  | n + 1 =>
    match (r.state (n + 1)).works t with
    | .deliver _ _ _ parcels :: _ => parcels
    | _ => parcels t n

/-- Whether a parcel of a task has had a lease until now. -/
def hasLeased (t : TaskId) (i n : Nat) : Bool := (List.range (n + 1)).any (fun k => ((r.state k).leased? (.parcel t i)).isSome)

/-- The task of the dispatch that is requested in a step, if any. -/
def dispatched? (n : Nat) : Option TaskId :=
  match r.action n with
  | .request (.dispatch _ _) => some (r.state n).nextTask
  | _ => none

/-- The tasks of the dispatches that were requested before a step, in order. -/
def dispatches (n : Nat) : List TaskId := gather r.dispatched? n

variable {r}

theorem parcels_of_works {t : TaskId} {n started : Nat} {deadline : Option Instant} {token : Option String} {ps : List (Parcel α)}
    {rest : List (Work α)} (h : (r.state n).works t = .deliver started deadline token ps :: rest) : r.parcels t n = ps := by
  cases n with
  | zero => cases h
  | succ n => rw [parcels, h]

theorem parcels_succ {t : TaskId} {n : Nat}
    (h : ∀ started deadline token ps rest, (r.state (n + 1)).works t ≠ .deliver started deadline token ps :: rest) :
    r.parcels t (n + 1) = r.parcels t n := by
  rw [parcels]
  split
  · rename_i started deadline token ps rest hw
    exact absurd hw (h _ _ _ _ _)
  · rfl

/-- Parcels are as they were while the works of their task are. -/
theorem parcels_succ_of_works {t : TaskId} {n : Nat} (h : (r.state (n + 1)).works t = (r.state n).works t) :
    r.parcels t (n + 1) = r.parcels t n := by
  rw [parcels]
  split
  · rename_i started deadline token ps rest hw
    exact (parcels_of_works (h ▸ hw)).symm
  · rfl

theorem parcels_of_le {t : TaskId} {n : Nat} (h : (r.state n).nextTask ≤ t) : r.parcels t n = [] := by
  induction n with
  | zero => rfl
  | succ n ih =>
    rw [parcels_succ (fun _ _ _ _ _ hw => by rw [Balancer.works_of_le h] at hw; cases hw)]
    exact ih (Nat.le_trans (r.nextTask_le (Nat.le_succ n)) h)

/-- The parcels of a task with a delivery are the last seen. -/
theorem parcelsOf_eq {t : TaskId} {n : Nat} : (r.state n).parcelsOf t = [] ∨ (r.state n).parcelsOf t = r.parcels t n := by
  unfold Balancer.parcelsOf
  split
  · rename_i started deadline token ps hd
    obtain ⟨rest, hw, _⟩ := Balancer.works_of_duty? hd
    exact .inr (parcels_of_works hw).symm
  · exact .inl rfl

theorem lease?_of_leased? {t : TaskId} {i n : Nat} {id : ExporterId} (h : (r.state n).leased? (.parcel t i) = some id) :
    ∃ p, (r.parcels t n)[i]? = some p ∧ p.phase.lease? = some id := by
  obtain ⟨p, hp, hid⟩ := Option.bind_eq_some_iff.1 h
  rcases r.parcelsOf_eq (t := t) (n := n) with hnil | heq
  · rw [hnil] at hp
    cases hp
  · exact ⟨p, heq ▸ hp, hid⟩

theorem leased?_of_seen {t : TaskId} {i n : Nat} {id : ExporterId} {p : Parcel α} (hseen : (r.state n).parcelsOf t = r.parcels t n)
    (hp : (r.parcels t n)[i]? = some p) (hid : p.phase.lease? = some id) : (r.state n).leased? (.parcel t i) = some id := by
  rw [Balancer.leased?, hseen, hp]
  exact hid

/-- Whether a parcel has had a lease is known from before, if it has none now. -/
theorem hasLeased_succ {t : TaskId} {i n : Nat} (h : ∀ p, (r.parcels t (n + 1))[i]? = some p → p.phase.lease? = none) :
    r.hasLeased t i (n + 1) = r.hasLeased t i n := by
  have hnone : (r.state (n + 1)).leased? (.parcel t i) = none := by
    rcases hleased : (r.state (n + 1)).leased? (.parcel t i) with _ | id
    · rfl
    · obtain ⟨p, hp, hid⟩ := lease?_of_leased? hleased
      rw [h p hp] at hid
      cases hid
  rw [hasLeased, List.range_succ, List.any_append, List.any_cons, List.any_nil, hnone, Option.isSome_none, Bool.or_false,
    Bool.or_false]
  rfl

theorem hasLeased_of_leased? {t : TaskId} {i k n : Nat} {id : ExporterId} (h : (r.state k).leased? (.parcel t i) = some id)
    (hkn : k ≤ n) : r.hasLeased t i n = true :=
  List.any_eq_true.2 ⟨k, List.mem_range.2 (Nat.lt_succ_of_le hkn), by rw [h]; rfl⟩

/-! ## One dispatch -/

variable (r)

/-- How far a dispatch is, with the parcels that were last seen. -/
inductive Handling (t : TaskId) (n : Nat) : Task α → Prop
  | waiting {batch : Batch α} {context : DispatchContext} (parcels : r.parcels t n = []) : Handling t n ⟨[.dispatch batch context], .done⟩
  | delivering {started : Nat} {deadline : Option Instant} {token : Option String} :
    Handling t n ⟨[.deliver started deadline token (r.parcels t n)], .done⟩
  | ended {result : DispatchResult α} (deliveries : result.deliveries = (r.parcels t n).filterMap Parcel.delivery?)
    (failures : result.failures = (r.parcels t n).filterMap Parcel.failure?) : Handling t n ⟨[], .dispatched result⟩
  | abandoned : Handling t n ⟨[], .done⟩

/-- A parcel of a task makes a step, and what that records is recorded. -/
structure Steps (t : TaskId) (n way : Nat) (p p' : Parcel α) : Prop where
  move : r.action n = .move t way
  seen : (r.state n).parcelsOf t = r.parcels t n
  at_way : (r.parcels t n)[way]? = some p
  endpoint : p'.endpoint = p.endpoint
  parcels : r.parcels t (n + 1) = (r.parcels t n).set way p'
  record : Balancer.ParcelRecord (r.state n).metrics (r.state (n + 1)).metrics p.endpoint p.phase p'.phase

/-- What a step does to the parcels of a dispatch. -/
inductive Progress (t : TaskId) (n : Nat) : Prop
  | same (parcels : r.parcels t (n + 1) = r.parcels t n)
  | cut (before : r.parcels t n = []) (pending : ∀ p ∈ r.parcels t (n + 1), p.phase = .pending)
  | step {way : Nat} {p p' : Parcel α} (steps : r.Steps t n way p p')

variable {r}

/-- Only the works of a task and the parcels last seen of it decide how far its dispatch is. -/
theorem Handling.same {t : TaskId} {n : Nat} {task : Task α} (ht : (r.state n).task? t = some task) (h : r.Handling t n task)
    (hnext : (r.state (n + 1)).task? t = some task) : r.Handling t (n + 1) task ∧ r.parcels t (n + 1) = r.parcels t n := by
  have hsame : r.parcels t (n + 1) = r.parcels t n :=
    parcels_succ_of_works (by rw [Balancer.works_of_task? ht, Balancer.works_of_task? hnext])
  refine ⟨?_, hsame⟩
  cases h with
  | waiting parcels => exact .waiting (hsame.trans parcels)
  | delivering => exact hsame ▸ .delivering
  | ended deliveries failures => exact .ended (hsame ▸ deliveries) (hsame ▸ failures)
  | abandoned => exact .abandoned

theorem parcels_succ_of_over {t : TaskId} {n : Nat} {outcome : Outcome α}
    (hnext : (r.state (n + 1)).task? t = some ⟨[], outcome⟩) : r.parcels t (n + 1) = r.parcels t n :=
  parcels_succ (fun _ _ _ _ _ hw => by rw [Balancer.works_of_task? hnext] at hw; cases hw)

/-- A dispatch that begins has its result at once, or its parcels before it. -/
theorem handling_of_begin {t : TaskId} {n way : Nat} {batch : Batch α} {context : DispatchContext}
    (ht : (r.state n).task? t = some ⟨[.dispatch batch context], .done⟩) (hparcels : r.parcels t n = [])
    (hmove : r.action n = .move t way) :
    ∃ task, (r.state (n + 1)).task? t = some task ∧ r.Handling t (n + 1) task ∧ r.Progress t n := by
  have hstep : r.state (n + 1) = (r.state n).beginDispatch t [] batch context := by
    rw [state, hmove, Balancer.perform, Balancer.move, Balancer.works_of_task? ht]
    rfl
  have hbegin := Balancer.beginDispatch_cases (r.published n).ring t [] batch context
  rw [← hstep] at hbegin
  have hend : ∀ {result : DispatchResult α}, r.state (n + 1) = (r.state n).finish t [] (.dispatched result) →
      result.deliveries = [] → result.failures = [] →
      ∃ task, (r.state (n + 1)).task? t = some task ∧ r.Handling t (n + 1) task ∧ r.Progress t n := by
    intro result hfinish hdeliveries hfailures
    have hover : (r.state (n + 1)).task? t = some ⟨[], .dispatched result⟩ := hfinish ▸ task?_finish_self ht rfl
    have hsame := parcels_succ_of_over hover
    refine ⟨_, hover, .ended ?_ ?_, .same hsame⟩
    · rw [hsame, hparcels, hdeliveries, List.filterMap_nil]
    · rw [hsame, hparcels, hfailures, List.filterMap_nil]
  generalize hnext : r.state (n + 1) = next at hbegin
  cases hbegin with
  | empty _ => exact hnext ▸ hend hnext rfl rfl
  | unrouted _ _ => exact hnext ▸ hend hnext rfl rfl
  | overflow _ _ _ => exact hnext ▸ hend hnext rfl rfl
  | @deliver ps deadline _ _ _ _ pending =>
    have hdeliver : (r.state (n + 1)).task? t = some ⟨[.deliver (r.state n).now deadline context.token ps], .done⟩ :=
      hnext ▸ task?_withWorks_self ht rfl
    have hps : r.parcels t (n + 1) = ps := parcels_of_works (Balancer.works_of_task? hdeliver)
    exact hnext ▸ ⟨_, hdeliver, hps ▸ .delivering, .cut hparcels (hps ▸ pending)⟩

/-- A step of a delivery that is recorded as one of a parcel is one. -/
theorem steps_of_recording {t : TaskId} {n way started : Nat} {deadline : Option Instant} {token : Option String}
    {ps : List (Parcel α)} {rest : List (Work α)} {p p' : Parcel α} {c : Balancer α} (hmove : r.action n = .move t way)
    (hworks : (r.state n).works t = .deliver started deadline token ps :: rest)
    (hnext : r.state (n + 1) = c.withWorks t (.deliver started deadline token (ps.set way p') :: rest))
    (htasks : c.tasks = (r.state n).tasks) (hat : ps[way]? = some p) (hendpoint : p'.endpoint = p.endpoint)
    (hrecord : Balancer.ParcelRecord (r.state n).metrics c.metrics p.endpoint p.phase p'.phase) : r.Steps t n way p p' := by
  have hps := parcels_of_works hworks
  have hworks' : (r.state (n + 1)).works t = .deliver started deadline token (ps.set way p') :: rest := by
    rw [hnext, Balancer.leaves_withWorks (Balancer.lt_of_works hworks) htasks _ t, if_pos rfl]
  refine ⟨hmove, ?_, hps ▸ hat, hendpoint, ?_, ?_⟩
  · rw [hps]
    exact Balancer.parcelsOf_of_duty? (Balancer.duty?_of_works hworks rfl)
  · rw [hps]
    exact parcels_of_works hworks'
  · rw [hnext]
    exact hrecord

/-- A delivery makes a step of a parcel, or ends with the result of its parcels. -/
theorem handling_of_deliver {t : TaskId} {n way started : Nat} {deadline : Option Instant} {token : Option String}
    (ht : (r.state n).task? t = some ⟨[.deliver started deadline token (r.parcels t n)], .done⟩)
    (hmove : r.action n = .move t way) :
    ∃ task, (r.state (n + 1)).task? t = some task ∧ r.Handling t (n + 1) task ∧ r.Progress t n := by
  have hworks := Balancer.works_of_task? ht
  have hrecording := r.recording n
  rw [hmove] at hrecording
  generalize hnext : r.state (n + 1) = next at hrecording
  cases hrecording with
  | still _ _ noParcel =>
    rcases hstep : (r.state n).move t way with _ | c
    · have hsame := state_succ_of_blocked hmove hstep
      obtain ⟨hhandling, hparcels⟩ := Handling.same ht .delivering (hsame ▸ ht)
      exact hnext ▸ ⟨_, hsame ▸ ht, hhandling, .same hparcels⟩
    · have hover := noParcel t way _ _ _ _ _ c rfl hworks hstep
      have hfinish : r.state (n + 1) = (r.state n).finish t [] (.dispatched (Parcel.result (r.parcels t n))) := by
        rw [state, hmove, Balancer.perform, Balancer.move, hworks]
        dsimp only [Balancer.step]
        rw [Balancer.stepDeliver, if_pos hover]
        rfl
      have hended : (r.state (n + 1)).task? t = some ⟨[], .dispatched (Parcel.result (r.parcels t n))⟩ :=
        hfinish ▸ task?_finish_self ht rfl
      have hsame := parcels_succ_of_over hended
      refine hnext ▸ ⟨_, hended, .ended ?_ ?_, .same hsame⟩
      · rw [hsame, Parcel.deliveries_result_eq_filterMap]
      · rw [hsame, Parcel.failures_result_eq_filterMap]
  | pass works _ =>
    rw [hworks] at works
    cases works
  | @parcel _ _ started' deadline' token' ps rest p p' c works at_way endpoint tasks record =>
    rw [hworks] at works
    injection works with hwork hrest
    injection hwork with hstarted hdeadline htoken hps
    subst hstarted hdeadline htoken hps hrest
    have hdeliver : (r.state (n + 1)).task? t = some ⟨[.deliver started deadline token ((r.parcels t n).set way p')], .done⟩ :=
      hnext ▸ task?_withWorks_self ht tasks
    have hsteps := steps_of_recording hmove hworks hnext tasks at_way endpoint record
    exact hnext ▸ ⟨_, hdeliver, hsteps.parcels ▸ .delivering, .step hsteps⟩

/-- Whatever happens in a step, a dispatch and its parcels go on. -/
theorem Handling.next {t : TaskId} {n : Nat} {task : Task α} (ht : (r.state n).task? t = some task) (h : r.Handling t n task) :
    ∃ task', (r.state (n + 1)).task? t = some task' ∧ r.Handling t (n + 1) task' ∧ r.Progress t n := by
  have hsame : (r.state (n + 1)).task? t = some task →
      ∃ task', (r.state (n + 1)).task? t = some task' ∧ r.Handling t (n + 1) task' ∧ r.Progress t n := by
    intro hnext
    obtain ⟨hhandling, hparcels⟩ := h.same ht hnext
    exact ⟨task, hnext, hhandling, .same hparcels⟩
  by_cases habandon : r.action n = .abandon t
  · have hnext : (r.state (n + 1)).task? t = some ⟨[], task.outcome⟩ := by
      rw [state, habandon, Balancer.perform, Balancer.task?_abandon_self, ht]
      rfl
    cases h with
    | waiting _ => exact ⟨_, hnext, .abandoned, .same (parcels_succ_of_over hnext)⟩
    | delivering => exact ⟨_, hnext, .abandoned, .same (parcels_succ_of_over hnext)⟩
    | ended _ _ => exact hsame hnext
    | abandoned => exact hsame hnext
  by_cases hmove : ∃ way, r.action n = .move t way
  · obtain ⟨way, hmove⟩ := hmove
    cases h with
    | waiting parcels => exact handling_of_begin ht parcels hmove
    | delivering => exact handling_of_deliver ht hmove
    | ended _ _ => exact hsame (state_succ_of_over ht hmove ▸ ht)
    | abandoned => exact hsame (state_succ_of_over ht hmove ▸ ht)
  · have hlt : t < (r.state n).tasks.length := (List.getElem?_eq_some_iff.1 ht).1
    exact hsame ((r.task?_succ hlt (fun way hway => hmove ⟨way, hway⟩) habandon).trans ht)

/-! ## All dispatches -/

/-- A dispatch that was requested before is one of the dispatches, and so is one that is requested now. -/
theorem mem_dispatches_succ {t : TaskId} {n : Nat} :
    t ∈ r.dispatches (n + 1) ↔ t ∈ r.dispatches n ∨ r.dispatched? n = some t := by
  rw [dispatches, gather_succ, List.mem_append, Option.mem_toList]
  rfl

theorem nextTask_of_dispatched? {t : TaskId} {n : Nat} (h : r.dispatched? n = some t) :
    t = (r.state n).nextTask ∧ ∃ batch context, r.action n = .request (.dispatch batch context) := by
  unfold dispatched? at h
  split at h
  · rename_i batch context haction
    injection h with h
    exact ⟨h.symm, batch, context, haction⟩
  · cases h

theorem parcels_of_dispatched? {t : TaskId} {n : Nat} (h : r.dispatched? n = some t) : r.parcels t (n + 1) = [] := by
  obtain ⟨rfl, batch, context, haction⟩ := nextTask_of_dispatched? h
  have ht := task?_of_request haction
  rw [parcels_succ (fun _ _ _ _ _ hw => by rw [Balancer.works_of_task? ht] at hw; cases hw)]
  exact parcels_of_le (Nat.le_refl _)

/-- In every state after its request, a dispatch is somewhere. -/
theorem handling_of_mem {t : TaskId} {n : Nat} (h : t ∈ r.dispatches n) :
    ∃ task, (r.state n).task? t = some task ∧ r.Handling t n task := by
  induction n with
  | zero => cases h
  | succ n ih =>
    rcases mem_dispatches_succ.1 h with h | h
    · obtain ⟨task, ht, hhandling⟩ := ih h
      obtain ⟨task', ht', hhandling', _⟩ := hhandling.next ht
      exact ⟨task', ht', hhandling'⟩
    · have hparcels := parcels_of_dispatched? h
      obtain ⟨rfl, batch, context, haction⟩ := nextTask_of_dispatched? h
      exact ⟨_, task?_of_request haction, .waiting hparcels⟩

theorem nodup_dispatches (n : Nat) : (r.dispatches n).Nodup := by
  induction n with
  | zero => exact List.nodup_nil
  | succ n ih =>
    rw [dispatches, gather_succ]
    refine List.nodup_append'.2 ⟨ih, ?_, ?_⟩
    · cases r.dispatched? n <;> simp
    · intro t hold hnew
      obtain ⟨rfl, _⟩ := nextTask_of_dispatched? (Option.mem_toList.1 hnew)
      obtain ⟨task, ht, _⟩ := handling_of_mem hold
      exact Nat.lt_irrefl _ (List.getElem?_eq_some_iff.1 ht).1

end Run

namespace Balancer

/-- A dispatch in a stack whose topmost work is none is under that work. -/
theorem mem_of_isDispatching {x y : Work α} {ys : List (Work α)} (hy : y.isDispatching = false) (hx : x ∈ y :: ys)
    (hdispatching : x.isDispatching = true) : x ∈ ys := by
  rcases List.mem_cons.1 hx with rfl | hmem
  · rw [hy] at hdispatching
    cases hdispatching
  · exact hmem

/-- A step of an inert work leaves a dispatch only where there was one. -/
theorem InertStep.dispatching {b b' : Balancer α} {t : TaskId} {rest ws started : List (Work α)} {way : Nat} {w x : Work α}
    (h : InertStep b t rest way w ws started b') (hx : x ∈ ws) (hdispatching : x.isDispatching = true) :
    x ∈ rest ∨ w.isDispatching = true := by
  have hcons : ∀ {y : Work α} {ys : List (Work α)}, y.isDispatching = false → x ∈ y :: ys → x ∈ ys := fun hy hmem =>
    mem_of_isDispatching hy hmem hdispatching
  cases h with
  | answer => exact .inr rfl
  | dispatch => exact .inr rfl
  | resolution step =>
    refine .inl ?_
    cases step with
    | conclude => exact hx
    | ask _ _ _ works_eq =>
      subst works_eq
      exact hcons rfl hx
    | _ => exact hcons rfl hx
  | poll step =>
    refine .inl ?_
    cases step with
    | stop _ => exact hx
    | poll _ _ works_eq =>
      subst works_eq
      exact hcons rfl (hcons rfl hx)
    | _ => exact hcons rfl hx
  | consume step =>
    refine .inl ?_
    cases step with
    | stop _ => exact hx
    | take _ => exact hcons rfl (hcons rfl hx)
    | refresh _ => exact hcons rfl (hcons rfl hx)
    | _ => exact hcons rfl hx
  | startResolver _ _ => exact .inl (hcons rfl (hcons rfl hx))
  | startBalancer _ => exact .inl (hcons rfl (hcons rfl (hcons rfl hx)))
  | stopPolls _ _ => exact .inl (hcons rfl (hcons rfl hx))
  | _ => exact .inl (by first | exact hx | exact hcons rfl hx | cases hx)

theorem InertStep.started_dispatching {b b' : Balancer α} {t : TaskId} {rest ws started : List (Work α)} {way : Nat} {w : Work α}
    (h : InertStep b t rest way w ws started b') : started.any Work.isDispatching = false := by
  cases h <;> rfl

/-- An export through a lease held from outside leaves itself or the works under it. -/
theorem works_of_exportLeased {b : Balancer α} (hb : b.Grounded) {t : TaskId} {way : Nat} {lease : LeaseId} {batch : Batch α}
    {wake : Option Nat} {rest : List (Work α)} (hw : b.works t = .exportLeased lease batch wake :: rest) {x : Work α}
    (hx : x ∈ (b.perform (.move t way)).works t) (hdispatching : x.isDispatching = true) : x ∈ rest := by
  have hcons : ∀ {wake : Option Nat}, x ∈ .exportLeased lease batch wake :: rest → x ∈ rest := fun hmem =>
    mem_of_isDispatching rfl hmem hdispatching
  rw [perform] at hx
  rcases hmove : b.move t way with _ | c
  · rw [hmove, Option.getD_none, hw] at hx
    exact hcons hx
  · rw [hmove, Option.getD_some] at hx
    rw [move, hw] at hmove
    obtain ⟨held, entry, _, _, hstep⟩ := stepExportLeased_cases hb hmove
    have ht := lt_of_works hw
    have hend : ∀ {c : Balancer α} {outcome : Outcome α}, Frame b c → x ∈ ((c.useLease lease (· - 1)).finish t rest outcome).works t →
        x ∈ rest := by
      intro c outcome hframe hmem
      rwa [leaves_finish ht ((resettles_useLease c lease (· - 1)).tasks.trans hframe.tasks) rest outcome t, if_pos rfl] at hmem
    cases hstep with
    | refuse frame _ _ => exact hend frame hx
    | call frame _ _ =>
      rw [leaves_withWorks ht frame.tasks _ t, if_pos rfl] at hx
      exact hcons hx
    | finish frame _ _ _ => exact hend frame hx

/-- A dispatch that is there after an action was there before, or is requested. -/
theorem Turn.dispatching {b b' : Balancer α} {a : Action α} (hb : b.Grounded) (h : Turn b a b') (hperform : b' = b.perform a)
    {x : TaskId} {w : Work α} (hw : w ∈ b'.works x) (hdispatching : w.isDispatching = true) :
    (∃ w' ∈ b.works x, w'.isDispatching = true) ∨ (x = b.nextTask ∧ ∃ batch context, a = .request (.dispatch batch context)) := by
  have hsame : b'.works x = b.works x → (∃ w' ∈ b.works x, w'.isDispatching = true) ∨
      (x = b.nextTask ∧ ∃ batch context, a = .request (.dispatch batch context)) :=
    fun heq => .inl ⟨w, heq ▸ hw, hdispatching⟩
  have hnil : ∀ {ws : List (Work α)}, b'.works x = ws → ws.any Work.isDispatching = false →
      (∃ w' ∈ b.works x, w'.isDispatching = true) ∨ (x = b.nextTask ∧ ∃ batch context, a = .request (.dispatch batch context)) := by
    intro ws heq hws
    exact absurd hdispatching (List.any_eq_false.1 hws w (heq ▸ hw))
  cases h with
  | @inert t way w₀ rest ws started _ works _ _ step _ =>
    have hx := step.leaves (lt_of_works works) x
    split at hx
    · rename_i heq
      subst heq
      rw [hx] at hw
      rcases step.dispatching hw hdispatching with hmem | hhead
      · exact .inl ⟨w, works ▸ List.mem_cons_of_mem _ hmem, hdispatching⟩
      · exact .inl ⟨w₀, works ▸ List.mem_cons_self, hhead⟩
    · split at hx
      · exact hnil hx step.started_dispatching
      · exact hsame hx
  | @pass t way p rest _ works _ step =>
    obtain ⟨ws, hleaves, hws⟩ := step.leaves works
    have hx := hleaves x
    split at hx
    · rename_i heq
      subst heq
      rw [hx] at hw
      have hmem : w ∈ rest := by
        rcases hws with rfl | ⟨p', rfl, _, _⟩
        · exact hw
        · exact mem_of_isDispatching rfl hw hdispatching
      exact .inl ⟨w, works ▸ List.mem_cons_of_mem _ hmem, hdispatching⟩
    · split at hx
      · exact hnil hx rfl
      · exact hsame hx
  | @exports t way w₀ rest ws _ works duty noPass _ exporting =>
    by_cases heq : x = t
    · subst heq
      cases w₀ with
      | pass p => exact absurd rfl (noPass p)
      | deliver started deadline token parcels => exact .inl ⟨_, works ▸ List.mem_cons_self, rfl⟩
      | exportLeased lease batch wake =>
        have hmem := works_of_exportLeased hb works (hperform ▸ hw) hdispatching
        exact .inl ⟨w, works ▸ List.mem_cons_of_mem _ hmem, hdispatching⟩
      | _ => cases duty
    · have hx := exporting.leaves x
      rw [if_neg heq] at hx
      split at hx
      · exact hnil hx rfl
      · exact hsame hx
  | @request rq _ =>
    have hx := works_request b rq x
    split at hx
    · rename_i heq
      cases rq with
      | dispatch batch context => exact .inr ⟨heq, batch, context, rfl⟩
      | resolve =>
        refine hnil hx ?_
        rw [begun]
        split <;> rfl
      | _ => exact hnil hx rfl
    · exact hsame hx
  | @abandon t =>
    have hx := works_abandon b t x
    split at hx
    · exact hnil hx rfl
    · exact hsame hx
  | @receive box => cases box <;> exact hsame rfl
  | still _ works _ _ => exact hsame (works x)
  | _ => exact hsame rfl

end Balancer

namespace Run

variable {r : Run α}

/-- A dispatch is at work only in the task of its request. -/
theorem mem_dispatches_of_works {t : TaskId} {n : Nat} {w : Work α} (hw : w ∈ (r.state n).works t)
    (hdispatching : w.isDispatching = true) : t ∈ r.dispatches n := by
  induction n generalizing w with
  | zero => cases hw
  | succ n ih =>
    refine mem_dispatches_succ.2 ?_
    rcases (r.turn n).dispatching (r.grounded n) rfl hw hdispatching with ⟨w', hw', hdispatching'⟩ | ⟨rfl, batch, context, haction⟩
    · exact .inl (ih hw' hdispatching')
    · exact .inr (by rw [dispatched?, haction])

theorem parcels_of_not_mem {t : TaskId} {n : Nat} (h : t ∉ r.dispatches n) : r.parcels t n = [] := by
  induction n with
  | zero => rfl
  | succ n ih =>
    rw [parcels_succ (fun _ _ _ _ _ hw => h (mem_dispatches_of_works (hw ▸ List.mem_cons_self) rfl))]
    exact ih (fun hmem => h (mem_dispatches_succ.2 (.inl hmem)))

/-- Whatever happens in a step, the parcels of a task go on. -/
theorem progress (t : TaskId) (n : Nat) : r.Progress t n := by
  by_cases h : t ∈ r.dispatches n
  · obtain ⟨task, ht, hhandling⟩ := handling_of_mem h
    obtain ⟨_, _, _, hprogress⟩ := hhandling.next ht
    exact hprogress
  · refine .same ?_
    rw [parcels_of_not_mem h]
    by_cases hnew : r.dispatched? n = some t
    · exact parcels_of_dispatched? hnew
    · exact parcels_of_not_mem (fun hmem => (mem_dispatches_succ.1 hmem).elim h hnew)

/-! ## Leases and refusals -/

theorem Steps.getElem?_succ {t : TaskId} {n way : Nat} {p p' : Parcel α} (h : r.Steps t n way p p') :
    (r.parcels t (n + 1))[way]? = some p' := by
  rw [h.parcels, List.getElem?_set_self (List.getElem?_eq_some_iff.1 h.at_way).1]

theorem Steps.hasLeased {t : TaskId} {n m way : Nat} {p p' : Parcel α} (h : r.Steps t n way p p') (hlease : p.phase.lease? ≠ none)
    (hnm : n ≤ m) : r.hasLeased t way m = true := by
  obtain ⟨id, hid⟩ := Option.ne_none_iff_exists'.1 hlease
  exact hasLeased_of_leased? (leased?_of_seen h.seen h.at_way hid) hnm

theorem lease?_of_isOver {p : Parcel α} (h : p.isOver = true) : p.phase.lease? = none := by
  obtain ⟨_, _, phase⟩ := p
  cases phase <;> simp_all [Parcel.isOver, ParcelPhase.lease?]

theorem Steps.not_isOver {t : TaskId} {n way : Nat} {p p' : Parcel α} (h : r.Steps t n way p p') : p.isOver = false := by
  rcases hover : p.isOver with _ | _
  · rfl
  · rcases h.record.pending_or_lease with hpending | hlease
    · rw [Parcel.isOver, hpending] at hover
      cases hover
    · exact absurd (lease?_of_isOver hover) hlease

theorem hasLeased_of_pending {t : TaskId} {i n : Nat} (h : ∀ p, (r.parcels t n)[i]? = some p → p.phase = .pending) :
    r.hasLeased t i n = false := by
  induction n with
  | zero => rfl
  | succ n ih =>
    rw [hasLeased_succ (fun p hp => by rw [h p hp]; rfl)]
    refine ih ?_
    cases r.progress t n with
    | same parcels => exact parcels ▸ h
    | cut before _ =>
      intro p hp
      rw [before] at hp
      cases hp
    | @step way p p' steps =>
      intro q hq
      by_cases hi : way = i
      · subst hi
        exact absurd (h p' steps.getElem?_succ) steps.record.ne_pending
      · exact h q (by rw [steps.parcels, List.getElem?_set_ne hi, hq])

/-- A parcel that was not delivered although it had no lease was refused one. -/
theorem error_of_not_hasLeased {t : TaskId} {i n : Nat} {p : Parcel α} {error : RouterError} (hp : (r.parcels t n)[i]? = some p)
    (hphase : p.phase = .failed error) (hnone : r.hasLeased t i n = false) : error = .endpointNotReady p.endpoint := by
  induction n generalizing p with
  | zero => cases hp
  | succ n ih =>
    have hlease : ∀ q, (r.parcels t (n + 1))[i]? = some q → q.phase.lease? = none := by
      intro q hq
      rw [hp] at hq
      injection hq with hq
      rw [← hq, hphase]
      rfl
    rw [hasLeased_succ hlease] at hnone
    cases r.progress t n with
    | same parcels => exact ih (parcels ▸ hp) hphase hnone
    | cut _ pending =>
      rw [pending p (List.mem_of_getElem? hp)] at hphase
      cases hphase
    | @step way q q' steps =>
      by_cases hi : way = i
      · subst hi
        rw [steps.getElem?_succ] at hp
        injection hp with hp
        subst hp
        have hrecord := steps.record
        rw [hphase] at hrecord
        rcases hrecord.lease_or_refused with hleased | hrefused
        · rw [steps.hasLeased hleased (Nat.le_refl n)] at hnone
          cases hnone
        · rw [hrefused, steps.endpoint]
      · exact ih (by rw [← hp, steps.parcels, List.getElem?_set_ne hi]) hphase hnone

end Run

end TelemetryRouter
