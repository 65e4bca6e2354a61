import TelemetryRouter.Proofs.Releases

/-!
# How the parcels of a dispatch are judged

Each parcel of a dispatch is judged for itself. Its first step looks for a running exporter, and nothing else: without one the parcel has
failed, even if its token has fired or its deadline is reached. A parcel with an exporter goes on as long as nothing is due, and the first
step that finds something due ends it by the verdict of that moment (`Run.Judged`). So no call is made for a token that has fired, and no
lease goes back before the export has ended or was dropped (`Run.judges_of_begins`).
-/

namespace TelemetryRouter

variable {α : Type}

theorem ParcelPhase.lease?_ofResult (result : Except RouterError Unit) : (ofResult result).lease? = none := by
  cases result <;> rfl

theorem ParcelPhase.ofResult_ne_pending (result : Except RouterError Unit) : ofResult result ≠ .pending := by
  cases result <;> exact fun h => nomatch h

namespace Balancer

/-! ## The deadline of a dispatch -/

/-- The deadline of a dispatch that begins: the caller's, or else that of the time limit of exports, if there is one. -/
def deadlineOf (b : Balancer α) (context : DispatchContext) : Option Instant :=
  context.deadline.or (b.options.exportTimeout.map (Instant.after b.now))

/-- The deadline that the clock can represent is the one that the dispatch has. -/
theorem deadlineOf_eq {b : Balancer α} {context : DispatchContext} {deadline : Option Instant}
    (h : b.deadlineFor context = some deadline) : b.deadlineOf context = deadline := by
  unfold deadlineFor at h
  unfold deadlineOf
  split at h
  · rename_i hd
    cases h
    rw [hd]
    rfl
  · rename_i hd hlimit
    cases h
    rw [hd, hlimit]
    rfl
  · rename_i hd hlimit
    obtain ⟨d, hafter, rfl⟩ := Option.map_eq_some_iff.1 h
    unfold Instant.after? at hafter
    split at hafter
    · cases hafter
      rw [hd, hlimit]
      rfl
    · cases hafter

/-- A dispatch that begins has a result without parcels, or delivers parcels that are all at their beginning, from now on and until its
deadline. -/
theorem beginDispatch_eq (b : Balancer α) (t : TaskId) (rest : List (Work α)) (batch : Batch α) (context : DispatchContext) :
    (∃ result, b.beginDispatch t rest batch context = b.finish t rest (.dispatched result) ∧ result.deliveries = [] ∧
      result.failures = []) ∨
    ∃ parcels, b.beginDispatch t rest batch context =
      b.withWorks t (.deliver b.now (b.deadlineOf context) context.token parcels :: rest) ∧ ∀ p ∈ parcels, p.phase = .pending := by
  unfold beginDispatch
  split
  · exact .inl ⟨_, rfl, rfl, rfl⟩
  · split
    · exact .inl ⟨_, rfl, rfl, rfl⟩
    · split
      · exact .inl ⟨_, rfl, rfl, rfl⟩
      · rename_i groups _ _ deadline hdeadline
        rw [deadlineOf_eq hdeadline]
        refine .inr ⟨_, rfl, fun p hp => ?_⟩
        obtain ⟨g, -, rfl⟩ := List.mem_map.1 hp
        rfl

end Balancer

namespace Run

/-! ## One parcel -/

section Parcels

variable (r : Run α) (t i : Nat)

/-- Whether a way of a task moves in a step, for the first time after another. -/
structure First (k j : Nat) : Prop where
  after : k < j
  move : r.action j = .move t i
  unmoved : ∀ j', k < j' → j' < j → r.action j' ≠ .move t i

/-- Whether a way of a task found nothing due for its parcel whenever it moved between two steps. -/
def Quiet (deadline : Option Instant) (token : Option String) (j m : Nat) : Prop :=
  ∀ j', j < j' → j' < m → r.action j' = .move t i → ∃ p, (r.parcels t j')[i]? = some p ∧ ¬ (r.state j').Due deadline token p

/-- How a parcel is judged that was seen before a step, if its dispatch has begun in an earlier one. -/
inductive Judged (k : Nat) (deadline : Option Instant) (token : Option String) (m : Nat) (p : Parcel α) : Prop
  | pending (phase : p.phase = .pending) (unmoved : ∀ j, k < j → j < m → r.action j ≠ .move t i)
  /-- There was no running exporter for it, whatever else was there. -/
  | unready {j : Nat} (first : r.First t i k j) (before : j < m) (none : ∀ id, ¬ (r.state j).Offers p.endpoint id)
    (phase : p.phase = .failed (.endpointNotReady p.endpoint))
  /-- It has the exporter that was offered, and nothing was due until now. -/
  | working {j : Nat} {id : ExporterId} (first : r.First t i k j) (before : j < m) (offers : (r.state j).Offers p.endpoint id)
    (lease : p.phase.lease? = some id) (quiet : r.Quiet t i deadline token j m)
  /-- It had the exporter that was offered, and the first step that has found something due has ended it. -/
  | decided {j d : Nat} {id : ExporterId} {q : Parcel α} {result : Except RouterError Unit} {said : List Occurrence}
    (first : r.First t i k j) (lt : j < d) (before : d < m) (offers : (r.state j).Offers p.endpoint id)
    (quiet : r.Quiet t i deadline token j d) (move : r.action d = .move t i) (at_way : (r.parcels t d)[i]? = some q)
    (lease : q.phase.lease? = some id) (verdict : (r.state d).Verdict (r.state k).now deadline token q result said)
    (back : Balancer.GivesBack (r.state d) (r.state (d + 1)) id said) (eq : p = { q with phase := .ofResult result })

variable {r t i} {k j m : Nat} {deadline : Option Instant} {token : Option String} {p : Parcel α}

/-- A way stays quiet if it does not move, or finds nothing due. -/
theorem Quiet.succ (h : r.Quiet t i deadline token j m)
    (hquiet : r.action m = .move t i → ∃ p, (r.parcels t m)[i]? = some p ∧ ¬ (r.state m).Due deadline token p) :
    r.Quiet t i deadline token j (m + 1) := by
  intro j' hj hm hmove
  rcases Nat.lt_or_eq_of_le (Nat.le_of_lt_succ hm) with hlt | rfl
  · exact h j' hj hlt hmove
  · exact hquiet hmove

namespace Judged

theorem unmoved (h : r.Judged t i k deadline token m p) (hphase : p.phase = .pending) :
    ∀ j, k < j → j < m → r.action j ≠ .move t i := by
  cases h with
  | pending _ unmoved => exact unmoved
  | unready _ _ _ phase =>
    rw [hphase] at phase
    cases phase
  | working _ _ _ lease _ =>
    rw [hphase] at lease
    cases lease
  | decided _ _ _ _ _ _ _ _ _ _ eq =>
    subst eq
    exact absurd hphase (ParcelPhase.ofResult_ne_pending _)

/-- A parcel with a lease has it from its first step, and was quiet since. -/
theorem quiet (h : r.Judged t i k deadline token m p) {id : ExporterId} (hlease : p.phase.lease? = some id) :
    ∃ j, r.First t i k j ∧ j < m ∧ (r.state j).Offers p.endpoint id ∧ r.Quiet t i deadline token j m := by
  cases h with
  | pending phase _ =>
    rw [phase] at hlease
    cases hlease
  | unready _ _ _ phase =>
    rw [phase] at hlease
    cases hlease
  | working first before offers lease quiet =>
    obtain rfl := Option.some.inj (lease.symm.trans hlease)
    exact ⟨_, first, before, offers, quiet⟩
  | decided _ _ _ _ _ _ _ _ _ _ eq =>
    subst eq
    rw [ParcelPhase.lease?_ofResult] at hlease
    cases hlease

theorem of_isOver (h : r.Judged t i k deadline token m p) (hover : p.isOver = true) : r.Judged t i k deadline token (m + 1) p := by
  cases h with
  | pending phase _ =>
    rw [Parcel.isOver, phase] at hover
    cases hover
  | unready first before none phase => exact .unready first (Nat.lt_succ_of_lt before) none phase
  | working _ _ _ lease _ =>
    rw [lease?_of_isOver hover] at lease
    cases lease
  | decided first lt before offers quiet move at_way lease verdict back eq =>
    exact .decided first lt (Nat.lt_succ_of_lt before) offers quiet move at_way lease verdict back eq

theorem of_unmoved (h : r.Judged t i k deadline token m p) (hmove : r.action m ≠ .move t i) :
    r.Judged t i k deadline token (m + 1) p := by
  cases h with
  | pending phase unmoved =>
    refine .pending phase (fun j hj hm => ?_)
    rcases Nat.lt_or_eq_of_le (Nat.le_of_lt_succ hm) with hlt | rfl
    · exact unmoved j hj hlt
    · exact hmove
  | unready first before none phase => exact .unready first (Nat.lt_succ_of_lt before) none phase
  | working first before offers lease quiet =>
    exact .working first (Nat.lt_succ_of_lt before) offers lease (quiet.succ (fun hmove' => absurd hmove' hmove))
  | decided first lt before offers quiet move at_way lease verdict back eq =>
    exact .decided first lt (Nat.lt_succ_of_lt before) offers quiet move at_way lease verdict back eq

/-- A parcel that makes no step in its move waits for its exporter, or is over. -/
theorem of_blocked (h : r.Judged t i k deadline token m p) (hp : (r.parcels t m)[i]? = some p) {started : Nat}
    (hturning : (r.state m).Turning started deadline token p none) : r.Judged t i k deadline token (m + 1) p := by
  cases hturning with
  | @wait id since wake phase hquiet =>
    have hlease : p.phase.lease? = some id := by rw [phase]; rfl
    obtain ⟨j, first, before, offers, quiet⟩ := h.quiet hlease
    exact .working first (Nat.lt_succ_of_lt before) offers hlease (quiet.succ (fun _ => ⟨p, hp, hquiet⟩))
  | closed ended => exact h.of_isOver ended

/-- A step of a parcel: its first one, one with nothing due, or its last one. -/
theorem of_stepped (h : r.Judged t i k deadline token m p) (hkm : k < m) (hmove : r.action m = .move t i)
    (hp : (r.parcels t m)[i]? = some p) {c : Balancer α} {p' : Parcel α}
    (hturning : (r.state m).Turning (r.state k).now deadline token p (some (c, p'))) (hpool : (r.state (m + 1)).pool = c.pool)
    (hevents : (r.state (m + 1)).events = c.events) : r.Judged t i k deadline token (m + 1) p' := by
  cases hturning with
  | unready phase none => exact .unready ⟨hkm, hmove, h.unmoved phase⟩ (Nat.lt_succ_self m) none rfl
  | lease phase offers _ =>
    exact .working ⟨hkm, hmove, h.unmoved phase⟩ (Nat.lt_succ_self m) offers rfl
      (fun j' hj hm _ => absurd hm (Nat.not_lt_of_le hj))
  | @call _ id since _ _ _ phase hquiet _ =>
    have hlease : p.phase.lease? = some id := by rw [phase]; rfl
    obtain ⟨j, first, before, offers, quiet⟩ := h.quiet hlease
    exact .working first (Nat.lt_succ_of_lt before) offers rfl (quiet.succ (fun _ => ⟨p, hp, hquiet⟩))
  | decide lease verdict back =>
    obtain ⟨j, first, before, offers, quiet⟩ := h.quiet lease
    exact .decided first before (Nat.lt_succ_self m) offers quiet hmove hp lease verdict (back.congr hpool hevents) rfl

end Judged

end Parcels

/-! ## One dispatch -/

section Dispatches

variable (r : Run α) (t k : Nat) (context : DispatchContext)

/-- How a parcel is judged by the deadline and the token of its dispatch. -/
abbrev JudgedBy (m i : Nat) (p : Parcel α) : Prop := r.Judged t i k ((r.state k).deadlineOf context) context.token m p

/-- How far a dispatch is that has begun in a step, with its parcels as they are judged. -/
inductive Judging (m : Nat) : Task α → Prop
  /-- It delivers its parcels. -/
  | delivering (judged : ∀ i p, (r.parcels t m)[i]? = some p → r.JudgedBy t k context m i p) :
    Judging m ⟨[.deliver (r.state k).now ((r.state k).deadlineOf context) context.token (r.parcels t m)], .done⟩
  /-- It has its result, or was given up. -/
  | ended {outcome : Outcome α} (judged : ∀ i p, (r.parcels t m)[i]? = some p → p.isOver = true → r.JudgedBy t k context m i p)
    (reported : ∀ result, outcome = .dispatched result → (∀ p ∈ r.parcels t m, p.isOver = true) ∧
      result.deliveries = (r.parcels t m).filterMap Parcel.delivery? ∧ result.failures = (r.parcels t m).filterMap Parcel.failure?) :
    Judging m ⟨[], outcome⟩

variable {r t k context} {m : Nat}

theorem ne_move_of_ne {way i : Nat} (hmove : r.action m = .move t way) (hway : way ≠ i) : r.action m ≠ .move t i := by
  rw [hmove]
  intro heq
  injection heq with _ heq
  exact hway heq

/-- Whatever happens in a step, the parcels are judged after it. -/
theorem Judging.next (hkm : k < m) {task : Task α} (ht : (r.state m).task? t = some task) (h : r.Judging t k context m task) :
    ∃ task', (r.state (m + 1)).task? t = some task' ∧ r.Judging t k context (m + 1) task' := by
  cases h with
  | delivering judged =>
    have hseen := Balancer.parcelsOf_of_task? ht
    have hturning : ∀ i p, (r.parcels t m)[i]? = some p → (r.state m).Turning (r.state k).now ((r.state k).deadlineOf context)
        context.token p ((r.state m).stepParcel (r.state k).now ((r.state k).deadlineOf context) context.token p) := fun i p hp =>
      Balancer.turning_stepParcel ((r.grounded m).made_of_mem (hseen ▸ List.mem_of_getElem? hp))
    cases pursuit ht with
    | abandoned action next =>
      have hsame := parcels_succ_of_over next
      refine ⟨_, next, .ended (fun i p hp hover => ?_) (fun _ h => nomatch h)⟩
      exact (judged i p (hsame ▸ hp)).of_isOver hover
    | finished _ ended _ next =>
      have hsame := parcels_succ_of_over next
      refine ⟨_, next, .ended (fun i p hp hover => ?_) (fun result hresult => ?_)⟩
      · exact (judged i p (hsame ▸ hp)).of_isOver hover
      · cases hresult
        rw [hsame]
        exact ⟨List.all_eq_true.1 ended, Parcel.deliveries_result_eq_filterMap _, Parcel.failures_result_eq_filterMap _⟩
    | @blocked way move same waits =>
      have hsame : r.parcels t (m + 1) = r.parcels t m := parcels_succ_of_works (by rw [same])
      refine ⟨_, same ▸ ht, hsame ▸ .delivering (fun i p hp => ?_)⟩
      rw [hsame] at hp
      by_cases hway : way = i
      · subst hway
        exact (judged way p hp).of_blocked hp (waits p hp ▸ hturning way p hp)
      · exact (judged i p hp).of_unmoved (ne_move_of_ne move hway)
    | @stepped way q q' c move at_way step pool events next =>
      have hparcels : r.parcels t (m + 1) = (r.parcels t m).set way q' := parcels_of_works (Balancer.works_of_task? next)
      refine ⟨_, next, hparcels ▸ .delivering (fun i p hp => ?_)⟩
      rw [hparcels] at hp
      by_cases hway : way = i
      · subst hway
        rw [List.getElem?_set_self (List.getElem?_eq_some_iff.1 at_way).1] at hp
        cases hp
        exact (judged way q at_way).of_stepped hkm move at_way (step ▸ hturning way q at_way) pool events
      · rw [List.getElem?_set_ne hway] at hp
        exact (judged i p hp).of_unmoved (ne_move_of_ne move hway)
    | aside unmoved next =>
      have hsame : r.parcels t (m + 1) = r.parcels t m := parcels_succ_of_works (by rw [Balancer.works, Balancer.works, next])
      refine ⟨_, next.trans ht, hsame ▸ .delivering (fun i p hp => ?_)⟩
      exact (judged i p (hsame ▸ hp)).of_unmoved (unmoved i)
  | ended judged reported =>
    have hnext := task?_of_outcome? (outcome?_of_le (Nat.le_succ m) (outcome?_of_task? ht))
    have hsame := parcels_succ_of_over hnext
    refine ⟨_, hnext, .ended (fun i p hp hover => ?_) (hsame ▸ reported)⟩
    exact (judged i p (hsame ▸ hp) hover).of_isOver hover

end Dispatches

/-! ## All along a run -/

variable (r : Run α)

/-- What becomes of the parcels of a dispatch that was requested in a step and has begun in a later one. -/
structure Judges (t n k : Nat) (context : DispatchContext) : Prop where
  /-- Every parcel is judged for itself, if it is over or its dispatch was not given up. -/
  judged : ∀ m i p, k < m → (r.parcels t m)[i]? = some p → p.isOver = true ∨ (r.state m).works t ≠ [] →
    r.JudgedBy t k context m i p
  /-- The result of the dispatch says of every parcel what became of it. -/
  reported : ∀ m result, k < m → (r.state m).outcome? t = some (.dispatched result) → (∀ p ∈ r.parcels t m, p.isOver = true) ∧
    result.deliveries = (r.parcels t m).filterMap Parcel.delivery? ∧ result.failures = (r.parcels t m).filterMap Parcel.failure?
  /-- A parcel that is not over can go on, only that it waits until something is due while its exporter is at work. -/
  opens : ∀ m i p, k < m → ((r.state m).parcelsOf t)[i]? = some p → p.isOver = false → ((r.state m).move t i ≠ none ↔
    (r.state m).Due ((r.state k).deadlineOf context) context.token p ∨ ∀ id since wake, p.phase ≠ .exporting id since wake)
  uncalled : ∀ j m i x, (r.state j).Fired context.token → r.Does t i n m x → x.what.isExportCall = true → x.step < j
  /-- A parcel keeps its lease until its delivery ends or its dispatch is given up. An export that is at work has ended or was dropped
  before the lease goes back. -/
  leased : ∀ m i id, k < m → (r.state m).leased? (.parcel t i) = some id →
    (∃ entry, (r.state m).pool.entry? id = some entry ∧ 0 < entry.leases) ∧
    ((r.state (m + 1)).leased? (.parcel t i) = some id ∨
      ∃ p said, ((r.state m).parcelsOf t)[i]? = some p ∧ p.phase.Closing said ∧ r.Frees t i m id said)
  /-- From the call of an exporter on, its lease is there until the end of the export, in whatever way it ends. -/
  freed : ∀ m i x items, r.Does t i n m x → x.what = .exporting items →
    (∀ j, x.step < j → j ≤ m → (r.state j).leased? (.parcel t i) = some x.exporter) ∨
    ∃ y what, x.step < y ∧ y < m ∧ (∀ j, x.step < j → j ≤ y → (r.state j).leased? (.parcel t i) = some x.exporter) ∧
      what.endsExport = true ∧ r.Frees t i y x.exporter [what]

section Requested

variable {r} {n k : Nat} {batch : Batch α} {context : DispatchContext}
  (hrequest : r.action n = .request (.dispatch batch context)) (hbegins : r.Begins (r.state n).nextTask batch context k)

include hbegins

theorem lt_of_begins : n < k := by
  obtain ⟨way, -, hworks⟩ := hbegins
  refine Nat.lt_of_not_le (fun hle => ?_)
  rw [Balancer.works_of_le (r.nextTask_le hle)] at hworks
  cases hworks

include hrequest

theorem waiting_of_begins : (r.state k).task? (r.state n).nextTask = some ⟨[.dispatch batch context], .done⟩ ∧
    r.Idle (r.state n).nextTask n k ∧ r.parcels (r.state n).nextTask k = [] := by
  obtain ⟨task, ht, hstage⟩ := stage_of_lt hrequest (lt_of_begins hbegins)
  obtain ⟨way, -, hworks⟩ := hbegins
  obtain ⟨task', ht', hhandling⟩ := handling_of_mem (mem_dispatches_of_works (hworks ▸ List.mem_cons_self) rfl)
  obtain rfl : task = task' := Option.some.inj (ht.symm.trans ht')
  rw [Balancer.works_of_task? ht] at hworks
  cases hstage with
  | waiting idle =>
    cases hhandling with
    | waiting parcels => exact ⟨ht, idle, parcels⟩
  | delivering _ _ => cases hworks
  | ended _ => cases hworks
  | abandoned _ => cases hworks

/-- The first step of a dispatch leaves the log alone, and its parcels at their beginning. -/
theorem judging_of_begins : (r.state (k + 1)).events = (r.state k).events ∧
    ∃ task, (r.state (k + 1)).task? (r.state n).nextTask = some task ∧ r.Judging (r.state n).nextTask k context (k + 1) task := by
  obtain ⟨ht, -, hparcels⟩ := waiting_of_begins hrequest hbegins
  obtain ⟨way, hmove, hworks⟩ := hbegins
  have hnext : r.state (k + 1) = (r.state k).beginDispatch (r.state n).nextTask [] batch context := by
    rw [state, hmove, Balancer.perform, Balancer.move, hworks]
    rfl
  rcases (r.state k).beginDispatch_eq (r.state n).nextTask [] batch context with
    ⟨result, heq, hdeliveries, hfailures⟩ | ⟨parcels, heq, hpending⟩
  · rw [heq] at hnext
    have hover : (r.state (k + 1)).task? (r.state n).nextTask = some ⟨[], .dispatched result⟩ := hnext ▸ task?_finish_self ht rfl
    have hnil : r.parcels (r.state n).nextTask (k + 1) = [] := (parcels_succ_of_over hover).trans hparcels
    refine ⟨by rw [hnext]; rfl, _, hover, .ended (fun i p hp => ?_) (fun result' hresult => ?_)⟩
    · rw [hnil] at hp
      cases hp
    · cases hresult
      rw [hnil]
      exact ⟨fun p hp => absurd hp List.not_mem_nil, hdeliveries, hfailures⟩
  · rw [heq] at hnext
    have hdeliver : (r.state (k + 1)).task? (r.state n).nextTask = some ⟨[.deliver (r.state k).now ((r.state k).deadlineOf context)
        context.token parcels], .done⟩ := hnext ▸ task?_withWorks_self ht rfl
    have hseen : r.parcels (r.state n).nextTask (k + 1) = parcels := parcels_of_works (Balancer.works_of_task? hdeliver)
    refine ⟨by rw [hnext]; rfl, _, hdeliver, hseen ▸ .delivering (fun i p hp => ?_)⟩
    refine .pending (hpending p (hseen ▸ List.mem_of_getElem? hp)) (fun j hj hm => ?_)
    exact absurd hm (Nat.not_lt_of_le hj)

/-- In every state after it has begun, the parcels of a dispatch are judged. -/
theorem judging_of_lt {m : Nat} (hkm : k < m) :
    ∃ task, (r.state m).task? (r.state n).nextTask = some task ∧ r.Judging (r.state n).nextTask k context m task := by
  induction m, hkm using Nat.le_induction with
  | base => exact (judging_of_begins hrequest hbegins).2
  | succ m hkm ih =>
    obtain ⟨task, ht, hjudging⟩ := ih
    exact hjudging.next hkm ht

/-- A dispatch does something to exporters only after it has begun, and while it delivers its parcels. -/
theorem delivering_of_does {m i : Nat} {x : Deed} (h : r.Does (r.state n).nextTask i n m x) : k < x.step ∧
    (r.state x.step).task? (r.state n).nextTask = some ⟨[.deliver (r.state k).now ((r.state k).deadlineOf context) context.token
      (r.parcels (r.state n).nextTask x.step)], .done⟩ := by
  obtain ⟨hlt, -, hmove, hsaid⟩ := h
  have hkx : k < x.step := by
    refine Nat.lt_of_not_le (fun hle => ?_)
    rcases Nat.lt_or_eq_of_le hle with hbefore | heq
    · exact (waiting_of_begins hrequest hbegins).2.1.not_does i x ⟨hlt, hbefore, hmove, hsaid⟩
    · rw [heq] at hsaid
      exact not_says_of_events (judging_of_begins hrequest hbegins).1 _ _ hsaid
  obtain ⟨task, ht, hjudging⟩ := judging_of_lt hrequest hbegins hkx
  cases hjudging with
  | delivering _ => exact ⟨hkx, ht⟩
  | ended _ _ => exact absurd hsaid (not_says_of_events (by rw [state_succ_of_over ht hmove]) _ _)

/-- A dispatch delivers while one of its parcels is seen. -/
theorem delivering_of_seen {m i : Nat} (hkm : k < m) {p : Parcel α} (hp : ((r.state m).parcelsOf (r.state n).nextTask)[i]? = some p) :
    (r.state m).task? (r.state n).nextTask = some ⟨[.deliver (r.state k).now ((r.state k).deadlineOf context) context.token
      (r.parcels (r.state n).nextTask m)], .done⟩ ∧ (r.parcels (r.state n).nextTask m)[i]? = some p := by
  obtain ⟨task, ht, hjudging⟩ := judging_of_lt hrequest hbegins hkm
  cases hjudging with
  | delivering _ => exact ⟨ht, Balancer.parcelsOf_of_task? ht ▸ hp⟩
  | ended _ _ =>
    obtain ⟨started, deadline, token, hd⟩ := Balancer.duty?_of_mem_parcelsOf (List.mem_of_getElem? hp)
    rw [Balancer.duty?_eq_none (by rw [Balancer.works_of_task? ht]; exact fun _ hw => nomatch hw)] at hd
    cases hd

/-- A parcel that is not over has to wait only while its exporter is at work and nothing is due. -/
theorem move_ne_none_iff {m i : Nat} {p : Parcel α} (hkm : k < m)
    (hp : ((r.state m).parcelsOf (r.state n).nextTask)[i]? = some p) (hover : p.isOver = false) :
    (r.state m).move (r.state n).nextTask i ≠ none ↔ (r.state m).Due ((r.state k).deadlineOf context) context.token p ∨
      ∀ id since wake, p.phase ≠ .exporting id since wake := by
  obtain ⟨ht, hat⟩ := delivering_of_seen hrequest hbegins hkm hp
  have hunended : ¬ (r.parcels (r.state n).nextTask m).all Parcel.isOver = true := by
    intro hall
    rw [List.all_eq_true.1 hall p (List.mem_of_getElem? hat)] at hover
    cases hover
  have hturning : (r.state m).Turning (r.state k).now ((r.state k).deadlineOf context) context.token p _ :=
    Balancer.turning_stepParcel ((r.grounded m).made_of_mem (List.mem_of_getElem? hp))
  rw [Balancer.move, Balancer.works_of_task? ht]
  show (r.state m).stepDeliver _ [] _ _ _ _ i ≠ none ↔ _
  rw [Balancer.stepDeliver, if_neg hunended, hat, Option.bind_some]
  generalize (r.state m).stepParcel (r.state k).now ((r.state k).deadlineOf context) context.token p = stepped at hturning
  cases hturning with
  | unready phase _ => simp [phase]
  | lease phase _ _ => simp [phase]
  | call phase _ _ => simp [phase]
  | wait phase quiet => simp [phase, quiet]
  | decide _ verdict _ => simp [verdict.due]
  | closed ended =>
    rw [hover] at ended
    cases ended

/-- From its call on, an exporter is leased to the parcel until the end of the export. -/
theorem leased_until_freed {m i : Nat} {x : Deed} {items : Nat} (hdoes : r.Does (r.state n).nextTask i n m x)
    (hwhat : x.what = .exporting items) :
    ((∀ j, x.step < j → j ≤ m → (r.state j).leased? (.parcel (r.state n).nextTask i) = some x.exporter) ∧
      ∃ p since wake, ((r.state m).parcelsOf (r.state n).nextTask)[i]? = some p ∧ p.phase = .exporting x.exporter since wake) ∨
    ∃ y what, x.step < y ∧ y < m ∧
      (∀ j, x.step < j → j ≤ y → (r.state j).leased? (.parcel (r.state n).nextTask i) = some x.exporter) ∧
      what.endsExport = true ∧ r.Frees (r.state n).nextTask i y x.exporter [what] := by
  obtain ⟨hkx, ht⟩ := delivering_of_does hrequest hbegins hdoes
  obtain ⟨-, hxm, hmove, hsaid⟩ := hdoes
  obtain ⟨-, -, hcalled⟩ := calls_of_says ht hmove hsaid (by rw [hwhat]; rfl)
  have hleased : ∀ {m p since wake}, ((r.state m).parcelsOf (r.state n).nextTask)[i]? = some p →
      p.phase = .exporting x.exporter since wake → (r.state m).leased? (.parcel (r.state n).nextTask i) = some x.exporter := by
    intro m p since wake hp hphase
    rw [Balancer.leased?, hp, Option.bind_some, hphase]
    rfl
  induction m, hxm using Nat.le_induction with
  | base =>
    obtain ⟨p, since, wake, hp, hphase⟩ := hcalled items hwhat
    refine .inl ⟨fun j hj hle => ?_, p, since, wake, hp, hphase⟩
    obtain rfl : j = x.step + 1 := Nat.le_antisymm hle hj
    exact hleased hp hphase
  | succ m hxm ih =>
    rcases ih with ⟨hheld, p, since, wake, hp, hphase⟩ | ⟨y, what, hxy, hym, hheld, hends, hfrees⟩
    · obtain ⟨ht, hat⟩ := delivering_of_seen hrequest hbegins (Nat.lt_trans hkx hxm) hp
      rcases keeps_or_frees ht hat (by rw [hphase]; rfl) with ⟨p', hp', -, rfl | ⟨since', hphase'⟩⟩ | ⟨said, hclosing, hfrees⟩
      · refine .inl ⟨fun j hj hle => ?_, p', since, wake, hp', hphase⟩
        rcases Nat.lt_or_eq_of_le hle with hlt | rfl
        · exact hheld j hj (Nat.le_of_lt_succ hlt)
        · exact hleased hp' hphase
      · rw [hphase] at hphase'
        cases hphase'
      · rw [hphase] at hclosing
        cases hclosing with
        | ended ends => exact .inr ⟨m, _, hxm, Nat.lt_succ_self m, hheld, ends, hfrees⟩
    · exact .inr ⟨y, what, hxy, Nat.lt_succ_of_lt hym, hheld, hends, hfrees⟩

end Requested

/-- Whatever else happens in a run, the parcels of a dispatch are judged by what was there when they moved. -/
theorem judges_of_begins (r : Run α) {n k : Nat} {batch : Batch α} {context : DispatchContext}
    (hrequest : r.action n = .request (.dispatch batch context)) (hbegins : r.Begins (r.state n).nextTask batch context k) :
    r.Judges (r.state n).nextTask n k context where
  judged := by
    intro m i p hkm hp hlive
    obtain ⟨task, ht, hjudging⟩ := judging_of_lt hrequest hbegins hkm
    cases hjudging with
    | delivering judged => exact judged i p hp
    | ended judged _ => exact judged i p hp (hlive.resolve_right (fun h => h (Balancer.works_of_task? ht)))
  reported := by
    intro m result hkm houtcome
    obtain ⟨task, ht, hjudging⟩ := judging_of_lt hrequest hbegins hkm
    obtain rfl : task = ⟨[], .dispatched result⟩ := Option.some.inj (ht.symm.trans (task?_of_outcome? houtcome))
    cases hjudging with
    | ended _ reported => exact reported result rfl
  opens := fun _ _ _ => move_ne_none_iff hrequest hbegins
  uncalled := by
    intro j m i x hfired hdoes hcall
    obtain ⟨-, ht⟩ := delivering_of_does hrequest hbegins hdoes
    obtain ⟨-, -, hmove, hsaid⟩ := hdoes
    obtain ⟨hunfired, -, -⟩ := calls_of_says ht hmove hsaid hcall
    exact Nat.lt_of_not_le (fun hle => hunfired (fired_of_le hle hfired))
  leased := by
    intro m i id hkm hid
    obtain ⟨p, hp, hlease⟩ := Option.bind_eq_some_iff.1 hid
    obtain ⟨ht, hat⟩ := delivering_of_seen hrequest hbegins hkm hp
    constructor
    · obtain ⟨entry, he⟩ := (r.grounded m).made_of_mem (List.mem_of_getElem? hp) id hlease
      refine ⟨entry, he, ?_⟩
      rw [(r.balanced m).counts id entry he]
      exact Balancer.lent_pos_of_leased? hid
    · rcases keeps_or_frees ht hat hlease with ⟨p', hp', hlease', -⟩ | ⟨said, hclosing, hfrees⟩
      · exact .inl (Option.bind_eq_some_iff.2 ⟨p', hp', hlease'⟩)
      · exact .inr ⟨p, said, hp, hclosing, hfrees⟩
  freed := by
    intro m i x items hdoes hwhat
    exact (leased_until_freed hrequest hbegins hdoes hwhat).imp And.left id

/-- A run in which the exporter is done, the deadline is reached and the token fires before the parcel moves again. -/
def raced : Run Unit where
  options := ⟨⟨1, .ofSeconds 30, .ofSeconds 30⟩, none, none⟩
  adapter := ⟨.logs, fun _ _ => none⟩
  resolver := .new .fixed []
  backends := ⟨[]⟩
  action := fun n =>
    if n = 0 then .request (.update [⟨"a"⟩])
    else if n < 8 then .move 0 0
    else if n = 8 then .request (.dispatch oneItem ⟨some (Instant.ofTick 5), some "stop"⟩)
    else if n = 12 then .advance 5
    else if n = 13 then .cancel "stop"
    else .move 1 0

/-- All three are there in the step that ends the delivery, and the token counts. -/
theorem judges_of_begins_raced : (raced.state 14).Fired (some "stop") ∧ (raced.state 14).Expired (some (Instant.ofTick 5)) ∧
    (raced.state 14).now = 5 ∧ (raced.parcels 1 14).map Parcel.phase = [.exporting 0 0 0] ∧
    (raced.parcels 1 15).map Parcel.phase = [.failed .cancelled] ∧
    (raced.state 15).history 0 = [.created, .starting, .started, .exporting 1, .exportAbandoned] ∧
    raced.Judges (raced.state 8).nextTask 8 9 ⟨some (Instant.ofTick 5), some "stop"⟩ := by
  obtain ⟨htask, hfired, hnow, hwork, hover, hhistory⟩ : (raced.state 8).nextTask = 1 ∧
      "stop" ∈ (raced.state 14).cancelledTokens ∧ (raced.state 14).now = 5 ∧
      (raced.parcels 1 14).map Parcel.phase = [.exporting 0 0 0] ∧ (raced.parcels 1 15).map Parcel.phase = [.failed .cancelled] ∧
      (raced.state 15).history 0 = [.created, .starting, .started, .exporting 1, .exportAbandoned] := by decide +kernel
  have hrequest : raced.action 8 = .request (.dispatch oneItem ⟨some (Instant.ofTick 5), some "stop"⟩) := rfl
  have hbegins : raced.Begins (raced.state 8).nextTask oneItem ⟨some (Instant.ofTick 5), some "stop"⟩ 9 :=
    ⟨0, by rw [htask]; rfl, Balancer.works_of_task? (task?_of_request hrequest)⟩
  have hexpired : (raced.state 14).Expired (some (Instant.ofTick 5)) := ⟨Instant.ofTick 5, rfl, by rw [hnow]⟩
  exact ⟨⟨"stop", rfl, hfired⟩, hexpired, hnow, hwork, hover, hhistory, raced.judges_of_begins hrequest hbegins⟩

end Run

end TelemetryRouter
