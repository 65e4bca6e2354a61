import TelemetryRouter.Proofs.Leases
import TelemetryRouter.Proofs.Stages

/-!
# Holders of leases

A lease is held by a parcel of a delivery, or from outside. It is taken in one moment, while the exporter runs, and held until it is
given back. An exporter is called with a batch only through a lease, by the holder of it.
-/

namespace TelemetryRouter

variable {α : Type}

/-- Who may have a lease: a parcel of the delivery of a task, or somebody outside. -/
inductive Holder where
  | parcel (t : TaskId) (i : Nat)
  | outside (lease : LeaseId)

/-- The exporter of a lease held from outside, until it is given back. -/
def HeldLease.live? (l : HeldLease) : Option ExporterId := if l.returned then none else some l.exporter

namespace Balancer

/-- The parcels that a task delivers. -/
def parcelsOf (b : Balancer α) (t : TaskId) : List (Parcel α) :=
  match b.duty? t with
  | some (.deliver _ _ _ parcels) => parcels
  | _ => []

/-- The exporter that a holder has leased. -/
def leased? (b : Balancer α) : Holder → Option ExporterId
  | .parcel t i => ((b.parcelsOf t)[i]?).bind (fun p => p.phase.lease?)
  | .outside lease => (b.leases[lease]?).bind HeldLease.live?

/-- Whether an action is the step in which a holder exports through its lease. -/
def Exports (b : Balancer α) (a : Action α) : Holder → Prop
  | .parcel t i => a = .move t i
  | .outside lease => ∃ t way batch, a = .move t way ∧ b.duty? t = some (.exportLeased lease batch none)

/-- Whether an exporter is at work on a batch. -/
def InProgress (b : Balancer α) (id : ExporterId) : Prop :=
  (∃ t, ∃ p ∈ b.parcelsOf t, ∃ since wake, p.phase = .exporting id since wake) ∨
    ∃ t lease batch wake held, b.duty? t = some (.exportLeased lease batch (some wake)) ∧ b.leases[lease]? = some held ∧
      held.exporter = id

section Parcels

variable {b b' : Balancer α} {t : TaskId}

theorem parcelsOf_of_duty? {started : Nat} {deadline : Option Instant} {token : Option String} {parcels : List (Parcel α)}
    (h : b.duty? t = some (.deliver started deadline token parcels)) : b.parcelsOf t = parcels := by
  rw [parcelsOf, h]

theorem parcelsOf_eq_nil (h : ∀ started deadline token parcels, b.duty? t ≠ some (.deliver started deadline token parcels)) :
    b.parcelsOf t = [] := by
  unfold parcelsOf
  split
  · rename_i started deadline token parcels hd
    exact absurd hd (h started deadline token parcels)
  · rfl

theorem parcelsOf_congr (h : b'.duty? t = b.duty? t) : b'.parcelsOf t = b.parcelsOf t := by
  rw [parcelsOf, parcelsOf, h]

/-- A task with parcels has a delivery of them as its duty. -/
theorem duty?_of_mem_parcelsOf {p : Parcel α} (h : p ∈ b.parcelsOf t) :
    ∃ started deadline token, b.duty? t = some (.deliver started deadline token (b.parcelsOf t)) := by
  unfold parcelsOf at h ⊢
  split at h
  · rename_i started deadline token parcels hd
    exact ⟨started, deadline, token, hd⟩
  · cases h

end Parcels

/-! ## Live leases -/

section Live

variable {b : Balancer α}

/-- An exporter that somebody has leased has live leases. -/
theorem lent_pos_of_leased? {holder : Holder} {id : ExporterId} (h : b.leased? holder = some id) : 0 < b.lent id := by
  rw [lent]
  cases holder with
  | parcel t i =>
    obtain ⟨p, hp, hlease⟩ := Option.bind_eq_some_iff.1 h
    have hmem := List.mem_of_getElem? hp
    obtain ⟨started, deadline, token, hd⟩ := duty?_of_mem_parcelsOf hmem
    have hle := le_tally hd (Work.leased id)
    have hpos : 0 < leasedBy (b.parcelsOf t) id := List.countP_pos_iff.2 ⟨p, hmem, by rw [hlease]; exact beq_self_eq_true _⟩
    rw [Work.leased] at hle
    omega
  | outside lease =>
    obtain ⟨l, hl, hlive⟩ := Option.bind_eq_some_iff.1 h
    have hpos : 0 < heldOf b.leases id := by
      refine List.countP_pos_iff.2 ⟨l, List.mem_of_getElem? hl, ?_⟩
      unfold HeldLease.live? at hlive
      split at hlive
      · cases hlive
      · rename_i hreturned
        simp [hreturned, Option.some.inj hlive]
    omega

/-- Whoever exports through a lease held from outside holds it. -/
theorem Balanced.leased?_of_duty? (hb : b.Balanced) {t : TaskId} {lease : LeaseId} {batch : Batch α} {wake : Option Nat}
    (hd : b.duty? t = some (.exportLeased lease batch wake)) {held : HeldLease} (hheld : b.leases[lease]? = some held) :
    b.leased? (.outside lease) = some held.exporter := by
  rw [leased?, hheld, Option.bind_some, HeldLease.live?, hb.not_returned hd hheld]
  rfl

theorem Balanced.leased_of_inProgress (hb : b.Balanced) {id : ExporterId} (h : b.InProgress id) :
    ∃ holder, b.leased? holder = some id := by
  rcases h with ⟨t, p, hp, since, wake, hphase⟩ | ⟨t, lease, batch, wake, held, hd, hheld, rfl⟩
  · obtain ⟨i, hi⟩ := List.getElem?_of_mem hp
    refine ⟨.parcel t i, ?_⟩
    rw [leased?, hi, Option.bind_some, hphase]
    rfl
  · exact ⟨.outside lease, hb.leased?_of_duty? hd hheld⟩

end Live

/-! ## Taking leases -/

/-- Every lease that is held was held before. -/
def Untaken (b b' : Balancer α) : Prop := ∀ holder id, b'.leased? holder = some id → b.leased? holder = some id

section Taking

variable {b b' b'' : Balancer α}

theorem Untaken.trans (h : Untaken b b') (h' : Untaken b' b'') : Untaken b b'' := fun holder id hid => h holder id (h' holder id hid)

/-- No task has other parcels than before, but maybe none, and no lease held from outside is another's. -/
theorem untaken_of_parcels (hparcels : ∀ t, b'.parcelsOf t = b.parcelsOf t ∨ b'.parcelsOf t = [])
    (hleases : ∀ lease id, b'.leased? (.outside lease) = some id → b.leased? (.outside lease) = some id) : Untaken b b' := by
  intro holder id hid
  cases holder with
  | parcel t i =>
    rw [leased?] at hid ⊢
    rcases hparcels t with h | h <;> rw [h] at hid
    · exact hid
    · cases hid
  | outside lease => exact hleases lease id hid

theorem untaken_of_eq (hduty : ∀ t, b'.duty? t = b.duty? t) (hleases : b'.leases = b.leases) : Untaken b b' :=
  untaken_of_parcels (fun t => .inl (parcelsOf_congr (hduty t))) (fun lease id hid => by
    rw [leased?, hleases] at hid
    exact hid)

/-- A task goes on to other works without a delivery, and the leases held from outside are as before. -/
theorem untaken_of_reworks {t : TaskId} {ws : List (Work α)} (hr : Reworks b b' t ws)
    (hd : ∀ started deadline token parcels, b'.duty? t ≠ some (.deliver started deadline token parcels))
    (hleases : b'.leases = b.leases) : Untaken b b' := by
  refine untaken_of_parcels (fun t' => ?_) (fun lease id hid => by
    rw [leased?, hleases] at hid
    exact hid)
  by_cases hne : t' = t
  · exact .inr (hne ▸ parcelsOf_eq_nil hd)
  · exact .inl (parcelsOf_congr (hr.duty?_of_ne hne))

theorem live?_settle {l : HeldLease} {id : ExporterId} (h : l.settle.live? = some id) : l.live? = some id := by
  unfold HeldLease.settle at h
  split at h
  · cases h
  · exact h

/-- Settling other leases makes nobody hold one, if they were held before. -/
theorem untaken_of_resettles {leases : List HeldLease} (h : Resettles b b' leases)
    (hlive : ∀ (lease : LeaseId) (l : HeldLease), leases[lease]? = some l →
      ∃ l₀ : HeldLease, b.leases[lease]? = some l₀ ∧ l.live? = l₀.live?) : Untaken b b' := by
  refine untaken_of_parcels (fun t => .inl (parcelsOf_congr (duty?_congr (works_congr h.tasks t)))) (fun lease id hid => ?_)
  rw [leased?, h.leases, List.getElem?_map] at hid
  obtain ⟨l', hl', hid⟩ := Option.bind_eq_some_iff.1 hid
  obtain ⟨l, hl, rfl⟩ := Option.map_eq_some_iff.1 hl'
  obtain ⟨l₀, hl₀, heq⟩ := hlive lease l hl
  rw [leased?, hl₀, Option.bind_some, ← heq]
  exact live?_settle hid

/-- Another number of exports through a lease makes nobody hold one. -/
theorem untaken_useLease (b : Balancer α) (lease : LeaseId) (f : Nat → Nat) : Untaken b (b.useLease lease f) :=
  untaken_of_resettles (resettles_useLease b lease f) (fun x l hl => by
    rw [getElem?_usesOf] at hl
    obtain ⟨l₀, hl₀, rfl⟩ := Option.map_eq_some_iff.1 hl
    refine ⟨l₀, hl₀, ?_⟩
    split <;> rfl)

/-- Dropping the lease under a name makes nobody hold one. -/
theorem untaken_dropName (b : Balancer α) (name : String) : Untaken b (b.dropName name) :=
  untaken_of_resettles (resettles_dropName b name) (fun x l hl => by
    rw [unnamed, List.getElem?_map] at hl
    obtain ⟨l₀, hl₀, rfl⟩ := Option.map_eq_some_iff.1 hl
    refine ⟨l₀, hl₀, ?_⟩
    split <;> rfl)

theorem untaken_of_undisturbed (h : Undisturbed b b') : Untaken b b' := by
  intro holder id hid
  cases holder with
  | parcel t i =>
    rcases h.duty t with hd | ⟨_, w, hw, hfresh⟩
    · rw [leased?, parcelsOf_congr hd] at hid
      exact hid
    · obtain ⟨p, hp, hlease⟩ := Option.bind_eq_some_iff.1 hid
      have hmem := List.mem_of_getElem? hp
      obtain ⟨started, deadline, token, hd⟩ := duty?_of_mem_parcelsOf hmem
      rw [hw] at hd
      injection hd with hd
      rw [hd] at hfresh
      rw [hfresh p hmem] at hlease
      cases hlease
  | outside lease =>
    have hleases : b'.leases = b.leases := congrArg Core.leases h.core
    rw [leased?, hleases] at hid
    exact hid

theorem PassStep.untaken {t : TaskId} {rest : List (Work α)} {p : Pass} (hw : b.works t = .pass p :: rest)
    (hrest : ∀ w ∈ rest, w.isInert = true) (h : PassStep b t rest p b') : Untaken b b' := by
  have ht := lt_of_works hw
  have hgo : ∀ {c : Balancer α} {p' : Pass}, c.tasks = b.tasks → c.leases = b.leases →
      Untaken b (c.withWorks t (.pass p' :: rest)) := fun {c p'} hts hleases => by
    have hr : Reworks b (c.withWorks t (.pass p' :: rest)) t (.pass p' :: rest) := reworks_withWorks ht hts
    refine untaken_of_reworks hr (fun _ _ _ _ hd => ?_) hleases
    rw [hr.duty?_cons rfl] at hd
    cases hd
  cases h with
  | enter _ _ _ _ => exact hgo rfl rfl
  | attempt _ _ _ frame _ => exact hgo frame.tasks frame.leases
  | publish _ _ => exact hgo rfl rfl
  | retire _ _ _ frame _ _ => exact hgo frame.tasks frame.leases
  | @conclude added failed retirements _ _ =>
    have hr := reworks_concludePass ht rest (b.passOutcome added failed retirements)
    obtain ⟨metrics, heq⟩ := concludePass_eq b t rest (b.passOutcome added failed retirements)
    refine untaken_of_reworks hr (fun _ _ _ _ hd => ?_) (by rw [heq]; rfl)
    rw [hr.duty?_inert hrest] at hd
    cases hd

theorem ParcelStep.lease_taken {e : Endpoint} {batch : Batch α} {cut : Option RouterError} {phase phase' : ParcelPhase}
    (h : ParcelStep b e batch cut phase b' phase') {id : ExporterId} (hid : phase'.lease? = some id) :
    phase.lease? = some id ∨ ∃ entry, b.pool.entry? id = some entry ∧ entry.state = .running := by
  cases h with
  | lease _ running touches _ =>
    injection hid with hid
    exact .inr ⟨_, hid ▸ touches.before, running⟩
  | call _ _ _ => exact .inl hid
  | _ => cases hid

/-- A step of a delivery takes a lease only of a running exporter. -/
theorem DeliverStep.lease_taken {t : TaskId} {rest : List (Work α)} {started : Nat} {deadline : Option Instant}
    {token : Option String} {parcels : List (Parcel α)} {way : Nat}
    (hw : b.works t = .deliver started deadline token parcels :: rest) (hrest : ∀ w ∈ rest, w.isInert = true)
    (h : DeliverStep b t rest started deadline token parcels way b') {holder : Holder} {id : ExporterId}
    (hid : b'.leased? holder = some id) :
    b.leased? holder = some id ∨ ∃ entry, b.pool.entry? id = some entry ∧ entry.state = .running := by
  have ht := lt_of_works hw
  have hd := duty?_of_works hw rfl
  cases h with
  | @parcel p p' c at_way _ _ frame step =>
    have hr : Reworks b (c.withWorks t (.deliver started deadline token (parcels.set way p') :: rest)) t _ :=
      reworks_withWorks ht frame.tasks
    cases holder with
    | outside lease =>
      have hleases : (c.withWorks t (.deliver started deadline token (parcels.set way p') :: rest)).leases = b.leases :=
        frame.leases
      rw [leased?, hleases] at hid
      exact .inl hid
    | parcel t' i =>
      by_cases hne : t' = t
      · subst hne
        rw [leased?, parcelsOf_of_duty? (hr.duty?_cons rfl)] at hid
        rw [leased?, parcelsOf_of_duty? hd]
        obtain ⟨q, hq, hlease⟩ := Option.bind_eq_some_iff.1 hid
        by_cases hi : way = i
        · subst hi
          rw [List.getElem?_set_self (List.getElem?_eq_some_iff.1 at_way).1] at hq
          injection hq with hq
          subst hq
          rcases step.lease_taken hlease with hbefore | hrunning
          · exact .inl (by rw [at_way]; exact hbefore)
          · exact .inr hrunning
        · rw [List.getElem?_set_ne hi] at hq
          exact .inl (by rw [hq]; exact hlease)
      · rw [leased?, parcelsOf_congr (hr.duty?_of_ne hne)] at hid
        exact .inl hid
  | finish _ =>
    have hr : Reworks b (b.finish t rest (.dispatched (Parcel.result parcels))) t rest := reworks_finish ht rfl
    refine .inl (untaken_of_reworks hr (fun _ _ _ _ hd' => ?_) rfl holder id hid)
    rw [hr.duty?_inert hrest] at hd'
    cases hd'

/-- A step of an export through a lease held from outside takes no lease. -/
theorem ExportStep.untaken {t : TaskId} {rest : List (Work α)} {lease : LeaseId} {batch : Batch α} {held : HeldLease}
    {entry : Entry} {wake : Option Nat} (hw : b.works t = .exportLeased lease batch wake :: rest)
    (hrest : ∀ w ∈ rest, w.isInert = true) (h : ExportStep b t rest lease batch held entry wake b') : Untaken b b' := by
  have ht := lt_of_works hw
  have hend : ∀ {c : Balancer α} {outcome : Outcome α}, Frame b c →
      Untaken b ((c.useLease lease (· - 1)).finish t rest outcome) := fun {c outcome} hframe => by
    have hc : Untaken b c := untaken_of_eq (fun t => duty?_congr (works_congr hframe.tasks t)) hframe.leases
    have hlt : t < (c.useLease lease (· - 1)).tasks.length := by
      rw [(resettles_useLease c lease (· - 1)).tasks, hframe.tasks]
      exact ht
    have hr : Reworks (c.useLease lease (· - 1)) ((c.useLease lease (· - 1)).finish t rest outcome) t rest :=
      reworks_finish hlt rfl
    refine (hc.trans (untaken_useLease c lease (· - 1))).trans (untaken_of_reworks hr (fun _ _ _ _ hd => ?_) rfl)
    rw [hr.duty?_inert hrest] at hd
    cases hd
  cases h with
  | refuse frame _ _ => exact hend frame
  | finish frame _ _ _ => exact hend frame
  | @call c wake frame _ _ =>
    have hr : Reworks b (c.withWorks t (.exportLeased lease batch (some wake) :: rest)) t _ := reworks_withWorks ht frame.tasks
    refine untaken_of_reworks hr (fun _ _ _ _ hd => ?_) frame.leases
    rw [hr.duty?_cons rfl] at hd
    cases hd

/-- The request of an export through a lease takes no lease. -/
theorem untaken_requestExport (b : Balancer α) (lease : LeaseId) (batch : Batch α) :
    Untaken b (b.request (.exportLeased lease batch)).1 := by
  let c := (b.spawn []).withWorks b.nextTask [.exportLeased lease batch none]
  have hr : Reworks (b.spawn []) c b.nextTask [.exportLeased lease batch none] := reworks_withWorks (nextTask_lt_spawn b) rfl
  have hc : Untaken (b.spawn []) c := by
    refine untaken_of_reworks hr (fun _ _ _ _ hd => ?_) rfl
    rw [hr.duty?_cons rfl] at hd
    cases hd
  exact ((untaken_of_undisturbed (undisturbed_spawn_nil b)).trans hc).trans (untaken_useLease c lease (· + 1))

/-- Taking a lease under a name takes the lease of a running exporter, and no other. -/
theorem lease_taken_of_leaseAs {e : Endpoint} {name : String} (h : b.leaseAs e name = .ok b') {holder : Holder}
    {id : ExporterId} (hid : b'.leased? holder = some id) :
    b.leased? holder = some id ∨ ∃ entry, b.pool.entry? id = some entry ∧ entry.state = .running := by
  obtain ⟨x, entry, c, d, _, hrunning, hframe, _, htouches, hresettles, rfl⟩ := leaseAs_spec h
  have hc : Untaken b c := untaken_of_eq (fun t => duty?_congr (works_congr hframe.tasks t)) hframe.leases
  have hd : Untaken c d := by
    rw [← hframe.leases] at hresettles
    refine untaken_of_resettles hresettles (fun i l hl => ?_)
    rw [unnamed, List.getElem?_map] at hl
    obtain ⟨l₀, hl₀, rfl⟩ := Option.map_eq_some_iff.1 hl
    refine ⟨l₀, hl₀, ?_⟩
    split <;> rfl
  cases holder with
  | parcel t i => exact .inl (hc _ _ (hd (.parcel t i) id hid))
  | outside lease =>
    rw [leased?] at hid
    by_cases hlt : lease < d.leases.length
    · rw [List.getElem?_append_left hlt] at hid
      exact .inl (hc _ _ (hd (.outside lease) id hid))
    · rw [List.getElem?_append_right (Nat.le_of_not_lt hlt)] at hid
      obtain ⟨l, hl, hlive⟩ := Option.bind_eq_some_iff.1 hid
      rw [List.mem_singleton.1 (List.mem_of_getElem? hl)] at hlive
      injection hlive with hlive
      exact .inr ⟨entry, hlive ▸ htouches.before, hrunning⟩

theorem untaken_abandon (hb : b.Grounded) {t : TaskId} {w : Work α} (hd : b.duty? t = some w) :
    Untaken b ((dropWork t b w).withWorks t []) := by
  obtain ⟨rest, hworks, hduty⟩ := works_of_duty? hd
  have hdrop : ∀ {c : Balancer α}, c.tasks = b.tasks → Untaken b c → Untaken b (c.withWorks t []) := fun {c} hts hc => by
    have hr : Reworks c (c.withWorks t []) t [] := reworks_withWorks (by rw [hts]; exact lt_of_works hworks) rfl
    refine hc.trans (untaken_of_reworks hr (fun _ _ _ _ hd' => ?_) rfl)
    rw [hr.duty?_inert (fun w hw => nomatch hw)] at hd'
    cases hd'
  cases w with
  | pass p => exact hdrop rfl (untaken_of_eq (fun _ => rfl) rfl)
  | deliver started deadline token parcels =>
    have hframe := (hb.dropWork_deliver hd).1
    exact hdrop hframe.tasks (untaken_of_eq (fun t => duty?_congr (works_congr hframe.tasks t)) hframe.leases)
  | exportLeased lease batch wake =>
    obtain ⟨c, heq, hframe, _⟩ := hb.dropWork_exportLeased t lease batch wake
    have hc : Untaken b c := untaken_of_eq (fun t => duty?_congr (works_congr hframe.tasks t)) hframe.leases
    rw [heq]
    exact hdrop ((resettles_useLease c lease (· - 1)).tasks.trans hframe.tasks) (hc.trans (untaken_useLease c lease (· - 1)))
  | _ => cases hduty

/-- Whoever holds a lease after a change held it before, or has taken it from a running exporter. -/
theorem Change.lease_taken (hb : b.Grounded) {a : Action α} (h : Change b a b') {holder : Holder} {id : ExporterId}
    (hid : b'.leased? holder = some id) :
    b.leased? holder = some id ∨ ∃ entry, b.pool.entry? id = some entry ∧ entry.state = .running := by
  cases h with
  | calm undisturbed => exact .inl (untaken_of_undisturbed undisturbed holder id hid)
  | advance => exact .inl (untaken_of_eq (fun _ => rfl) rfl holder id hid)
  | pass works inert step =>
    exact .inl ((stepPass_cases (hb.duties _ _ (duty?_of_works works rfl)) step).untaken works inert holder id hid)
  | deliver works inert step =>
    exact (stepDeliver_cases (hb.duties _ _ (duty?_of_works works rfl)) step).lease_taken works inert hid
  | exportLeased works inert step =>
    obtain ⟨held, entry, _, _, hstep⟩ := stepExportLeased_cases hb step
    exact .inl (hstep.untaken works inert holder id hid)
  | use _ => exact .inl (untaken_requestExport b _ _ holder id hid)
  | lease taken => exact lease_taken_of_leaseAs taken hid
  | dropLease => exact .inl (untaken_dropName b _ holder id hid)
  | notify => exact .inl (untaken_of_eq (fun _ => rfl) rfl holder id hid)
  | abandon works duty undisturbed =>
    exact .inl (((untaken_abandon hb (duty?_of_works works duty)).trans (untaken_of_undisturbed undisturbed)) holder id hid)

end Taking

/-! ## Calling exporters -/

/-- The history of an exporter gets no call of an export. -/
def Uncalled (b b' : Balancer α) (id : ExporterId) : Prop :=
  ∃ said, b'.history id = b.history id ++ said ∧ ∀ what ∈ said, what.isExportCall = false

section Calling

variable {b b' b'' : Balancer α} {id : ExporterId}

theorem uncalled_of_eq (h : b'.history id = b.history id) : Uncalled b b' id := SaysOnly.of_eq h

theorem Uncalled.trans (h : Uncalled b b' id) (h' : Uncalled b' b'' id) : Uncalled b b'' id := SaysOnly.trans h h'

theorem uncalled_of_touches {x : ExporterId} {old new : Entry} {said : List Occurrence} (h : Touches b b' x old new said)
    (hsaid : ∀ what ∈ said, what.isExportCall = false) : Uncalled b b' id :=
  SaysOnly.of_touches h hsaid

theorem uncalled_of_relieves {given : ExporterId → Nat} (h : Relieves b b' given) : Uncalled b b' id :=
  SaysOnly.mono (h.history id) (fun _ hwhat => by rw [hwhat]; rfl)

theorem PassStep.uncalled {t : TaskId} {rest : List (Work α)} {p : Pass} (h : PassStep b t rest p b') : Uncalled b b' id := by
  have hpool : ∀ {c : Balancer α} {p' : Pass}, Uncalled b c id → Uncalled b (c.withWorks t (.pass p' :: rest)) id :=
    fun hc => hc.trans (uncalled_of_eq rfl)
  cases h with
  | enter _ _ _ _ => exact uncalled_of_eq rfl
  | attempt _ _ _ _ step =>
    refine hpool ?_
    generalize Attempt.phase _ = phase at step
    generalize Attempt.phase _ = phase' at step
    cases step with
    | call same => exact uncalled_of_eq (same.history id)
    | refuse same => exact uncalled_of_eq (same.history id)
    | make _ _ history histories =>
      by_cases hid : id = b.pool.nextId
      · subst hid
        refine ⟨_, history, fun what hwhat => ?_⟩
        simp only [List.mem_cons, List.not_mem_nil, or_false] at hwhat
        rcases hwhat with rfl | rfl <;> rfl
      · exact uncalled_of_eq (histories id hid)
    | run touches _ => exact uncalled_of_touches touches (List.forall_mem_singleton.2 rfl)
    | stumble touches _ => exact uncalled_of_touches touches (List.forall_mem_singleton.2 rfl)
  | publish _ _ => exact uncalled_of_eq rfl
  | retire _ _ _ _ _ step =>
    refine hpool ?_
    generalize Retirement.phase _ = phase at step
    generalize Retirement.phase _ = phase' at step
    cases step with
    | mark touches _ => exact uncalled_of_touches touches (List.forall_mem_nil _)
    | drain _ _ touches _ => exact uncalled_of_touches touches (List.forall_mem_nil _)
    | close _ touches _ => exact uncalled_of_touches touches (List.forall_mem_singleton.2 rfl)
    | giveUp _ _ touches _ => exact uncalled_of_touches touches (List.forall_mem_singleton.2 rfl)
    | leave what_eq touches _ =>
      exact uncalled_of_touches touches (List.forall_mem_singleton.2 (by rcases what_eq with rfl | rfl <;> rfl))
  | @conclude added failed retirements _ _ =>
    obtain ⟨metrics, heq⟩ := concludePass_eq b t rest (b.passOutcome added failed retirements)
    rw [heq]
    exact uncalled_of_eq rfl

/-- A step of a parcel calls the exporter that it has leased, if any. -/
theorem ParcelStep.calls {e : Endpoint} {batch : Batch α} {cut : Option RouterError} {phase phase' : ParcelPhase}
    (h : ParcelStep b e batch cut phase b' phase') (id : ExporterId) : Uncalled b b' id ∨ phase.lease? = some id := by
  have hcall : ∀ {x : ExporterId} {old new : Entry} {said : List Occurrence}, Touches b b' x old new said →
      Uncalled b b' id ∨ some x = some id := fun {x} _ _ _ touches => by
    by_cases hid : id = x
    · exact .inr (congrArg some hid.symm)
    · exact .inl (uncalled_of_eq (touches.histories id hid))
  cases h with
  | unready _ => exact .inl (uncalled_of_eq rfl)
  | lease _ _ touches _ => exact .inl (uncalled_of_touches touches (List.forall_mem_nil _))
  | cutEarly _ touches _ => exact .inl (uncalled_of_touches touches (List.forall_mem_nil _))
  | refuse _ touches _ => exact hcall touches
  | call _ touches _ => exact hcall touches
  | cutLate _ touches _ => exact .inl (uncalled_of_touches touches (List.forall_mem_singleton.2 rfl))
  | arrive _ _ _ touches _ _ => exact .inl (uncalled_of_touches touches (List.forall_mem_singleton.2 rfl))
  | reject _ _ _ touches _ => exact .inl (uncalled_of_touches touches (List.forall_mem_singleton.2 rfl))

/-- A step of an export through a lease held from outside calls the exporter of the lease, if any. -/
theorem ExportStep.calls {t : TaskId} {rest : List (Work α)} {lease : LeaseId} {batch : Batch α} {held : HeldLease}
    {entry : Entry} {wake : Option Nat} (h : ExportStep b t rest lease batch held entry wake b') (id : ExporterId) :
    Uncalled b b' id ∨ (held.exporter = id ∧ wake = none) := by
  by_cases hid : id = held.exporter
  · cases h with
    | refuse _ _ _ => exact .inr ⟨hid.symm, rfl⟩
    | call _ _ _ => exact .inr ⟨hid.symm, rfl⟩
    | @finish c wake what outcome _ _ what_eq touches =>
      have hwhat : what.isExportCall = false := by rcases what_eq with rfl | rfl <;> rfl
      have hc : Uncalled b c id := uncalled_of_touches touches (List.forall_mem_singleton.2 hwhat)
      exact .inl ((hc.trans (uncalled_of_relieves (resettles_useLease c lease (· - 1)).relieves)).trans (uncalled_of_eq rfl))
  · have hend : ∀ {c : Balancer α} {outcome : Outcome α}, c.history id = b.history id →
        Uncalled b ((c.useLease lease (· - 1)).finish t rest outcome) id := fun {c outcome} hc =>
      ((uncalled_of_eq hc).trans (uncalled_of_relieves (resettles_useLease c lease (· - 1)).relieves)).trans (uncalled_of_eq rfl)
    cases h with
    | refuse _ _ touches => exact .inl (hend (touches.histories id hid))
    | call _ _ touches => exact .inl ((uncalled_of_eq (touches.histories id hid)).trans (uncalled_of_eq rfl))
    | finish _ _ _ touches => exact .inl (hend (touches.histories id hid))

theorem uncalled_dropWork (hb : b.Grounded) {t : TaskId} {w : Work α} (hd : b.duty? t = some w) :
    Uncalled b (dropWork t b w) id := by
  cases w with
  | deliver started deadline token parcels => exact uncalled_of_relieves (hb.dropWork_deliver hd).2
  | exportLeased lease batch wake =>
    obtain ⟨c, heq, _, hrelieves⟩ := hb.dropWork_exportLeased t lease batch wake
    have hc : Uncalled b c id := uncalled_of_relieves hrelieves
    rw [heq]
    exact hc.trans (uncalled_of_relieves (resettles_useLease c lease (· - 1)).relieves)
  | resolution phase => cases phase <;> exact uncalled_of_eq rfl
  | _ => exact uncalled_of_eq rfl

/-- An export is called only in a step of a holder of a lease of the exporter. -/
theorem Change.calls (hb : b.Grounded) (hl : b.Balanced) {a : Action α} (h : Change b a b') (id : ExporterId) :
    Uncalled b b' id ∨ ∃ holder, b.leased? holder = some id ∧ b.Exports a holder := by
  cases h with
  | calm undisturbed => exact .inl (uncalled_of_eq (history_congr (congrArg Core.events undisturbed.core) id))
  | advance => exact .inl (uncalled_of_eq rfl)
  | pass works _ step => exact .inl (stepPass_cases (hb.duties _ _ (duty?_of_works works rfl)) step).uncalled
  | @deliver t way started deadline token parcels rest _ works inert step =>
    have hd := duty?_of_works works rfl
    cases stepDeliver_cases (hb.duties _ _ hd) step with
    | @parcel p p' c at_way _ _ _ hparcel =>
      rcases hparcel.calls id with hc | hlease
      · exact .inl (hc.trans (uncalled_of_eq rfl))
      · refine .inr ⟨.parcel t way, ?_, rfl⟩
        rw [leased?, parcelsOf_of_duty? hd, at_way]
        exact hlease
    | finish _ => exact .inl (uncalled_of_eq rfl)
  | @exportLeased t way lease batch wake rest _ works inert step =>
    obtain ⟨held, entry, hheld, _, hstep⟩ := stepExportLeased_cases hb step
    rcases hstep.calls id with hc | ⟨rfl, rfl⟩
    · exact .inl hc
    · have hd := duty?_of_works works rfl
      exact .inr ⟨.outside lease, hl.leased?_of_duty? hd hheld, t, way, batch, rfl, hd⟩
  | @use lease batch _ =>
    let c := (b.spawn []).withWorks b.nextTask [.exportLeased lease batch none]
    have hc : Uncalled b c id := uncalled_of_eq rfl
    exact .inl (hc.trans (uncalled_of_relieves (resettles_useLease c lease (· + 1)).relieves))
  | lease taken =>
    obtain ⟨_, _, c, d, _, _, _, _, htouches, hresettles, rfl⟩ := leaseAs_spec taken
    have hc : Uncalled b c id := uncalled_of_touches htouches (fun _ h => nomatch h)
    exact .inl ((hc.trans (uncalled_of_relieves hresettles.relieves)).trans (uncalled_of_eq rfl))
  | dropLease => exact .inl (uncalled_of_relieves (resettles_dropName b _).relieves)
  | notify => exact .inl (uncalled_of_eq rfl)
  | abandon works duty undisturbed =>
    have hdrop : Uncalled b (dropWork _ b _) id := uncalled_dropWork hb (duty?_of_works works duty)
    have hlast := history_congr (congrArg Core.events undisturbed.core) id
    exact .inl (hdrop.trans (uncalled_of_eq (hlast.trans rfl)))

end Calling

end Balancer

end TelemetryRouter
