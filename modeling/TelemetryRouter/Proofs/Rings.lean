import Mathlib.Algebra.GroupWithZero.Nat
import TelemetryRouter.Proofs.Bystanders
import TelemetryRouter.Proofs.Choices

/-!
# The published ring

A ring reaches the balancer only through a pass that was made with the ring of a list, so the published ring is the ring of a list in
every state. On such a ring a key has an owner unless the list is empty. Cutting a batch by it therefore needs the owner of the empty
key only to find out whether there is any owner: every item goes to the owner of its own key.
-/

namespace TelemetryRouter

variable {α : Type}

/-! ## Owners on the ring of a list -/

theorem Ring.endpoints_build_eq_nil_iff (es : List Endpoint) (n : Nat) : (Ring.build es n).endpoints = [] ↔ es = [] := by
  have hendpoints : (Ring.build es n).endpoints = Endpoint.normalize es := rfl
  rw [hendpoints, List.eq_nil_iff_forall_not_mem, List.eq_nil_iff_forall_not_mem]
  simp only [Endpoint.mem_normalize]

/-- On the ring of a list a key has no owner exactly when there are no members. -/
theorem Ring.IsBuilt.owner_eq_none_iff {ring : Ring} (h : ring.IsBuilt) (key : RoutingKey) :
    ring.owner key = none ↔ ring.endpoints = [] := by
  obtain ⟨es, n, rfl⟩ := h
  rw [Ring.endpoints_build_eq_nil_iff, ← Ring.positions_eq_nil_iff Sha256.position es n]
  exact Ring.ownerAt_eq_none_iff _ _

/-! ## Cutting a batch by the ring of a list -/

namespace Adapter

/-- A batch is not cut exactly when the ring has no members. -/
theorem regroupOn_eq_none_iff (a : Adapter α) {ring : Ring} (h : ring.IsBuilt) (batch : Batch α) :
    a.regroupOn ring batch = none ↔ ring.endpoints = [] := by
  unfold regroupOn regroupOnWith
  rw [Option.map_eq_none_iff]
  exact h.owner_eq_none_iff RoutingKey.empty

theorem regroupOn_eq_partsBy (a : Adapter α) {ring : Ring} (h : ring.IsBuilt) (hmembers : ring.endpoints ≠ []) (batch : Batch α) :
    a.regroupOn ring batch = some (batch.partsBy (a.ownerWith Sha256.position ring)) := by
  obtain ⟨es, n, rfl⟩ := h
  exact a.regroupOnWith_eq_partsBy Sha256.position (mt (Ring.endpoints_build_eq_nil_iff es n).2 hmembers) n batch

/-- A batch is cut into the parts of the owners of its items, in the order of their first items. -/
theorem regroupOn_eq_parts (a : Adapter α) {ring : Ring} (h : ring.IsBuilt) {batch : Batch α} {groups : List (Endpoint × Batch α)}
    (hgroups : a.regroupOn ring batch = some groups) :
    ∃ owners : List Endpoint, batch.items.map (fun x => ring.owner (a.keyOrEmpty x.1 x.2.2)) = owners.map some ∧
      groups = owners.eraseDups.map (fun e => (e, (batch.answered owners).part e)) := by
  have hmembers : ring.endpoints ≠ [] := by
    intro hnil
    rw [(a.regroupOn_eq_none_iff h batch).2 hnil] at hgroups
    cases hgroups
  rw [a.regroupOn_eq_partsBy h hmembers] at hgroups
  refine ⟨batch.choices (a.ownerWith Sha256.position ring), ?_, (Option.some.inj hgroups).symm⟩
  rw [Batch.choices, List.map_map]
  refine List.map_congr_left (fun x _ => ?_)
  obtain ⟨e, he⟩ := Option.ne_none_iff_exists'.1 (mt (h.owner_eq_none_iff (a.keyOrEmpty x.1 x.2.2)).1 hmembers)
  show ring.owner (a.keyOrEmpty x.1 x.2.2) = some ((ring.owner (a.keyOrEmpty x.1 x.2.2)).getD default)
  rw [he, Option.getD_some]

end Adapter

/-- The parts of a batch together have as many items as the batch. -/
theorem Batch.sum_itemCount_parts (b : Batch α) {es : List Endpoint} (h : es.length = b.items.length) :
    (es.eraseDups.map (fun e => ((b.answered es).part e).itemCount)).sum = b.itemCount := by
  have hperm := (b.perm_items_parts h).length_eq
  rw [List.length_flatMap] at hperm
  simpa only [Batch.itemCount_eq_length_items] using hperm

namespace Balancer

/-! ## Rings on their way -/

section Rings

variable {b b' b'' : Balancer α}

/-- The published ring is as before, and every pass was there or is fresh. -/
structure SameRings (b b' : Balancer α) : Prop where
  ring : b'.ring = b.ring
  passes : ∀ (t : TaskId) (p : Pass), b'.duty? t = some (.pass p) → b.duty? t = some (.pass p) ∨ p.IsFresh

namespace SameRings

theorem trans (h : SameRings b b') (h' : SameRings b' b'') : SameRings b b'' where
  ring := h'.ring.trans h.ring
  passes := fun t p hd => by
    rcases h'.passes t p hd with hd | hfresh
    · exact h.passes t p hd
    · exact .inr hfresh

theorem of_tasks (hring : b'.ring = b.ring) (hts : b'.tasks = b.tasks) : SameRings b b' :=
  ⟨hring, fun t p hd => .inl (by rw [← hd, duty?_congr (works_congr hts t)])⟩

/-- A task goes on to other works, of which the first is no pass. -/
theorem of_reworks {t : TaskId} {ws : List (Work α)} (hring : b'.ring = b.ring) (hr : Reworks b b' t ws)
    (hd : ∀ p, b'.duty? t ≠ some (.pass p)) : SameRings b b' where
  ring := hring
  passes := by
    intro t' p hp
    by_cases hne : t' = t
    · exact absurd (hne ▸ hp) (hd p)
    · exact .inl (by rw [← hp, hr.duty?_of_ne hne])

theorem of_inert {t : TaskId} {ws : List (Work α)} (hring : b'.ring = b.ring) (hr : Reworks b b' t ws)
    (hws : ∀ w ∈ ws, w.isInert = true) : SameRings b b' :=
  .of_reworks hring hr (fun p hp => by
    rw [hr.duty?_inert hws] at hp
    cases hp)

theorem of_undisturbed (h : Undisturbed b b') : SameRings b b' where
  ring := congrArg Core.ring h.core
  passes := by
    intro t p hp
    rcases h.duty t with hd | ⟨_, w, hw, hfresh⟩
    · exact .inl (hd ▸ hp)
    · rw [hw] at hp
      injection hp with hp
      subst hp
      exact .inr hfresh

end SameRings

theorem DeliverStep.sameRings {t : TaskId} {rest : List (Work α)} {started : Nat} {deadline : Option Instant}
    {token : Option String} {parcels : List (Parcel α)} {way : Nat}
    (hw : b.works t = .deliver started deadline token parcels :: rest) (hrest : ∀ w ∈ rest, w.isInert = true)
    (h : DeliverStep b t rest started deadline token parcels way b') : SameRings b b' := by
  have ht := lt_of_works hw
  cases h with
  | @parcel p p' c _ _ _ frame _ =>
    have hr : Reworks b (c.withWorks t (.deliver started deadline token (parcels.set way p') :: rest)) t _ :=
      reworks_withWorks ht frame.tasks
    refine .of_reworks frame.ring hr (fun q hq => ?_)
    rw [hr.duty?_cons rfl] at hq
    cases hq
  | finish _ =>
    exact .of_inert rfl (reworks_finish ht rfl) hrest

/-- A step of an export through a lease held from outside brings no ring. -/
theorem ExportStep.sameRings {t : TaskId} {rest : List (Work α)} {lease : LeaseId} {batch : Batch α} {held : HeldLease}
    {entry : Entry} {wake : Option Nat} (hw : b.works t = .exportLeased lease batch wake :: rest)
    (hrest : ∀ w ∈ rest, w.isInert = true) (h : ExportStep b t rest lease batch held entry wake b') : SameRings b b' := by
  have ht := lt_of_works hw
  have hend : ∀ {c : Balancer α} {outcome : Outcome α}, Frame b c →
      SameRings b ((c.useLease lease (· - 1)).finish t rest outcome) := by
    intro c outcome hframe
    have hresettles := resettles_useLease c lease (· - 1)
    exact .of_inert (hresettles.ring.trans hframe.ring) (reworks_finish ht (hresettles.tasks.trans hframe.tasks)) hrest
  cases h with
  | refuse frame _ _ => exact hend frame
  | finish frame _ _ _ => exact hend frame
  | @call c wake frame _ _ =>
    have hr : Reworks b (c.withWorks t (.exportLeased lease batch (some wake) :: rest)) t _ := reworks_withWorks ht frame.tasks
    refine .of_reworks frame.ring hr (fun q hq => ?_)
    rw [hr.duty?_cons rfl] at hq
    cases hq

/-- The request of an export through a lease brings no ring. -/
theorem sameRings_requestExport (b : Balancer α) (lease : LeaseId) (batch : Batch α) :
    SameRings b (b.request (.exportLeased lease batch)).1 := by
  let c := (b.spawn []).withWorks b.nextTask [.exportLeased lease batch none]
  have hr : Reworks (b.spawn []) c b.nextTask [.exportLeased lease batch none] := reworks_withWorks (nextTask_lt_spawn b) rfl
  have hc : SameRings (b.spawn []) c := .of_reworks rfl hr (fun p hp => by
    rw [hr.duty?_cons rfl] at hp
    cases hp)
  have hresettles := resettles_useLease c lease (· + 1)
  exact ((SameRings.of_undisturbed (undisturbed_spawn_nil b)).trans hc).trans (.of_tasks hresettles.ring hresettles.tasks)

theorem sameRings_abandon (hb : b.Grounded) {t : TaskId} {w : Work α} (hd : b.duty? t = some w) :
    SameRings b ((dropWork t b w).withWorks t []) := by
  obtain ⟨rest, hworks, hduty⟩ := works_of_duty? hd
  have hdrop : (dropWork t b w).ring = b.ring → (dropWork t b w).tasks = b.tasks →
      SameRings b ((dropWork t b w).withWorks t []) := by
    intro hring hts
    exact .of_inert hring (reworks_withWorks (lt_of_works hworks) hts) (fun w hw => nomatch hw)
  cases w with
  | pass p => exact hdrop rfl rfl
  | deliver started deadline token parcels =>
    have hframe := (hb.dropWork_deliver hd).1
    exact hdrop hframe.ring hframe.tasks
  | exportLeased lease batch wake =>
    obtain ⟨c, heq, hframe, _⟩ := hb.dropWork_exportLeased t lease batch wake
    have hresettles := resettles_useLease c lease (· - 1)
    refine hdrop ?_ ?_
    · rw [heq]
      exact hresettles.ring.trans hframe.ring
    · rw [heq]
      exact hresettles.tasks.trans hframe.tasks
  | _ => cases hduty

theorem Change.sameRings_or_pass (hb : b.Grounded) {a : Action α} (h : Change b a b') :
    SameRings b b' ∨ ∃ t p rest, b.works t = .pass p :: rest ∧ (∀ w ∈ rest, w.isInert = true) ∧ PassStep b t rest p b' := by
  cases h with
  | calm undisturbed => exact .inl (.of_undisturbed undisturbed)
  | advance => exact .inl (.of_tasks rfl rfl)
  | pass works inert step =>
    exact .inr ⟨_, _, _, works, inert, stepPass_cases (hb.duties _ _ (duty?_of_works works rfl)) step⟩
  | deliver works inert step =>
    exact .inl ((stepDeliver_cases (hb.duties _ _ (duty?_of_works works rfl)) step).sameRings works inert)
  | exportLeased works inert step =>
    obtain ⟨held, entry, _, _, hstep⟩ := stepExportLeased_cases hb step
    exact .inl (hstep.sameRings works inert)
  | use _ => exact .inl (sameRings_requestExport b _ _)
  | lease taken =>
    obtain ⟨_, _, _, d, _, _, hframe, _, _, hresettles, rfl⟩ := leaseAs_spec taken
    exact .inl (.of_tasks (hresettles.ring.trans hframe.ring) (hresettles.tasks.trans hframe.tasks))
  | @dropLease name =>
    have hresettles := resettles_dropName b name
    exact .inl (.of_tasks hresettles.ring hresettles.tasks)
  | @notify id =>
    have hframe := (b.notify_spec id).1
    exact .inl (.of_tasks hframe.ring hframe.tasks)
  | abandon works duty undisturbed =>
    exact .inl ((sameRings_abandon hb (duty?_of_works works duty)).trans (.of_undisturbed undisturbed))

/-! ## Every ring is the ring of a list -/

/-- The published ring is the ring of a list, and so is every ring that a pass is about to publish. -/
structure Published (b : Balancer α) : Prop where
  ring : b.ring.IsBuilt
  passes : ∀ (t : TaskId) (p : Pass), b.duty? t = some (.pass p) → ∀ ring ∈ p.publish, ring.IsBuilt

theorem Published.sameRings (hb : b.Published) (h : SameRings b b') : b'.Published where
  ring := h.ring ▸ hb.ring
  passes := by
    intro t p hp
    rcases h.passes t p hp with hd | hfresh
    · exact hb.passes t p hd
    · exact hfresh.2

/-- A pass publishes the ring that it was made with, if any. -/
theorem Published.passStep (hb : b.Published) {t : TaskId} {rest : List (Work α)} {p : Pass} (hw : b.works t = .pass p :: rest)
    (hrest : ∀ w ∈ rest, w.isInert = true) (h : PassStep b t rest p b') : b'.Published := by
  have ht := lt_of_works hw
  have hbuilt : ∀ ring ∈ p.publish, ring.IsBuilt := hb.passes t p (duty?_of_works hw rfl)
  have hgo : ∀ {c : Balancer α} {p' : Pass}, c.tasks = b.tasks → c.ring.IsBuilt → p'.publish = p.publish →
      (c.withWorks t (.pass p' :: rest)).Published := by
    intro c p' hts hring hpublish
    have hr : Reworks b (c.withWorks t (.pass p' :: rest)) t (.pass p' :: rest) := reworks_withWorks ht hts
    refine ⟨hring, fun t' q hq => ?_⟩
    by_cases hne : t' = t
    · subst hne
      obtain rfl := pass_eq_of_duty? (hr.duty?_cons rfl) hq
      rw [hpublish]
      exact hbuilt
    · rw [hr.duty?_of_ne hne] at hq
      exact hb.passes t' q hq
  cases h with
  | enter _ _ _ _ => exact hgo rfl hb.ring rfl
  | attempt _ _ _ frame _ => exact hgo frame.tasks (frame.ring ▸ hb.ring) rfl
  | publish _ _ =>
    refine hgo rfl ?_ rfl
    show (p.publish.getD b.ring).IsBuilt
    rcases hpublish : p.publish with _ | ring
    · exact hb.ring
    · exact hbuilt ring hpublish
  | retire _ _ _ frame _ _ => exact hgo frame.tasks (frame.ring ▸ hb.ring) rfl
  | @conclude added failed retirements _ _ =>
    have hr := reworks_concludePass ht rest (b.passOutcome added failed retirements)
    obtain ⟨metrics, heq⟩ := concludePass_eq b t rest (b.passOutcome added failed retirements)
    exact hb.sameRings (.of_inert (by rw [heq]; rfl) hr hrest)

end Rings

end Balancer

/-- In every state of a run, the published ring is the ring of a list. -/
theorem Run.published (r : Run α) : ∀ n, (r.state n).Published
  | 0 => ⟨⟨[], r.options.settings.virtualNodes, rfl⟩, fun _ _ hd => nomatch hd⟩
  | n + 1 => by
    rcases (r.change n).sameRings_or_pass (r.grounded n) with hsame | ⟨_, _, _, hw, hrest, hstep⟩
    · exact (r.published n).sameRings hsame
    · exact (r.published n).passStep hw hrest hstep

end TelemetryRouter
