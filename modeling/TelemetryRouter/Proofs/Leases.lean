import Mathlib.Algebra.BigOperators.Group.Finset.Basic
import Mathlib.Algebra.Order.BigOperators.Group.Finset
import TelemetryRouter.Proofs.Grounded

/-!
# Lease counts

The count in an exporter's entry is the number of its live leases: the parcels that have leased it, and the leases held from outside
that were not given back. A lease held from outside was given back exactly when it has neither a name nor an export, and the count
of its exports is the number of tasks that export through it. So a pass that finds the count of an exporter at zero knows that
nobody can call it.
-/

namespace TelemetryRouter

variable {α : Type}

/-! ## Adding up over the duties -/

namespace Balancer

open Finset

/-- The sum of a number over all duties. -/
def tally (b : Balancer α) (f : Work α → Nat) : Nat := ∑ t ∈ range b.tasks.length, (b.duty? t).elim 0 f

/-- The sum is the same over more tasks than there are. -/
theorem tally_eq_sum (b : Balancer α) (f : Work α → Nat) {n : Nat} (h : b.tasks.length ≤ n) :
    b.tally f = ∑ t ∈ range n, (b.duty? t).elim 0 f := by
  refine sum_subset (range_subset_range.2 h) (fun t _ ht => ?_)
  rw [duty?_of_le (Nat.le_of_not_lt (fun hlt => ht (mem_range.2 hlt)))]
  rfl

/-- The sum changes by what the duty of the task changes by. -/
theorem Reworks.tally {b b' : Balancer α} {t : TaskId} {ws : List (Work α)} (h : Reworks b b' t ws) (ht : t < b.tasks.length)
    (f : Work α → Nat) : b'.tally f + (b.duty? t).elim 0 f = b.tally f + (b'.duty? t).elim 0 f := by
  have hmem : t ∈ range b'.tasks.length := mem_range.2 (Nat.lt_of_lt_of_le ht h.grows)
  have hrest : ∑ t' ∈ (range b'.tasks.length).erase t, (b'.duty? t').elim 0 f =
      ∑ t' ∈ (range b'.tasks.length).erase t, (b.duty? t').elim 0 f :=
    sum_congr rfl (fun t' ht' => by rw [h.duty?_of_ne (ne_of_mem_erase ht')])
  rw [b.tally_eq_sum f h.grows, Balancer.tally, ← add_sum_erase _ _ hmem, ← add_sum_erase _ _ hmem, hrest]
  ac_rfl

theorem Undisturbed.tally {b b' : Balancer α} (h : Undisturbed b b') {f : Work α → Nat} (hf : ∀ w, w.IsFresh → f w = 0) :
    b'.tally f = b.tally f := by
  rw [b.tally_eq_sum f h.grows, Balancer.tally]
  refine sum_congr rfl (fun t _ => ?_)
  rcases h.duty t with hd | ⟨hnone, w, hw, hfresh⟩
  · rw [hd]
  · rw [hnone, hw, Option.elim_some, Option.elim_none, hf w hfresh]

theorem tally_congr {b b' : Balancer α} (h : b'.tasks = b.tasks) (f : Work α → Nat) : b'.tally f = b.tally f := by
  rw [Balancer.tally, Balancer.tally, h]
  exact sum_congr rfl (fun t _ => by rw [duty?_congr (works_congr h t)])

theorem le_tally {b : Balancer α} {t : TaskId} {w : Work α} (h : b.duty? t = some w) (f : Work α → Nat) : f w ≤ b.tally f := by
  have ht : t < b.tasks.length := by
    refine Nat.lt_of_not_le (fun hle => ?_)
    rw [duty?_of_le hle] at h
    cases h
  have hle := single_le_sum (f := fun t => (b.duty? t).elim 0 f) (fun _ _ => Nat.zero_le _) (mem_range.2 ht)
  rw [Balancer.tally]
  simpa [h] using hle

end Balancer

/-! ## Live leases -/

/-- How many parcels of a work have leased an exporter. -/
def Work.leased (id : ExporterId) : Work α → Nat
  | .deliver _ _ _ parcels => Balancer.leasedBy parcels id
  | _ => 0

/-- Whether a work exports through a lease held from outside, as a number. -/
def Work.uses (lease : LeaseId) : Work α → Nat
  | .exportLeased l _ _ => if l = lease then 1 else 0
  | _ => 0

/-- Whether a parcel in a phase has leased an exporter, as a number. -/
def ParcelPhase.has (phase : ParcelPhase) (id : ExporterId) : Nat := if phase.lease? = some id then 1 else 0

theorem ParcelPhase.has_eq_zero {phase : ParcelPhase} {id : ExporterId} (h : phase.lease? ≠ some id) : phase.has id = 0 :=
  if_neg h

namespace Balancer

/-- How many leases of a list are live leases of an exporter. -/
def heldOf (leases : List HeldLease) (id : ExporterId) : Nat := leases.countP (fun l => !l.returned && l.exporter == id)

/-- How many live leases an exporter has. -/
def lent (b : Balancer α) (id : ExporterId) : Nat := b.tally (Work.leased id) + heldOf b.leases id

/-- How many tasks export through a lease held from outside. -/
def users (b : Balancer α) (lease : LeaseId) : Nat := b.tally (Work.uses lease)

/-- A lease that was given back has neither a name nor an export. -/
def Spent (leases : List HeldLease) : Prop := ∀ l ∈ leases, l.returned = true → l.name = none ∧ l.users = 0

/-- The counts tell the truth about the leases. -/
structure Balanced (b : Balancer α) : Prop where
  counts : ∀ id entry, b.pool.entry? id = some entry → entry.leases = b.lent id
  users : ∀ lease held, b.leases[lease]? = some held → held.users = b.users lease
  spent : Spent b.leases
  settled : ∀ l ∈ b.leases, l.name = none → l.users = 0 → l.returned = true

/-! ## Leases held from outside -/

theorem heldOf_cons (l : HeldLease) (leases : List HeldLease) (id : ExporterId) :
    heldOf (l :: leases) id = heldOf leases id + if (!l.returned && l.exporter == id) = true then 1 else 0 := List.countP_cons

/-- Settling the leases of a list takes the unused ones from the live ones. -/
theorem heldOf_map_settle (leases : List HeldLease) (id : ExporterId) :
    heldOf (leases.map HeldLease.settle) id + unusedOf leases id = heldOf leases id := by
  induction leases with
  | nil => rfl
  | cons l leases ih =>
    rw [List.map_cons, heldOf_cons, heldOf_cons, unusedOf, List.countP_cons, ← unusedOf, ← ih, exporter_settle]
    have hone : (if (!l.settle.returned && l.exporter == id) = true then 1 else 0) +
        (if (l.isUnused && l.exporter == id) = true then 1 else 0) =
          if (!l.returned && l.exporter == id) = true then 1 else 0 := by
      unfold HeldLease.settle
      by_cases hunused : l.isUnused = true
      · have hreturned : l.returned = false := by
          unfold HeldLease.isUnused at hunused
          simp only [Bool.and_eq_true, Bool.not_eq_true'] at hunused
          exact hunused.2
        simp [hunused, hreturned]
      · simp [hunused]
    omega

/-- Another number of exports through a lease changes no live lease. -/
theorem heldOf_usesOf (leases : List HeldLease) (lease : LeaseId) (f : Nat → Nat) (id : ExporterId) :
    heldOf (usesOf leases lease f) id = heldOf leases id := by
  induction leases generalizing lease with
  | nil => rw [usesOf, List.modify_nil]
  | cons l leases ih =>
    cases lease with
    | zero => rw [usesOf, List.modify_zero_cons, heldOf_cons, heldOf_cons]
    | succ lease => rw [usesOf, List.modify_succ_cons, heldOf_cons, heldOf_cons, ← usesOf, ih]

/-- Taking a name from the leases changes no live lease. -/
theorem heldOf_unnamed (leases : List HeldLease) (name : String) (id : ExporterId) :
    heldOf (unnamed leases name) id = heldOf leases id := by
  rw [heldOf, heldOf, unnamed, List.countP_map]
  refine List.countP_congr (fun l _ => ?_)
  rw [Function.comp_apply]
  split <;> rfl

/-- Unused leases are spent once they are settled, and spent ones stay so. -/
theorem spent_map_settle {leases : List HeldLease} (h : Spent leases) : Spent (leases.map HeldLease.settle) := by
  intro l' hl' hreturned
  obtain ⟨l, hl, rfl⟩ := List.mem_map.1 hl'
  unfold HeldLease.settle at hreturned ⊢
  split
  · rename_i hunused
    unfold HeldLease.isUnused at hunused
    simp only [Bool.and_eq_true, Option.isNone_iff_eq_none, beq_iff_eq] at hunused
    exact hunused.1
  · rename_i hunused
    rw [if_neg hunused] at hreturned
    exact h l hl hreturned

/-- A settled lease with neither a name nor an export was given back. -/
theorem returned_of_mem_map_settle {leases : List HeldLease} {l' : HeldLease} (hl' : l' ∈ leases.map HeldLease.settle)
    (hname : l'.name = none) (husers : l'.users = 0) : l'.returned = true := by
  obtain ⟨l, _, rfl⟩ := List.mem_map.1 hl'
  unfold HeldLease.settle at hname husers ⊢
  split
  · rfl
  · rename_i hunused
    rw [if_neg hunused] at hname husers
    unfold HeldLease.isUnused at hunused
    simpa [hname, husers] using hunused

theorem users_settle (l : HeldLease) : l.settle.users = l.users := by
  unfold HeldLease.settle
  split <;> rfl

/-- Spent leases stay spent when another lease is used by more or fewer exports. -/
theorem spent_usesOf {leases : List HeldLease} {lease : LeaseId} {f : Nat → Nat} (h : Spent leases)
    (hheld : ∀ l, leases[lease]? = some l → l.returned = false) : Spent (usesOf leases lease f) := by
  intro l' hl' hreturned
  obtain ⟨i, hi⟩ := List.getElem?_of_mem hl'
  rw [usesOf, List.getElem?_modify] at hi
  obtain ⟨l, hl, rfl⟩ := Option.map_eq_some_iff.1 hi
  by_cases heq : lease = i
  · subst heq
    rw [if_pos rfl] at hreturned
    rw [hheld l hl] at hreturned
    cases hreturned
  · rw [if_neg heq] at hreturned ⊢
    exact h l (List.mem_of_getElem? hl) hreturned

/-- Spent leases stay spent when a name is taken from the leases. -/
theorem spent_unnamed {leases : List HeldLease} {name : String} (h : Spent leases) : Spent (unnamed leases name) := by
  intro l' hl' hreturned
  obtain ⟨l, hl, rfl⟩ := List.mem_map.1 hl'
  split at hreturned
  · rename_i hname
    rw [(h l hl hreturned).1] at hname
    cases hname
  · rename_i hname
    rw [if_neg hname]
    exact h l hl hreturned

/-- The counts tell the truth again once other leases are settled and new ones are there, if they were right for all of them
before. -/
theorem Balanced.of_resettles {c b' d : Balancer α} {leases : List HeldLease} (taken : List HeldLease) (h : Resettles c b' leases)
    (hmade : d.pool.made = b'.pool.made) (hleases : d.leases = b'.leases ++ taken)
    (hcounts : ∀ id entry, c.pool.entry? id = some entry →
      entry.leases = d.tally (Work.leased id) + heldOf leases id + heldOf taken id)
    (husers : ∀ lease held, (leases ++ taken)[lease]? = some held → held.users = d.users lease) (hspent : Spent leases)
    (htaken : ∀ l ∈ taken, l.returned = false ∧ l.name ≠ none) : d.Balanced where
  counts := fun id entry' he' => by
    rw [Pool.entry?, hmade] at he'
    obtain ⟨entry, he, _, hcount⟩ := h.relieves.entry_before he'
    have hsum := heldOf_map_settle leases id
    have happend : heldOf d.leases id = heldOf (leases.map HeldLease.settle) id + heldOf taken id := by
      rw [hleases, h.leases]
      exact List.countP_append
    rw [hcount, hcounts id _ he, lent, happend]
    omega
  users := fun lease held hheld => by
    rw [hleases, h.leases] at hheld
    by_cases hlt : lease < leases.length
    · rw [List.getElem?_append_left (by rw [List.length_map]; exact hlt), List.getElem?_map] at hheld
      obtain ⟨l, hl, rfl⟩ := Option.map_eq_some_iff.1 hheld
      rw [users_settle]
      exact husers lease l (by rw [List.getElem?_append_left hlt]; exact hl)
    · have hle : leases.length ≤ lease := Nat.le_of_not_lt hlt
      rw [List.getElem?_append_right (by rw [List.length_map]; exact hle), List.length_map] at hheld
      exact husers lease held (by rw [List.getElem?_append_right hle]; exact hheld)
  spent := by
    intro l hl hreturned
    rw [hleases, h.leases] at hl
    rcases List.mem_append.1 hl with hl | hl
    · exact spent_map_settle hspent l hl hreturned
    · rw [(htaken l hl).1] at hreturned
      cases hreturned
  settled := fun l hl hname husers => by
    rw [hleases, h.leases] at hl
    rcases List.mem_append.1 hl with hl | hl
    · exact returned_of_mem_map_settle hl hname husers
    · exact absurd hname (htaken l hl).2

/-! ## Steps that lease nothing -/

section Steps

variable {b b' : Balancer α}

/-- A number that every duty makes zero adds up to zero. -/
theorem tally_eq_zero {f : Work α → Nat} (h : ∀ t w, b.duty? t = some w → f w = 0) : b.tally f = 0 := by
  refine Finset.sum_eq_zero (fun t _ => ?_)
  rcases hd : b.duty? t with _ | w
  · rfl
  · exact h t w hd

theorem Grounded.lent_eq_zero (hb : b.Grounded) {id : ExporterId} (h : b.pool.entry? id = none) : b.lent id = 0 := by
  have hnone : b.endpointOf? id = none := by rw [endpointOf?, h]; rfl
  have hduties : b.tally (Work.leased id) = 0 := tally_eq_zero (fun t w hw => by
    have hg := hb.duties t w hw
    cases w with
    | deliver started deadline token parcels =>
      refine List.countP_eq_zero.2 (fun p hp hlease => ?_)
      have := hg p hp id (by simpa using hlease)
      rw [hnone] at this
      cases this
    | _ => rfl)
  have hheld : heldOf b.leases id = 0 := List.countP_eq_zero.2 (fun l hl hlive => by
    simp only [Bool.and_eq_true, beq_iff_eq] at hlive
    obtain ⟨e, he⟩ := hb.leases l hl
    rw [hlive.2, hnone] at he
    cases he)
  rw [lent, hduties, hheld]

/-- The leases are as before, and every entry counts as many as before, a new one none. -/
theorem Balanced.of_same (hb : b.Balanced) (hg : b.Grounded) (hleases : b'.leases = b.leases)
    (hleased : ∀ id, b'.tally (Work.leased id) = b.tally (Work.leased id))
    (huses : ∀ lease, b'.tally (Work.uses lease) = b.tally (Work.uses lease))
    (hentries : ∀ id entry', b'.pool.entry? id = some entry' →
      (∃ entry, b.pool.entry? id = some entry ∧ entry'.leases = entry.leases) ∨
        (b.pool.entry? id = none ∧ entry'.leases = 0)) : b'.Balanced where
  counts := fun id entry' he' => by
    have hlent : b'.lent id = b.lent id := by rw [lent, lent, hleased, hleases]
    rw [hlent]
    rcases hentries id entry' he' with ⟨entry, he, hcount⟩ | ⟨hnone, hzero⟩
    · rw [hcount, hb.counts id entry he]
    · rw [hzero, hg.lent_eq_zero hnone]
  users := fun lease held hheld => by
    rw [Balancer.users, huses]
    exact hb.users lease held (hleases ▸ hheld)
  spent := hleases ▸ hb.spent
  settled := hleases ▸ hb.settled

theorem Touches.leases_eq {id : ExporterId} {old new : Entry} {said : List Occurrence} (h : Touches b b' id old new said)
    (hnew : new.leases = old.leases) {id' : ExporterId} {entry' : Entry} (he' : b'.pool.entry? id' = some entry') :
    ∃ entry, b.pool.entry? id' = some entry ∧ entry'.leases = entry.leases := by
  by_cases hid : id' = id
  · subst hid
    rw [h.after] at he'
    injection he' with he'
    exact ⟨old, h.before, he' ▸ hnew⟩
  · rw [h.entries id' hid] at he'
    exact ⟨entry', he', rfl⟩

theorem AttemptStep.leases_eq {e : Endpoint} {phase phase' : AttemptPhase} (h : AttemptStep b e phase b' phase')
    {id : ExporterId} {entry' : Entry} (he' : b'.pool.entry? id = some entry') :
    (∃ entry, b.pool.entry? id = some entry ∧ entry'.leases = entry.leases) ∨
      (b.pool.entry? id = none ∧ entry'.leases = 0) := by
  cases h with
  | call same => exact .inl ⟨entry', by rw [Pool.entry?, ← same.made]; exact he', rfl⟩
  | refuse same => exact .inl ⟨entry', by rw [Pool.entry?, ← same.made]; exact he', rfl⟩
  | @make _ address plain _ _ made _ _ _ =>
    rw [Pool.entry?, made] at he'
    by_cases hlt : id < b.pool.made.length
    · rw [List.getElem?_append_left hlt] at he'
      exact .inl ⟨entry', he', rfl⟩
    · rw [List.getElem?_append_right (Nat.le_of_not_lt hlt)] at he'
      refine .inr ⟨List.getElem?_eq_none (Nat.le_of_not_lt hlt), ?_⟩
      rw [List.mem_singleton.1 (List.mem_of_getElem? he')]
      rfl
  | run touches _ => exact .inl (touches.leases_eq rfl he')
  | stumble touches _ => exact .inl (touches.leases_eq rfl he')

theorem RetirementStep.leases_eq {id : ExporterId} {entry : Entry} {phase phase' : RetirementPhase}
    (h : RetirementStep b id entry phase b' phase') {id' : ExporterId} {entry' : Entry} (he' : b'.pool.entry? id' = some entry') :
    ∃ entry, b.pool.entry? id' = some entry ∧ entry'.leases = entry.leases := by
  cases h with
  | mark touches _ => exact touches.leases_eq rfl he'
  | drain _ _ touches _ => exact touches.leases_eq rfl he'
  | close _ touches _ => exact touches.leases_eq rfl he'
  | giveUp _ _ touches _ => exact touches.leases_eq rfl he'
  | leave _ touches _ => exact touches.leases_eq rfl he'

/-- A task with a pass goes on to inert works or to a pass. Neither leases anything. -/
theorem Reworks.tally_pass {t : TaskId} {p : Pass} {rest ws : List (Work α)} (h : Reworks b b' t ws)
    (hw : b.works t = .pass p :: rest) (hws : ∀ w, b'.duty? t = some w → ∃ p', w = .pass p') {f : Work α → Nat}
    (hf : ∀ p, f (.pass p) = 0) : b'.tally f = b.tally f := by
  have hsum := h.tally (lt_of_works hw) f
  rw [duty?_of_works hw rfl, Option.elim_some, hf p] at hsum
  rcases hd : b'.duty? t with _ | w
  · rw [hd, Option.elim_none] at hsum
    omega
  · obtain ⟨p', rfl⟩ := hws w hd
    rw [hd, Option.elim_some, hf p'] at hsum
    omega

theorem Balanced.passStep (hb : b.Balanced) (hg : b.Grounded) {t : TaskId} {rest : List (Work α)} {p : Pass}
    (hw : b.works t = .pass p :: rest) (hrest : ∀ w ∈ rest, w.isInert = true) (h : PassStep b t rest p b') : b'.Balanced := by
  have ht := lt_of_works hw
  have hkept : ∀ {id entry'}, b.pool.entry? id = some entry' →
      (∃ entry, b.pool.entry? id = some entry ∧ entry'.leases = entry.leases) ∨
        (b.pool.entry? id = none ∧ entry'.leases = 0) := fun he => .inl ⟨_, he, rfl⟩
  have hpass : ∀ {c : Balancer α} {p' : Pass}, c.tasks = b.tasks → c.leases = b.leases →
      (∀ id entry', c.pool.entry? id = some entry' →
        (∃ entry, b.pool.entry? id = some entry ∧ entry'.leases = entry.leases) ∨
          (b.pool.entry? id = none ∧ entry'.leases = 0)) → (c.withWorks t (.pass p' :: rest)).Balanced := by
    intro c p' hts hleases hentries
    have hr : Reworks b (c.withWorks t (.pass p' :: rest)) t (.pass p' :: rest) := reworks_withWorks ht hts
    have hws : ∀ w, (c.withWorks t (.pass p' :: rest)).duty? t = some w → ∃ p', w = .pass p' := fun w hd => by
      rw [hr.duty?_cons rfl] at hd
      injection hd with hd
      exact ⟨p', hd.symm⟩
    exact hb.of_same hg hleases (fun _ => hr.tally_pass hw hws (fun _ => rfl)) (fun _ => hr.tally_pass hw hws (fun _ => rfl))
      hentries
  cases h with
  | enter _ _ _ _ => exact hpass rfl rfl (fun _ _ he => hkept he)
  | attempt _ _ _ frame step => exact hpass frame.tasks frame.leases (fun _ _ he => step.leases_eq he)
  | publish _ _ => exact hpass rfl rfl (fun _ _ he => hkept he)
  | retire _ _ _ frame _ step => exact hpass frame.tasks frame.leases (fun _ _ he => .inl (step.leases_eq he))
  | @conclude added failed retirements _ _ =>
    have hr := reworks_concludePass ht rest (b.passOutcome added failed retirements)
    have hws : ∀ w, (b.concludePass t rest (b.passOutcome added failed retirements)).duty? t = some w → ∃ p', w = .pass p' :=
      fun w hd => by
        rw [hr.duty?_inert hrest] at hd
        cases hd
    obtain ⟨metrics, heq⟩ := concludePass_eq b t rest (b.passOutcome added failed retirements)
    refine hb.of_same hg (by rw [heq]; rfl) (fun _ => hr.tally_pass hw hws (fun _ => rfl))
      (fun _ => hr.tally_pass hw hws (fun _ => rfl)) (fun id entry' he => ?_)
    rw [heq] at he
    exact hkept he

theorem Balanced.undisturbed (hb : b.Balanced) (hg : b.Grounded) (h : Undisturbed b b') : b'.Balanced := by
  have hmade : b'.pool.made = b.pool.made := congrArg Core.made h.core
  refine hb.of_same hg (congrArg Core.leases h.core) (fun id => h.tally (fun w hw => ?_)) (fun lease => h.tally (fun w hw => ?_))
    (fun id entry' he' => .inl ⟨entry', by rw [Pool.entry?, ← hmade]; exact he', rfl⟩)
  · cases w with
    | deliver started deadline token parcels =>
      refine List.countP_eq_zero.2 (fun p hp hlease => ?_)
      rw [hw p hp] at hlease
      cases hlease
    | _ => rfl
  · cases w with
    | exportLeased l batch wake => cases hw
    | _ => rfl

/-! ## Steps of parcels -/

/-- Another phase of one parcel changes the number of parcels that have leased an exporter by its own part. -/
theorem leasedBy_set {parcels : List (Parcel α)} {way : Nat} {p : Parcel α} (h : parcels[way]? = some p) (p' : Parcel α)
    (id : ExporterId) : leasedBy (parcels.set way p') id + p.phase.has id = leasedBy parcels id + p'.phase.has id := by
  obtain ⟨hlt, hget⟩ := List.getElem?_eq_some_iff.1 h
  rw [leasedBy, List.countP_set hlt, hget, leasedBy, ParcelPhase.has, ParcelPhase.has]
  simp only [beq_iff_eq]
  have hle : (if p.phase.lease? = some id then 1 else 0) ≤ parcels.countP (fun p => p.phase.lease? == some id) := by
    split
    · rename_i hlease
      exact List.countP_pos_iff.2 ⟨p, List.mem_of_getElem? h, by rw [hlease]; exact beq_self_eq_true _⟩
    · exact Nat.zero_le _
  omega

/-- Touching the exporter of a parcel changes its count and no other. -/
theorem Touches.counts {id : ExporterId} {old new : Entry} {said : List Occurrence} (h : Touches b b' id old new said)
    (phase phase' : ParcelPhase) (hphase : ∀ x ∈ phase.lease?, x = id) (hphase' : ∀ x ∈ phase'.lease?, x = id)
    (hcount : new.leases + phase.has id = old.leases + phase'.has id) {id' : ExporterId} {entry' : Entry}
    (he' : b'.pool.entry? id' = some entry') :
    ∃ entry, b.pool.entry? id' = some entry ∧ entry'.leases + phase.has id' = entry.leases + phase'.has id' := by
  by_cases hid : id' = id
  · subst hid
    rw [h.after] at he'
    injection he' with he'
    subst he'
    exact ⟨old, h.before, hcount⟩
  · rw [h.entries id' hid] at he'
    refine ⟨entry', he', ?_⟩
    rw [phase.has_eq_zero (fun hx => hid (hphase _ hx)), phase'.has_eq_zero (fun hx => hid (hphase' _ hx))]

/-- A step of a parcel changes the count of its exporter by what it has leased or given back. -/
theorem ParcelStep.counts {e : Endpoint} {batch : Batch α} {cut : Option RouterError} {phase phase' : ParcelPhase}
    (h : ParcelStep b e batch cut phase b' phase')
    (hpos : ∀ id ∈ phase.lease?, ∀ entry, b.pool.entry? id = some entry → 0 < entry.leases) {id : ExporterId} {entry' : Entry}
    (he' : b'.pool.entry? id = some entry') :
    ∃ entry, b.pool.entry? id = some entry ∧ entry'.leases + phase.has id = entry.leases + phase'.has id := by
  have hnone : ∀ {id' : ExporterId}, ∀ x ∈ (none : Option ExporterId), x = id' := fun x hx => nomatch hx
  have hsome : ∀ {id' : ExporterId}, ∀ x ∈ some id', x = id' := fun x hx => (Option.some.inj hx).symm
  have hone : ∀ {phase : ParcelPhase} {id' : ExporterId}, phase.lease? = some id' → phase.has id' = 1 := fun hp => if_pos hp
  have hzero : ∀ {phase : ParcelPhase} {id' : ExporterId}, phase.lease? = none → phase.has id' = 0 := fun hp =>
    if_neg (by rw [hp]; exact fun hx => nomatch hx)
  have hback : ∀ {id' : ExporterId} {old new : Entry} {said : List Occurrence} (_ : Touches b b' id' old new said),
      phase.lease? = some id' → phase'.lease? = none → new.leases = old.leases - 1 →
        ∃ entry, b.pool.entry? id = some entry ∧ entry'.leases + phase.has id = entry.leases + phase'.has id := by
    intro id' old new said touches hleased hover hnew
    refine touches.counts phase phase' (by rw [hleased]; exact hsome) (by rw [hover]; exact hnone) ?_ he'
    have := hpos id' hleased old touches.before
    rw [hone hleased, hzero hover, hnew]
    omega
  cases h with
  | unready _ => exact ⟨entry', he', rfl⟩
  | lease _ _ touches _ =>
    refine touches.counts .pending (.leased _ _) hnone hsome ?_ he'
    rw [hzero rfl, hone rfl]
  | cutEarly _ touches _ => exact hback touches rfl rfl rfl
  | refuse _ touches _ => exact hback touches rfl rfl rfl
  | call _ touches _ =>
    refine touches.counts (.leased _ _) (.exporting _ _ _) hsome hsome ?_ he'
    rw [hone rfl, hone rfl]
  | cutLate _ touches _ => exact hback touches rfl rfl rfl
  | arrive _ _ _ touches _ _ => exact hback touches rfl rfl rfl
  | reject _ _ _ touches _ => exact hback touches rfl rfl rfl

theorem Balanced.deliverStep (hb : b.Balanced) {t : TaskId} {rest : List (Work α)} {started : Nat} {deadline : Option Instant}
    {token : Option String} {parcels : List (Parcel α)} {way : Nat}
    (hw : b.works t = .deliver started deadline token parcels :: rest) (hrest : ∀ w ∈ rest, w.isInert = true)
    (h : DeliverStep b t rest started deadline token parcels way b') : b'.Balanced := by
  have ht := lt_of_works hw
  have hd := duty?_of_works hw rfl
  cases h with
  | @parcel p p' c at_way _ _ frame step =>
    have hr : Reworks b (c.withWorks t (.deliver started deadline token (parcels.set way p') :: rest)) t _ :=
      reworks_withWorks ht frame.tasks
    have hd' := hr.duty?_cons rfl
    have hpos : ∀ id ∈ p.phase.lease?, ∀ entry, b.pool.entry? id = some entry → 0 < entry.leases := fun id hid entry he => by
      have hle := le_tally hd (Work.leased id)
      have hset := leasedBy_set at_way { p with phase := .delivered } id
      have hone : p.phase.has id = 1 := if_pos hid
      have hzero : ({ p with phase := .delivered } : Parcel α).phase.has id = 0 := if_neg (fun hx => nomatch hx)
      rw [hb.counts id entry he, lent]
      rw [Work.leased] at hle
      omega
    refine ⟨fun id entry' he' => ?_, fun lease held hheld => ?_, ?_, ?_⟩
    · obtain ⟨entry, he, hcount⟩ := step.counts hpos he'
      have hsum := hr.tally ht (Work.leased id)
      have hset := leasedBy_set at_way p' id
      have hbefore := hb.counts id entry he
      rw [hd, hd', Option.elim_some, Option.elim_some, Work.leased, Work.leased] at hsum
      have hleases : (c.withWorks t (.deliver started deadline token (parcels.set way p') :: rest)).leases = b.leases :=
        frame.leases
      rw [lent] at hbefore ⊢
      rw [hleases]
      omega
    · have hsum := hr.tally ht (Work.uses lease)
      have hzero : ∀ ps : List (Parcel α), Work.uses lease (.deliver started deadline token ps) = 0 := fun _ => rfl
      rw [hd, hd', Option.elim_some, Option.elim_some, hzero, hzero] at hsum
      have hleases : b.leases[lease]? = some held := frame.leases ▸ hheld
      rw [hb.users lease held hleases, Balancer.users, Balancer.users]
      omega
    · exact fun l hl => hb.spent l (frame.leases ▸ hl)
    · exact fun l hl => hb.settled l (frame.leases ▸ hl)
  | finish ended =>
    have hr : Reworks b (b.finish t rest (.dispatched (Parcel.result parcels))) t rest := reworks_finish ht rfl
    have hd' := hr.duty?_inert hrest
    have hzero : ∀ id, leasedBy parcels id = 0 := fun id => List.countP_eq_zero.2 (fun p hp hlease => by
      have hover := List.all_eq_true.1 ended p hp
      unfold Parcel.isOver at hover
      rcases hphase : p.phase with _ | _ | _ | _ | _ <;> simp [hphase, ParcelPhase.lease?] at hover hlease)
    have hsame : ∀ f : Work α → Nat, f (.deliver started deadline token parcels) = 0 →
        (b.finish t rest (.dispatched (Parcel.result parcels))).tally f = b.tally f := fun f hf => by
      have hsum := hr.tally ht f
      rw [hd, hd', Option.elim_some, Option.elim_none, hf] at hsum
      omega
    refine ⟨fun id entry' he' => ?_, fun lease held hheld => ?_, hb.spent, hb.settled⟩
    · rw [hb.counts id entry' he', lent, lent, hsame _ (hzero id)]
      rfl
    · rw [hb.users lease held hheld, Balancer.users, Balancer.users, hsame _ rfl]

/-! ## Steps of exports and leases from outside -/

/-- A lease through which a task exports was not given back. -/
theorem Balanced.not_returned (hb : b.Balanced) {t : TaskId} {lease : LeaseId} {batch : Batch α} {wake : Option Nat}
    (hd : b.duty? t = some (.exportLeased lease batch wake)) {held : HeldLease} (hheld : b.leases[lease]? = some held) :
    held.returned = false := by
  refine Bool.eq_false_iff.2 (fun hreturned => ?_)
  have hzero := (hb.spent held (List.mem_of_getElem? hheld) hreturned).2
  have hle := le_tally hd (Work.uses lease)
  have hone : Work.uses lease (.exportLeased lease batch wake : Work α) = 1 := if_pos rfl
  rw [hb.users lease held hheld, Balancer.users] at hzero
  omega

theorem Grounded.users_eq_zero (hb : b.Grounded) {lease : LeaseId} (h : b.leases.length ≤ lease) : b.users lease = 0 :=
  tally_eq_zero (fun t w hw => by
    have hg := hb.duties t w hw
    cases w with
    | exportLeased l batch wake =>
      have hlt : l < b.leases.length := hg
      exact if_neg (fun heq : l = lease => Nat.not_lt_of_le h (heq ▸ hlt))
    | _ => rfl)

theorem getElem?_usesOf (leases : List HeldLease) (lease : LeaseId) (f : Nat → Nat) (l : LeaseId) :
    (usesOf leases lease f)[l]? = leases[l]?.map (fun h => if lease = l then { h with users := f h.users } else h) :=
  List.getElem?_modify _ _ _ _

/-- The end of an export through a lease held from outside keeps the counts true, whatever touched its exporter before. -/
theorem Balanced.endUse (hb : b.Balanced) {c d : Balancer α} {t : TaskId} {lease : LeaseId} {batch : Batch α}
    {wake : Option Nat} {ws : List (Work α)} (hd : b.duty? t = some (.exportLeased lease batch wake))
    (hleases : c.leases = b.leases) (hentries : ∀ id entry', c.pool.entry? id = some entry' →
      ∃ entry, b.pool.entry? id = some entry ∧ entry'.leases = entry.leases)
    (hmade : d.pool.made = (c.useLease lease (· - 1)).pool.made) (hdl : d.leases = (c.useLease lease (· - 1)).leases)
    (ht : t < b.tasks.length) (hr : Reworks b d t ws) (hnone : d.duty? t = none) : d.Balanced := by
  have hresettles := resettles_useLease c lease (· - 1)
  rw [hleases] at hresettles
  have htally : ∀ f : Work α → Nat, d.tally f + f (.exportLeased lease batch wake) = b.tally f := fun f => by
    have hsum := hr.tally ht f
    rw [hd, hnone, Option.elim_some, Option.elim_none] at hsum
    exact hsum
  refine .of_resettles [] hresettles hmade (by rw [hdl, List.append_nil]) (fun id entry' he' => ?_)
    (fun l held hheld => ?_) (spent_usesOf hb.spent (fun held => hb.not_returned hd)) (fun l hl => nomatch hl)
  · obtain ⟨entry, he, hcount⟩ := hentries id entry' he'
    have hsum := htally (Work.leased id)
    have hzero : Work.leased id (.exportLeased lease batch wake : Work α) = 0 := rfl
    have hbefore := hb.counts id entry he
    rw [lent] at hbefore
    rw [heldOf_usesOf, hcount, hbefore]
    have hempty : heldOf [] id = 0 := rfl
    omega
  · rw [List.append_nil, getElem?_usesOf] at hheld
    obtain ⟨held', hheld', rfl⟩ := Option.map_eq_some_iff.1 hheld
    have hsum := htally (Work.uses l)
    have hbefore := hb.users l held' hheld'
    have hone : Work.uses l (.exportLeased lease batch wake : Work α) = if lease = l then 1 else 0 := rfl
    rw [Balancer.users] at hbefore ⊢
    split <;> rename_i heq
    · rw [hone, if_pos heq] at hsum
      dsimp only
      omega
    · rw [hone, if_neg heq] at hsum
      omega

/-- A step of an export through a lease held from outside keeps the counts true. -/
theorem Balanced.exportStep (hb : b.Balanced) {t : TaskId} {rest : List (Work α)} {lease : LeaseId} {batch : Batch α}
    {held : HeldLease} {entry : Entry} {wake : Option Nat} (hw : b.works t = .exportLeased lease batch wake :: rest)
    (hrest : ∀ w ∈ rest, w.isInert = true) (h : ExportStep b t rest lease batch held entry wake b') : b'.Balanced := by
  have ht := lt_of_works hw
  have hd := duty?_of_works hw rfl
  have hend : ∀ {c : Balancer α} {outcome : Outcome α}, c.tasks = b.tasks → c.leases = b.leases →
      (∀ id entry', c.pool.entry? id = some entry' → ∃ entry, b.pool.entry? id = some entry ∧ entry'.leases = entry.leases) →
        ((c.useLease lease (· - 1)).finish t rest outcome).Balanced := fun {c outcome} hts hleases hentries => by
    have hr : Reworks b ((c.useLease lease (· - 1)).finish t rest outcome) t rest :=
      reworks_finish ht ((resettles_useLease c lease (· - 1)).tasks.trans hts)
    exact hb.endUse hd hleases hentries rfl rfl ht hr (hr.duty?_inert hrest)
  cases h with
  | refuse frame _ touches => exact hend frame.tasks frame.leases (fun _ _ he => touches.leases_eq rfl he)
  | finish frame _ _ touches => exact hend frame.tasks frame.leases (fun _ _ he => touches.leases_eq rfl he)
  | @call c wake frame _ touches =>
    have hr : Reworks b (c.withWorks t (.exportLeased lease batch (some wake) :: rest)) t _ := reworks_withWorks ht frame.tasks
    have hd' := hr.duty?_cons rfl
    refine ⟨fun id entry' he' => ?_, fun l held hheld => ?_, ?_, ?_⟩
    · obtain ⟨entry, he, hcount⟩ := touches.leases_eq rfl he'
      have hsum := hr.tally ht (Work.leased id)
      have hleases : (c.withWorks t (.exportLeased lease batch (some wake) :: rest)).leases = b.leases := frame.leases
      have hzero : ∀ wake, Work.leased id (.exportLeased lease batch wake : Work α) = 0 := fun _ => rfl
      rw [hd, hd', Option.elim_some, Option.elim_some, hzero, hzero] at hsum
      rw [hcount, hb.counts id entry he, lent, lent, hleases]
      omega
    · have hsum := hr.tally ht (Work.uses l)
      have hleases : b.leases[l]? = some held := frame.leases ▸ hheld
      have hsame : ∀ wake, Work.uses l (.exportLeased lease batch wake : Work α) = if lease = l then 1 else 0 := fun _ => rfl
      rw [hd, hd', Option.elim_some, Option.elim_some, hsame, hsame] at hsum
      rw [hb.users l held hleases, Balancer.users, Balancer.users]
      omega
    · exact fun l hl => hb.spent l (frame.leases ▸ hl)
    · exact fun l hl => hb.settled l (frame.leases ▸ hl)

/-- The request of an export through a lease keeps the counts true. -/
theorem Balanced.requestExport (hb : b.Balanced) (hg : b.Grounded) {lease : LeaseId} (batch : Batch α)
    (hl : b.isHeld lease = true) : (b.request (.exportLeased lease batch)).1.Balanced := by
  have hb₀ := hb.undisturbed hg (undisturbed_spawn_nil b)
  let c := (b.spawn []).withWorks b.nextTask [.exportLeased lease batch none]
  have hr : Reworks (b.spawn []) c b.nextTask [.exportLeased lease batch none] := reworks_withWorks (nextTask_lt_spawn b) rfl
  have hresettles : Resettles c (b.request (.exportLeased lease batch)).1 (usesOf b.leases lease (· + 1)) :=
    resettles_useLease c lease (· + 1)
  have htally : ∀ f : Work α → Nat, (b.request (.exportLeased lease batch)).1.tally f =
      (b.spawn []).tally f + f (.exportLeased lease batch none) := fun f => by
    have hsum := hr.tally (nextTask_lt_spawn b) f
    rw [duty?_nextTask b, hr.duty?_cons rfl, Option.elim_none, Option.elim_some, Nat.add_zero] at hsum
    rw [tally_congr hresettles.tasks, hsum]
  refine .of_resettles [] hresettles rfl (List.append_nil _).symm (fun id entry he => ?_) (fun l held hheld => ?_)
    (spent_usesOf hb.spent (fun held hheld => ?_)) (fun l hl => nomatch hl)
  · have hbefore : entry.leases = (b.spawn []).lent id := hb₀.counts id entry he
    rw [hbefore, lent, htally, heldOf_usesOf]
    rfl
  · rw [List.append_nil, getElem?_usesOf] at hheld
    obtain ⟨held', hheld', rfl⟩ := Option.map_eq_some_iff.1 hheld
    have hbefore : held'.users = (b.spawn []).tally (Work.uses l) := hb₀.users l held' hheld'
    have hone : Work.uses l (.exportLeased lease batch none : Work α) = if lease = l then 1 else 0 := rfl
    rw [Balancer.users, htally, hone, ← hbefore]
    split <;> rfl
  · rw [isHeld, hheld, Option.any_some, Bool.not_eq_true'] at hl
    exact hl

/-- Dropping the lease under a name keeps the counts true. -/
theorem Balanced.dropName (hb : b.Balanced) (name : String) : (b.dropName name).Balanced := by
  have hresettles := resettles_dropName b name
  refine .of_resettles [] hresettles rfl (List.append_nil _).symm (fun id entry he => ?_) (fun l held hheld => ?_)
    (spent_unnamed hb.spent) (fun l hl => nomatch hl)
  · rw [hb.counts id entry he, lent, tally_congr hresettles.tasks, heldOf_unnamed]
    rfl
  · rw [List.append_nil, unnamed, List.getElem?_map] at hheld
    obtain ⟨held', hheld', rfl⟩ := Option.map_eq_some_iff.1 hheld
    rw [Balancer.users, tally_congr hresettles.tasks, ← Balancer.users, ← hb.users l held' hheld']
    split <;> rfl

theorem Balanced.leaseAs (hb : b.Balanced) (hg : b.Grounded) {e : Endpoint} {name : String} (h : b.leaseAs e name = .ok b') :
    b'.Balanced := by
  obtain ⟨id, entry, c, d, _, _, hframe, _, htouches, hresettles, rfl⟩ := leaseAs_spec h
  have hts : d.tasks = b.tasks := hresettles.tasks.trans hframe.tasks
  refine .of_resettles [⟨id, some name, 0, false⟩] hresettles rfl rfl (fun id' entry' he' => ?_) (fun l held hheld => ?_)
    (spent_unnamed hb.spent) (fun l hl => ?_)
  · obtain ⟨old, hold, hcount⟩ := htouches.counts .pending (.leased id 0) (fun x hx => by cases hx)
      (fun x hx => (Option.some.inj hx).symm) (by simp [ParcelPhase.has, ParcelPhase.lease?]) he'
    have hzero : ParcelPhase.pending.has id' = 0 := rfl
    have hone : heldOf [⟨id, some name, 0, false⟩] id' = (ParcelPhase.leased id 0).has id' := by
      simp [heldOf, ParcelPhase.has, ParcelPhase.lease?, List.countP_cons]
    have htally : ({ d with leases := d.leases ++ [⟨id, some name, 0, false⟩] } : Balancer α).tally (Work.leased id') =
        b.tally (Work.leased id') := tally_congr hts _
    have hbefore := hb.counts id' old hold
    rw [lent] at hbefore
    rw [htally, heldOf_unnamed, hone]
    omega
  · have htally : ({ d with leases := d.leases ++ [⟨id, some name, 0, false⟩] } : Balancer α).tally (Work.uses l) = b.users l :=
      tally_congr hts _
    have hlength : (unnamed b.leases name).length = b.leases.length := List.length_map _
    rw [Balancer.users, htally]
    by_cases hlt : l < b.leases.length
    · rw [List.getElem?_append_left (by rw [hlength]; exact hlt), unnamed, List.getElem?_map] at hheld
      obtain ⟨held', hheld', rfl⟩ := Option.map_eq_some_iff.1 hheld
      rw [← hb.users l held' hheld']
      split <;> rfl
    · have hle : b.leases.length ≤ l := Nat.le_of_not_lt hlt
      rw [List.getElem?_append_right (by rw [hlength]; exact hle)] at hheld
      rw [hg.users_eq_zero hle, List.mem_singleton.1 (List.mem_of_getElem? hheld)]
  · rw [List.mem_singleton.1 hl]
    exact ⟨rfl, fun h => by cases h⟩

/-- Giving a task with a duty up keeps the counts true. -/
theorem Balanced.abandon (hb : b.Balanced) (hg : b.Grounded) {t : TaskId} {w : Work α} (hd : b.duty? t = some w) :
    ((dropWork t b w).withWorks t []).Balanced := by
  obtain ⟨rest, hw, hduty⟩ := works_of_duty? hd
  have ht := lt_of_works hw
  have hnil : ∀ w ∈ ([] : List (Work α)), w.isInert = true := List.forall_mem_nil _
  have hgd := hg.duties t w hd
  cases w with
  | pass p =>
    have hr : Reworks b ((dropWork t b (.pass p)).withWorks t []) t [] := reworks_withWorks ht rfl
    have hws : ∀ w, ((dropWork t b (.pass p)).withWorks t []).duty? t = some w → ∃ p', w = .pass p' := fun w hd => by
      rw [hr.duty?_inert hnil] at hd
      cases hd
    exact hb.of_same hg rfl (fun _ => hr.tally_pass hw hws (fun _ => rfl)) (fun _ => hr.tally_pass hw hws (fun _ => rfl))
      (fun _ entry' he => .inl ⟨entry', he, rfl⟩)
  | deliver started deadline token parcels =>
    obtain ⟨hframe, hrelieves⟩ := hg.dropWork_deliver hd
    have hr : Reworks b ((dropWork t b (.deliver started deadline token parcels)).withWorks t []) t [] := reworks_withWorks ht hframe.tasks
    have htally : ∀ f : Work α → Nat, ((dropWork t b (.deliver started deadline token parcels)).withWorks t []).tally f +
        f (.deliver started deadline token parcels) = b.tally f := fun f => by
      have hsum := hr.tally ht f
      rw [hd, hr.duty?_inert hnil, Option.elim_some, Option.elim_none] at hsum
      exact hsum
    have hleases : ((dropWork t b (.deliver started deadline token parcels)).withWorks t []).leases = b.leases := hframe.leases
    refine ⟨fun id entry' he' => ?_, fun l held hheld => ?_, fun l hl => ?_, fun l hl => ?_⟩
    · have hlt : id < b.pool.made.length := hrelieves.length ▸ (List.getElem?_eq_some_iff.1 he').1
      have he : b.pool.entry? id = some b.pool.made[id] := List.getElem?_eq_getElem hlt
      obtain ⟨entry, hentry, _, hcount⟩ := hrelieves.entries id _ he
      have heq : entry' = entry := Option.some.inj (he'.symm.trans hentry)
      have hsum := htally (Work.leased id)
      have hone : Work.leased id (.deliver started deadline token parcels) = leasedBy parcels id := rfl
      have hbefore := hb.counts id _ he
      rw [lent] at hbefore
      rw [heq, hcount, lent, hleases]
      omega
    · rw [hb.users l held (hleases ▸ hheld), Balancer.users, Balancer.users, ← htally (Work.uses l)]
      rfl
    · exact hb.spent l (hleases ▸ hl)
    · exact hb.settled l (hleases ▸ hl)
  | exportLeased lease batch wake =>
    obtain ⟨c, heq, hframe, hrelieves⟩ := hg.dropWork_exportLeased t lease batch wake
    rw [heq]
    have hr : Reworks b ((c.useLease lease (· - 1)).withWorks t []) t [] :=
      reworks_withWorks ht ((resettles_useLease c lease (· - 1)).tasks.trans hframe.tasks)
    refine hb.endUse hd hframe.leases (fun id entry' he' => ?_) rfl rfl ht hr (hr.duty?_inert hnil)
    have hlt : id < b.pool.made.length := hrelieves.length ▸ (List.getElem?_eq_some_iff.1 he').1
    obtain ⟨entry, hentry, _, hcount⟩ := hrelieves.entries id _ (List.getElem?_eq_getElem hlt)
    rw [he'] at hentry
    injection hentry with hentry
    exact ⟨_, List.getElem?_eq_getElem hlt, by rw [hentry, hcount, Nat.sub_zero]⟩
  | _ => cases hduty

end Steps

/-! ## Every action -/

theorem balanced_new (options : BalancerOptions) (adapter : Adapter α) (resolver : Resolver) (backends : Backends) :
    (new options adapter resolver backends).Balanced where
  counts := fun id entry he => by cases he
  users := fun lease held hheld => by cases hheld
  spent := fun l hl => by cases hl
  settled := fun l hl => by cases hl

theorem Balanced.change {b b' : Balancer α} (hb : b.Balanced) (hg : b.Grounded) {a : Action α} (h : Change b a b') :
    b'.Balanced := by
  cases h with
  | calm undisturbed => exact hb.undisturbed hg undisturbed
  | advance =>
    exact hb.of_same hg rfl (fun _ => tally_congr rfl _) (fun _ => tally_congr rfl _) (fun _ entry' he => .inl ⟨entry', he, rfl⟩)
  | pass works inert step =>
    exact hb.passStep hg works inert (stepPass_cases (hg.duties _ _ (duty?_of_works works rfl)) step)
  | deliver works inert step =>
    exact hb.deliverStep works inert (stepDeliver_cases (hg.duties _ _ (duty?_of_works works rfl)) step)
  | exportLeased works inert step =>
    obtain ⟨held, entry, _, _, hstep⟩ := stepExportLeased_cases hg step
    exact hb.exportStep works inert hstep
  | use held => exact hb.requestExport hg _ held
  | lease taken => exact hb.leaseAs hg taken
  | dropLease => exact hb.dropName _
  | notify =>
    obtain ⟨hframe, hrelieves⟩ := b.notify_spec _
    refine hb.of_same hg hframe.leases (fun _ => tally_congr hframe.tasks _) (fun _ => tally_congr hframe.tasks _)
      (fun _ entry' he' => ?_)
    obtain ⟨entry, he, -, hleases⟩ := hrelieves.entry_before he'
    exact .inl ⟨entry, he, hleases⟩
  | abandon works duty undisturbed =>
    have hd := duty?_of_works works duty
    exact (hb.abandon hg hd).undisturbed ((hg.dropWork hd).withWorks_nil _) undisturbed

end Balancer

theorem Run.balanced (r : Run α) : ∀ n, (r.state n).Balanced
  | 0 => Balancer.balanced_new _ _ _ _
  | n + 1 => (r.balanced n).change (r.grounded n) (r.change n)

end TelemetryRouter
