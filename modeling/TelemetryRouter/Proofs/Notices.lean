import TelemetryRouter.Proofs.Holders

/-!
# Counts and notices

The count of an exporter's leases is taken from only by somebody who has a lease of it, so it never falls short: each of the leases
that one action gives back is still counted when its turn comes (`Solvent`). Whoever counts the last lease down owes the notice that there
are none, until it is left. So an entry that is `Alert`, that is, has its notice or is owed one if it has no leases, stays so under everything
but the steps of the passes, and under these as long as they take no notice (`Change.heeds_or_pass`).
-/

namespace TelemetryRouter

variable {α : Type}

/-! ## Entries -/

namespace Entry

/-- Whether the notice that there are no leases was left or is owed if there are none. -/
def Alert (e : Entry) : Prop := e.leases = 0 → e.idleNotice = true ∨ 0 < e.owed

theorem Alert.owed_pos {e : Entry} (h : e.Alert) (hidle : e.leases = 0) (hnotice : e.idleNotice = false) : 0 < e.owed :=
  (h hidle).resolve_left (fun hthere => nomatch hnotice.symm.trans hthere)

/-- Whether an entry has become another by leases that were taken while it ran, leases that were given back, and what has nothing to do
with leases. One more notice is owed if there are no leases any more. -/
structure Heeds (new old : Entry) : Prop where
  state : new.state = old.state
  notice : new.idleNotice = old.idleNotice
  fewer : old.state ≠ .running → new.leases ≤ old.leases
  owed : old.state ≠ .running → new.owed = old.owed + if old.leases ≠ 0 ∧ new.leases = 0 then 1 else 0

namespace Heeds

variable {a b c : Entry}

/-- The stage, the count and the notices are as before. -/
theorem of_eq (hstate : b.state = a.state) (hleases : b.leases = a.leases) (hnotice : b.idleNotice = a.idleNotice)
    (howed : b.owed = a.owed) : b.Heeds a where
  state := hstate
  notice := hnotice
  fewer := fun _ => Nat.le_of_eq hleases
  owed := fun _ => by
    rw [if_neg (fun h => h.1 (hleases ▸ h.2)), howed]
    rfl

theorem refl (a : Entry) : a.Heeds a := of_eq rfl rfl rfl rfl

theorem trans (h : c.Heeds b) (h' : b.Heeds a) : c.Heeds a where
  state := h.state.trans h'.state
  notice := h.notice.trans h'.notice
  fewer := fun hstate => Nat.le_trans (h.fewer (h'.state ▸ hstate)) (h'.fewer hstate)
  owed := fun hstate => by
    have hfewer := h.fewer (h'.state ▸ hstate)
    have hfewer' := h'.fewer hstate
    rw [h.owed (h'.state ▸ hstate), h'.owed hstate]
    split_ifs <;> omega

theorem alert (h : b.Heeds a) (hstate : a.state ≠ .running) (ha : a.Alert) : b.Alert := fun hzero => by
  have howed := h.owed hstate
  by_cases hidle : a.leases = 0
  · rw [if_neg (fun h => h.1 hidle)] at howed
    rw [h.notice, howed]
    exact ha hidle
  · rw [if_pos ⟨hidle, hzero⟩] at howed
    exact .inr (howed ▸ Nat.succ_pos _)

end Heeds

/-- The lease that is given back last makes a notice owed. -/
theorem heeds_release (e : Entry) : e.release.Heeds e where
  state := rfl
  notice := rfl
  fewer := fun _ => Nat.sub_le _ _
  owed := fun _ => by
    by_cases hone : e.leases = 1
    · simp [release, hone]
    · have hmore : ¬ (e.leases ≠ 0 ∧ e.leases - 1 = 0) := by omega
      simp only [release, if_neg hone, if_neg hmore, Nat.add_zero]

theorem heeds_lease {e : Entry} (h : e.state = .running) : ({ e with leases := e.leases + 1 } : Entry).Heeds e where
  state := rfl
  notice := rfl
  fewer := fun hstate => absurd h hstate
  owed := fun hstate => absurd h hstate

theorem heeds_inProgress (e : Entry) (n : Nat) : ({ e with inProgress := n } : Entry).Heeds e := .of_eq rfl rfl rfl rfl

theorem notify_of_owed {e : Entry} (h : 0 < e.owed) : e.notify.idleNotice = true ∧ e.notify.owed + 1 = e.owed := by
  rw [notify, if_neg (Nat.ne_of_gt h)]
  refine ⟨?_, Nat.sub_add_cancel h⟩
  simp only [idleNotice, bne_iff_ne]
  split <;> omega

theorem idleNotice_notify (e : Entry) (h : e.idleNotice = true) : e.notify.idleNotice = true := by
  rcases Nat.eq_zero_or_pos e.owed with hnone | howed
  · rw [notify, if_pos hnone]
    exact h
  · exact (notify_of_owed howed).1

/-- A notice that was owed and is left leaves an entry alert. -/
theorem Alert.notify {e : Entry} (h : e.Alert) : e.notify.Alert := by
  rcases Nat.eq_zero_or_pos e.owed with hnone | howed
  · rw [Entry.notify, if_pos hnone]
    exact h
  · exact fun _ => .inl (notify_of_owed howed).1

end Entry

namespace Balancer

/-! ## What keeps entries alert -/

/-- Whether every entry has become another in this way. -/
def Heeds (b b' : Balancer α) : Prop :=
  ∀ id entry, b.pool.entry? id = some entry → ∃ entry', b'.pool.entry? id = some entry' ∧ entry'.Heeds entry

section Heeds

variable {b b' b'' : Balancer α}

theorem heeds_of_made (h : b'.pool.made = b.pool.made) : Heeds b b' := fun id entry he =>
  ⟨entry, by rw [Pool.entry?, h]; exact he, .refl entry⟩

theorem Heeds.trans (h : Heeds b b') (h' : Heeds b' b'') : Heeds b b'' := fun id entry he => by
  obtain ⟨mid, hmid, hheeds⟩ := h id entry he
  obtain ⟨new, hnew, hheeds'⟩ := h' id mid hmid
  exact ⟨new, hnew, hheeds'.trans hheeds⟩

theorem Touches.heeds {id : ExporterId} {old new : Entry} {said : List Occurrence} (h : Touches b b' id old new said)
    (hnew : new.Heeds old) : Heeds b b' := fun x entry he => by
  by_cases hx : x = id
  · subst hx
    obtain rfl := Option.some.inj (h.before.symm.trans he)
    exact ⟨new, h.after, hnew⟩
  · exact ⟨entry, (h.entries x hx).trans he, .refl entry⟩

theorem heeds_changeEntry (b : Balancer α) (id : ExporterId) {f : Entry → Entry} (hf : ∀ e, (f e).Heeds e) :
    Heeds b (b.changeEntry id f) := fun x entry he => by
  by_cases hx : x = id
  · subst hx
    exact ⟨f entry, (touches_changeEntry he f).after, hf entry⟩
  · exact ⟨entry, (List.getElem?_modify_ne f _ (Ne.symm hx)).trans he, .refl entry⟩

theorem heeds_release (b : Balancer α) (id : ExporterId) : Heeds b { b with pool := b.pool.release id } :=
  heeds_changeEntry b id Entry.heeds_release

/-- Giving back those leases of a list that are unused. -/
theorem heeds_foldl_releaseIfUnused (leases : List HeldLease) (b : Balancer α) : Heeds b (leases.foldl releaseIfUnused b) := by
  induction leases generalizing b with
  | nil => exact heeds_of_made rfl
  | cons l leases ih =>
    refine Heeds.trans ?_ (ih (b.releaseIfUnused l))
    unfold releaseIfUnused
    split
    · exact heeds_release b l.exporter
    · exact heeds_of_made rfl

theorem heeds_useLease (b : Balancer α) (lease : LeaseId) (f : Nat → Nat) : Heeds b (b.useLease lease f) :=
  heeds_foldl_releaseIfUnused (usesOf b.leases lease f) { b with leases := (usesOf b.leases lease f).map HeldLease.settle }

theorem heeds_dropName (b : Balancer α) (name : String) : Heeds b (b.dropName name) :=
  heeds_foldl_releaseIfUnused (unnamed b.leases name) { b with leases := (unnamed b.leases name).map HeldLease.settle }

theorem heeds_leaseAs {e : Endpoint} {name : String} (h : b.leaseAs e name = .ok b') : Heeds b b' := by
  unfold leaseAs at h
  split at h
  · cases h
  · rename_i id pool hlease
    obtain ⟨entry, _, hentry, hrunning, rfl⟩ := Pool.lease?_eq_some_iff.1 hlease
    obtain rfl := Except.ok.inj h
    have htouches := touches_changeEntry hentry (fun _ => { entry with leases := entry.leases + 1 })
    exact ((htouches.heeds (Entry.heeds_lease hrunning)).trans (heeds_dropName _ name)).trans (heeds_of_made rfl)

theorem heeds_abandonExport (b : Balancer α) (id : ExporterId) : Heeds b (b.abandonExport id) :=
  (heeds_changeEntry b id (fun e => e.heeds_inProgress (e.inProgress - 1))).trans
    (heeds_of_made (congrArg Pool.made (pool_logEntry _ id .exportAbandoned)))

theorem heeds_dropParcel (b : Balancer α) (p : Parcel α) : Heeds b (b.dropParcel p) := by
  unfold dropParcel
  split
  · exact heeds_release b _
  · exact (heeds_abandonExport b _).trans (heeds_release _ _)
  · exact heeds_of_made rfl

theorem heeds_foldl_dropParcel (parcels : List (Parcel α)) (b : Balancer α) : Heeds b (parcels.foldl dropParcel b) := by
  induction parcels generalizing b with
  | nil => exact heeds_of_made rfl
  | cons p parcels ih => exact (heeds_dropParcel b p).trans (ih (b.dropParcel p))

theorem heeds_dropWork (t : TaskId) (b : Balancer α) (w : Work α) : Heeds b (dropWork t b w) := by
  unfold dropWork
  cases w with
  | deliver started deadline token parcels => exact heeds_foldl_dropParcel parcels b
  | exportLeased lease batch wake =>
    refine Heeds.trans ?_ (heeds_useLease _ lease (· - 1))
    split
    · exact heeds_abandonExport b _
    · exact heeds_of_made rfl
  | resolution phase => cases phase <;> exact heeds_of_made rfl
  | _ => exact heeds_of_made rfl

theorem ParcelStep.heeds {e : Endpoint} {batch : Batch α} {cut : Option RouterError} {phase phase' : ParcelPhase}
    (h : ParcelStep b e batch cut phase b' phase') : Heeds b b' := by
  have hended : ∀ entry : Entry, ({ entry with inProgress := entry.inProgress - 1 } : Entry).release.Heeds entry := fun entry =>
    (Entry.heeds_release _).trans (entry.heeds_inProgress _)
  cases h with
  | unready _ => exact heeds_of_made rfl
  | lease _ running touches _ => exact touches.heeds (Entry.heeds_lease running)
  | cutEarly _ touches _ => exact touches.heeds (Entry.heeds_release _)
  | refuse _ touches _ => exact touches.heeds (Entry.heeds_release _)
  | call _ touches _ => exact touches.heeds (Entry.heeds_inProgress _ _)
  | cutLate _ touches _ => exact touches.heeds (hended _)
  | arrive _ _ _ touches _ _ => exact touches.heeds (hended _)
  | reject _ _ _ touches _ => exact touches.heeds (hended _)

/-- A step of an export through a lease held from outside. -/
theorem ExportStep.heeds {t : TaskId} {rest : List (Work α)} {lease : LeaseId} {batch : Batch α} {held : HeldLease} {entry : Entry}
    {wake : Option Nat} (h : ExportStep b t rest lease batch held entry wake b') : Heeds b b' := by
  cases h with
  | refuse _ _ touches => exact (touches.heeds (.refl entry)).trans (heeds_useLease _ lease (· - 1))
  | call _ _ touches => exact touches.heeds (entry.heeds_inProgress _)
  | finish _ _ _ touches => exact (touches.heeds (entry.heeds_inProgress _)).trans (heeds_useLease _ lease (· - 1))

/-- A notice for one exporter leaves the others as they are. -/
theorem entry?_notify (b : Balancer α) (id : ExporterId) {x : ExporterId} {entry : Entry} (he : b.pool.entry? x = some entry) :
    (b.notify id).pool.entry? x = some (if id = x then entry.notify else entry) := by
  rw [Pool.entry?] at he ⊢
  rw [notify, changeEntry, Pool.change, List.getElem?_modify, he]
  rfl

/-- Whatever happens but a step of a pass or a notice, entries that do not run get no more leases, and one more notice is owed to an entry
whose last lease is given back. -/
theorem Change.heeds_or_pass (hb : b.Grounded) {a : Action α} (h : Change b a b') :
    Heeds b b' ∨ (∃ id, a = .notify id ∧ b' = b.notify id) ∨
      ∃ t way p rest, a = .move t way ∧ b.works t = .pass p :: rest ∧ PassStep b t rest p b' := by
  cases h with
  | calm undisturbed => exact .inl (heeds_of_made (congrArg Core.made undisturbed.core))
  | advance => exact .inl (heeds_of_made rfl)
  | pass works _ step =>
    exact .inr (.inr ⟨_, _, _, _, rfl, works, stepPass_cases (hb.duties _ _ (duty?_of_works works rfl)) step⟩)
  | deliver works _ step =>
    refine .inl ?_
    cases stepDeliver_cases (hb.duties _ _ (duty?_of_works works rfl)) step with
    | parcel _ _ _ _ parcelStep => exact parcelStep.heeds
    | finish _ => exact heeds_of_made rfl
  | exportLeased _ _ step =>
    obtain ⟨_, _, _, _, hstep⟩ := stepExportLeased_cases hb step
    exact .inl hstep.heeds
  | @use lease batch _ =>
    exact .inl (heeds_useLease ((b.spawn []).withWorks b.nextTask [.exportLeased lease batch none]) lease (· + 1))
  | lease taken => exact .inl (heeds_leaseAs taken)
  | @dropLease name => exact .inl (heeds_dropName b name)
  | notify => exact .inr (.inl ⟨_, rfl, rfl⟩)
  | @abandon t w _ _ _ _ undisturbed =>
    exact .inl ((heeds_dropWork t b w).trans (heeds_of_made (congrArg Core.made undisturbed.core)))

/-- An exporter that is there before and after a change which touches one exporter is that one, or is as before. -/
theorem Touches.eq_or_eq {id x : ExporterId} {old new entry entry' : Entry} {said : List Occurrence} (h : Touches b b' id old new said)
    (he : b.pool.entry? x = some entry) (he' : b'.pool.entry? x = some entry') : (entry = old ∧ entry' = new) ∨ entry' = entry := by
  by_cases hx : x = id
  · subst hx
    exact .inl ⟨Option.some.inj (he.symm.trans h.before), Option.some.inj (he'.symm.trans h.after)⟩
  · exact .inr (Option.some.inj (he'.symm.trans ((h.entries x hx).trans he)))

/-- A step of a pass changes neither the count of an exporter's leases nor the notices that are owed. -/
theorem PassStep.owed_eq {t : TaskId} {rest : List (Work α)} {p : Pass} (h : PassStep b t rest p b') {id : ExporterId}
    {entry entry' : Entry} (he : b.pool.entry? id = some entry) (he' : b'.pool.entry? id = some entry') :
    entry'.leases = entry.leases ∧ entry'.owed = entry.owed := by
  have hsame : b'.pool.made = b.pool.made → entry'.leases = entry.leases ∧ entry'.owed = entry.owed := fun hmade => by
    rw [Pool.entry?, hmade] at he'
    obtain rfl := Option.some.inj (he'.symm.trans he)
    exact ⟨rfl, rfl⟩
  have htouched : ∀ {c : Balancer α} {x : ExporterId} {old new : Entry} {said : List Occurrence}, Touches b c x old new said →
      c.pool.entry? id = some entry' → new.leases = old.leases ∧ new.owed = old.owed →
        entry'.leases = entry.leases ∧ entry'.owed = entry.owed := fun htouches hc hnew => by
    rcases htouches.eq_or_eq he hc with ⟨rfl, rfl⟩ | rfl
    · exact hnew
    · exact ⟨rfl, rfl⟩
  cases h with
  | enter _ _ _ _ => exact hsame rfl
  | attempt _ _ _ _ step =>
    generalize Attempt.phase _ = phase at step
    generalize Attempt.phase _ = phase' at step
    cases step with
    | call same => exact hsame same.made
    | refuse same => exact hsame same.made
    | make made _ _ _ =>
      have hlt := (List.getElem?_eq_some_iff.1 he).1
      dsimp only [withWorks, Pool.entry?] at he'
      rw [made, List.getElem?_append_left hlt] at he'
      obtain rfl := Option.some.inj (he'.symm.trans he)
      exact ⟨rfl, rfl⟩
    | run touches _ => exact htouched touches he' ⟨rfl, rfl⟩
    | stumble touches _ => exact htouched touches he' ⟨rfl, rfl⟩
  | publish _ _ => exact hsame rfl
  | retire _ _ _ _ _ step =>
    generalize Retirement.phase _ = phase at step
    generalize Retirement.phase _ = phase' at step
    cases step with
    | mark touches _ => exact htouched touches he' ⟨rfl, rfl⟩
    | drain _ _ touches _ => exact htouched touches he' ⟨rfl, rfl⟩
    | close _ touches _ => exact htouched touches he' ⟨rfl, rfl⟩
    | giveUp _ _ touches _ => exact htouched touches he' ⟨rfl, rfl⟩
    | leave _ touches _ => exact htouched touches he' ⟨rfl, rfl⟩
  | @conclude added failed retirements _ _ =>
    obtain ⟨metrics, heq⟩ := concludePass_eq b t rest (b.passOutcome added failed retirements)
    exact hsame (by rw [heq]; rfl)

/-- An exporter that does not run any more is owed one more notice exactly when its last lease is given back, unless a notice is left. -/
theorem Change.owed_eq (hb : b.Grounded) {a : Action α} (h : Change b a b') {id : ExporterId} {entry entry' : Entry}
    (hother : a ≠ .notify id) (he : b.pool.entry? id = some entry) (hstate : entry.state ≠ .running)
    (he' : b'.pool.entry? id = some entry') :
    entry'.owed = entry.owed + if entry.leases ≠ 0 ∧ entry'.leases = 0 then 1 else 0 := by
  have hsame : entry'.leases = entry.leases → entry'.owed = entry.owed →
      entry'.owed = entry.owed + if entry.leases ≠ 0 ∧ entry'.leases = 0 then 1 else 0 := fun hleases howed => by
    rw [if_neg (fun h => h.1 (hleases ▸ h.2)), howed]
    rfl
  rcases h.heeds_or_pass hb with hheeds | ⟨id', rfl, rfl⟩ | ⟨t, way, p, rest, -, -, hstep⟩
  · obtain ⟨new, hnew, hentry⟩ := hheeds id entry he
    obtain rfl := Option.some.inj (hnew.symm.trans he')
    exact hentry.owed hstate
  · rw [b.entry?_notify id' he, if_neg (fun heq => hother (by rw [heq]))] at he'
    obtain rfl := Option.some.inj he'
    exact hsame rfl rfl
  · obtain ⟨hleases, howed⟩ := hstep.owed_eq he he'
    exact hsame hleases howed

end Heeds

/-! ## Leases that are given back are counted -/

/-- Whether a lease of an exporter is counted, so that giving it back takes nothing from a count of zero. -/
def Lends (b : Balancer α) (id : ExporterId) : Prop := ∃ entry, b.pool.entry? id = some entry ∧ 0 < entry.leases

/-- Whether each of the unused leases held from outside is counted when its turn comes to be given back. -/
def Repays (b : Balancer α) : Prop := ∀ before l after, b.leases = before ++ l :: after → l.isUnused = true →
  (before.foldl releaseIfUnused { b with leases := b.leases.map HeldLease.settle }).Lends l.exporter

/-- A call of an exporter with a batch begins, or ends, or is given up, or none of these. -/
inductive Calls (b : Balancer α) (id : ExporterId) (batch : Batch α) : Balancer α → Prop
  | none : Calls b id batch b
  | begun : Calls b id batch (b.callExport id batch).1
  | ended : Calls b id batch (b.concludeExport id batch).1
  | givenUp : Calls b id batch (b.abandonExport id)

/-- Whether whatever lease an action may give back is counted when its turn comes. -/
structure Solvent (b : Balancer α) : Prop where
  parcel : ∀ t, ∀ p ∈ b.parcelsOf t, ∀ id ∈ p.phase.lease?, ∀ c, Calls b id p.batch c → c.Lends id
  parcels : ∀ t before p after, b.parcelsOf t = before ++ p :: after → ∀ id ∈ p.phase.lease?, (before.foldl dropParcel b).Lends id
  dropName : ∀ name, Repays { b with leases := unnamed b.leases name }
  leaseAs : ∀ e id pool name, b.pool.lease? e = some (id, pool) →
    Repays { b with pool := pool, leases := unnamed b.leases name }
  useLease : ∀ lease held, b.leases[lease]? = some held → ∀ f batch c, Calls b held.exporter batch c →
    Repays { c with leases := usesOf b.leases lease f }

section Solvent

variable {b : Balancer α}

/-- Leases held from outside are counted in their turns if so many unused ones of each exporter are counted. -/
theorem repays_of_le (h : ∀ id, 0 < unusedOf b.leases id → ∃ entry, b.pool.entry? id = some entry ∧
    unusedOf b.leases id ≤ entry.leases) : b.Repays := by
  intro before l after hleases hunused
  have hcount : unusedOf before l.exporter < unusedOf b.leases l.exporter := by
    rw [hleases, unusedOf, unusedOf, List.countP_append, List.countP_cons_of_pos (by simp [hunused])]
    omega
  obtain ⟨entry, he, hle⟩ := h l.exporter (Nat.zero_lt_of_lt hcount)
  obtain ⟨pool, heq, _, _, _, hentries⟩ :=
    foldl_releaseIfUnused before { b with leases := b.leases.map HeldLease.settle }
  obtain ⟨owed, hpool⟩ := hentries l.exporter entry he
  rw [heq]
  exact ⟨_, hpool, by dsimp only; omega⟩

theorem Calls.counts {id : ExporterId} {entry : Entry} (he : b.pool.entry? id = some entry) {batch : Batch α} {c : Balancer α}
    (h : Calls b id batch c) {x : ExporterId} {old : Entry} (hold : b.pool.entry? x = some old) :
    ∃ new, c.pool.entry? x = some new ∧ new.leases = old.leases := by
  have htouched : ∀ {c : Balancer α} {new : Entry} {said : List Occurrence}, Touches b c id entry new said →
      new.leases = entry.leases → ∃ new, c.pool.entry? x = some new ∧ new.leases = old.leases := by
    intro c new said htouches hleases
    by_cases hx : x = id
    · subst hx
      obtain rfl := Option.some.inj (he.symm.trans hold)
      exact ⟨new, htouches.after, hleases⟩
    · exact ⟨old, (htouches.entries x hx).trans hold, rfl⟩
  cases h with
  | none => exact ⟨old, hold, rfl⟩
  | begun =>
    obtain ⟨-, -, ⟨_, -, htouches⟩ | ⟨_, -, htouches⟩⟩ := callExport_spec he batch
    · exact htouched htouches rfl
    · exact htouched htouches rfl
  | ended =>
    obtain ⟨-, -, ⟨-, -, htouches⟩ | ⟨_, -, htouches⟩⟩ := concludeExport_spec he batch
    · exact htouched htouches rfl
    · exact htouched htouches rfl
  | givenUp => exact htouched (abandonExport_spec he).2.2 rfl

theorem unusedOf_le_heldOf (leases : List HeldLease) (id : ExporterId) : unusedOf leases id ≤ heldOf leases id := by
  refine List.countP_mono_left (fun l _ hl => ?_)
  unfold HeldLease.isUnused at hl
  simp only [Bool.and_eq_true] at hl ⊢
  exact ⟨hl.1.2, hl.2⟩

/-- An exporter with live leases was made, and counts them. -/
theorem Balanced.entry_of_lent (hb : b.Balanced) (hg : b.Grounded) {id : ExporterId} (h : 0 < b.lent id) :
    ∃ entry, b.pool.entry? id = some entry ∧ entry.leases = b.lent id := by
  cases he : b.pool.entry? id with
  | none =>
    rw [hg.lent_eq_zero he] at h
    exact absurd h (Nat.lt_irrefl 0)
  | some entry => exact ⟨entry, rfl, hb.counts id entry he⟩

/-- The unused among leases of which as many are live as of those held from outside are counted. -/
theorem Balanced.unused_counted (hb : b.Balanced) (hg : b.Grounded) {leases : List HeldLease} {id : ExporterId}
    (hleases : heldOf leases id = heldOf b.leases id) (h : 0 < unusedOf leases id) :
    ∃ entry, b.pool.entry? id = some entry ∧ unusedOf leases id ≤ entry.leases := by
  have hle : unusedOf leases id ≤ b.lent id := by
    have hheld := unusedOf_le_heldOf leases id
    rw [lent]
    omega
  obtain ⟨entry, he, hcount⟩ := hb.entry_of_lent hg (Nat.lt_of_lt_of_le h hle)
  exact ⟨entry, he, hcount ▸ hle⟩

theorem Balanced.leasedBy_le (hb : b.Balanced) (hg : b.Grounded) {t : TaskId} {id : ExporterId}
    (h : 0 < leasedBy (b.parcelsOf t) id) :
    ∃ entry, b.pool.entry? id = some entry ∧ leasedBy (b.parcelsOf t) id ≤ entry.leases := by
  obtain ⟨p, hp, _⟩ := List.countP_pos_iff.1 h
  obtain ⟨started, deadline, token, hd⟩ := duty?_of_mem_parcelsOf hp
  have hle : leasedBy (b.parcelsOf t) id ≤ b.lent id :=
    Nat.le_trans (le_tally hd (Work.leased id)) (Nat.le_add_right _ _)
  obtain ⟨entry, he, hcount⟩ := hb.entry_of_lent hg (Nat.lt_of_lt_of_le h hle)
  exact ⟨entry, he, hcount ▸ hle⟩

/-- Where the counts tell the truth, no lease is given back that is not counted. -/
theorem Balanced.solvent (hb : b.Balanced) (hg : b.Grounded) : b.Solvent where
  parcel := fun t p hp id hid c hcalls => by
    have hpos : 0 < leasedBy (b.parcelsOf t) id := List.countP_pos_iff.2 ⟨p, hp, by simpa using hid⟩
    obtain ⟨entry, he, hle⟩ := hb.leasedBy_le hg hpos
    obtain ⟨new, hnew, hleases⟩ := hcalls.counts he he
    exact ⟨new, hnew, by omega⟩
  parcels := fun t before p after hparcels id hid => by
    have hcount : leasedBy before id < leasedBy (b.parcelsOf t) id := by
      rw [hparcels, leasedBy, leasedBy, List.countP_append, List.countP_cons_of_pos (by simpa using hid)]
      omega
    obtain ⟨entry, he, hle⟩ := hb.leasedBy_le hg (Nat.zero_lt_of_lt hcount)
    have hmade : ∀ q ∈ before, ∀ x ∈ q.phase.lease?, ∃ entry, b.pool.entry? x = some entry := by
      intro q hq
      have hmem : q ∈ b.parcelsOf t := hparcels ▸ List.mem_append_left _ hq
      obtain ⟨started, deadline, token, hd⟩ := duty?_of_mem_parcelsOf hmem
      exact entry?_of_parcel (hg.duties t _ hd) hmem
    obtain ⟨entry', he', _, hleases⟩ := (foldl_dropParcel_spec before hmade).2.entries id entry he
    exact ⟨entry', he', by omega⟩
  dropName := fun name => repays_of_le (fun id h => hb.unused_counted hg (heldOf_unnamed b.leases name id) h)
  leaseAs := fun e id pool name hlease => repays_of_le (fun x h => by
    obtain ⟨old, he, hle⟩ := hb.unused_counted hg (heldOf_unnamed b.leases name x) h
    obtain ⟨entry, _, hentry, _, rfl⟩ := Pool.lease?_eq_some_iff.1 hlease
    have htouches := touches_changeEntry hentry (fun _ => { entry with leases := entry.leases + 1 })
    by_cases hx : x = id
    · subst hx
      obtain rfl := Option.some.inj (hentry.symm.trans he)
      exact ⟨_, htouches.after, Nat.le_succ_of_le hle⟩
    · exact ⟨old, (htouches.entries x hx).trans he, hle⟩)
  useLease := fun lease held hheld f batch c hcalls => repays_of_le (fun id h => by
    obtain ⟨e, hmade⟩ := hg.leases held (List.mem_of_getElem? hheld)
    obtain ⟨entry, he, _⟩ := entry?_of_endpointOf? hmade
    obtain ⟨old, hold, hle⟩ := hb.unused_counted hg (heldOf_usesOf b.leases lease f id) h
    obtain ⟨new, hnew, hleases⟩ := hcalls.counts he hold
    exact ⟨new, hnew, hleases ▸ hle⟩)

end Solvent

end Balancer

/-- In every state of a run, no lease can be given back that is not counted. -/
theorem Run.solvent (r : Run α) (n : Nat) : (r.state n).Solvent := (r.balanced n).solvent (r.grounded n)

end TelemetryRouter
