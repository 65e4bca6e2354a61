import TelemetryRouter.Proofs.Verdicts

/-!
# When leases go back

A delivery goes on parcel by parcel (`Run.Pursuit`), and a parcel keeps its lease from one step of the run to the next until its delivery
ends in its own way or the whole dispatch is given up. In both cases an export that is at work has ended or was dropped before the
lease goes back (`Run.keeps_or_frees`).
-/

namespace TelemetryRouter

variable {α : Type}

namespace Balancer

variable {b : Balancer α} {t : TaskId}

theorem parcelsOf_of_task? {started : Nat} {deadline : Option Instant} {token : Option String} {ps : List (Parcel α)}
    {outcome : Outcome α} (ht : b.task? t = some ⟨[.deliver started deadline token ps], outcome⟩) : b.parcelsOf t = ps :=
  parcelsOf_of_duty? (duty?_of_works (works_of_task? ht) rfl)

theorem Grounded.made_of_mem (hb : b.Grounded) {p : Parcel α} (hp : p ∈ b.parcelsOf t) :
    ∀ id ∈ p.phase.lease?, ∃ entry, b.pool.entry? id = some entry := by
  obtain ⟨started, deadline, token, hd⟩ := duty?_of_mem_parcelsOf hp
  exact entry?_of_parcel (hb.duties t _ hd) hp

end Balancer

namespace Run

variable (r : Run α)

/-! ## One step of a delivery -/

/-- What a step of a run does with a task that delivers parcels. -/
inductive Pursuit (t m started : Nat) (deadline : Option Instant) (token : Option String) : Prop
  | abandoned (action : r.action m = .abandon t) (next : (r.state (m + 1)).task? t = some ⟨[], .done⟩)
  | finished {way : Nat} (move : r.action m = .move t way) (ended : (r.parcels t m).all Parcel.isOver = true)
    (events : (r.state (m + 1)).events = (r.state m).events)
    (next : (r.state (m + 1)).task? t = some ⟨[], .dispatched (Parcel.result (r.parcels t m))⟩)
  | blocked {way : Nat} (move : r.action m = .move t way) (same : r.state (m + 1) = r.state m)
    (waits : ∀ p, (r.parcels t m)[way]? = some p → (r.state m).stepParcel started deadline token p = none)
  | stepped {way : Nat} {p p' : Parcel α} {c : Balancer α} (move : r.action m = .move t way) (at_way : (r.parcels t m)[way]? = some p)
    (step : (r.state m).stepParcel started deadline token p = some (c, p')) (pool : (r.state (m + 1)).pool = c.pool)
    (events : (r.state (m + 1)).events = c.events)
    (next : (r.state (m + 1)).task? t = some ⟨[.deliver started deadline token ((r.parcels t m).set way p')], .done⟩)
  | aside (unmoved : ∀ way, r.action m ≠ .move t way) (next : (r.state (m + 1)).task? t = (r.state m).task? t)

variable {r} {t m started : Nat} {deadline : Option Instant} {token : Option String}

theorem pursuit (ht : (r.state m).task? t = some ⟨[.deliver started deadline token (r.parcels t m)], .done⟩) :
    r.Pursuit t m started deadline token := by
  have hworks := Balancer.works_of_task? ht
  by_cases habandon : r.action m = .abandon t
  · refine .abandoned habandon ?_
    rw [state, habandon, Balancer.perform, Balancer.task?_abandon_self, ht]
    rfl
  by_cases hmove : ∃ way, r.action m = .move t way
  · obtain ⟨way, hmove⟩ := hmove
    have hdeliver : (r.state m).move t way = (r.state m).stepDeliver t [] started deadline token (r.parcels t m) way := by
      rw [Balancer.move, hworks]
      rfl
    unfold Balancer.stepDeliver at hdeliver
    split at hdeliver
    · rename_i hover
      have hnext : r.state (m + 1) = (r.state m).finish t [] (.dispatched (Parcel.result (r.parcels t m))) := by
        rw [state, hmove, Balancer.perform, hdeliver]
        rfl
      exact .finished hmove hover (by rw [hnext]; rfl) (hnext ▸ task?_finish_self ht rfl)
    · cases hstep : ((r.parcels t m)[way]?).bind ((r.state m).stepParcel started deadline token ·) with
      | none =>
        rw [hstep] at hdeliver
        refine .blocked hmove (state_succ_of_blocked hmove hdeliver) (fun p hp => ?_)
        rwa [hp] at hstep
      | some stepped =>
        obtain ⟨c, p'⟩ := stepped
        obtain ⟨p, hp, hparcel⟩ := Option.bind_eq_some_iff.1 hstep
        have hnext : r.state (m + 1) = c.withWorks t [.deliver started deadline token ((r.parcels t m).set way p')] := by
          rw [state, hmove, Balancer.perform, hdeliver, hstep]
          rfl
        have hseen : p ∈ (r.state m).parcelsOf t := Balancer.parcelsOf_of_task? ht ▸ List.mem_of_getElem? hp
        have hmade := (r.grounded m).made_of_mem hseen
        obtain ⟨-, -, hframe, -⟩ := Balancer.stepParcel_spec hmade hparcel
        refine .stepped hmove hp hparcel (by rw [hnext]; rfl) (by rw [hnext]; rfl) ?_
        rw [hnext]
        exact task?_withWorks_self ht hframe.tasks
  · have hlt : t < (r.state m).tasks.length := (List.getElem?_eq_some_iff.1 ht).1
    exact .aside (fun way h => hmove ⟨way, h⟩) (r.task?_succ hlt (fun way h => hmove ⟨way, h⟩) habandon)

/-! ## Calls -/

/-- What is said in a step that has brought a run to where another step would have. -/
theorem says_iff_of_events {c : Balancer α} {said : List (ExporterId × Occurrence)} (htells : Balancer.Tells (r.state m) c said)
    (hevents : (r.state (m + 1)).events = c.events) (id : ExporterId) (what : Occurrence) : r.Says id m what ↔ (id, what) ∈ said := by
  refine r.says_iff_of_tells (fun id' => ?_) id what
  rw [Balancer.history_congr hevents]
  exact htells id'

/-- A parcel calls its exporter only if its token has not fired and its deadline is not reached. The exporter that takes the call is at
work on it from then on. -/
theorem calls_of_says (ht : (r.state m).task? t = some ⟨[.deliver started deadline token (r.parcels t m)], .done⟩) {i : Nat}
    (hmove : r.action m = .move t i) {id : ExporterId} {what : Occurrence} (hsaid : r.Says id m what)
    (hcall : what.isExportCall = true) :
    ¬ (r.state m).Fired token ∧ ¬ (r.state m).Expired deadline ∧ ∀ items, what = .exporting items →
      ∃ p since wake, ((r.state (m + 1)).parcelsOf t)[i]? = some p ∧ p.phase = .exporting id since wake := by
  have hsilent : ¬ (r.state (m + 1)).events = (r.state m).events := fun hsame => not_says_of_events hsame _ _ hsaid
  cases pursuit ht with
  | abandoned action _ =>
    rw [hmove] at action
    cases action
  | finished _ _ events _ => exact absurd events hsilent
  | blocked _ same _ => exact absurd (by rw [same]) hsilent
  | aside unmoved _ => exact absurd hmove (unmoved i)
  | @stepped way p p' c move at_way step pool events next =>
    obtain rfl : i = way := by
      rw [hmove] at move
      injection move
    have hseen : ((r.state (m + 1)).parcelsOf t)[i]? = some p' := by
      rw [Balancer.parcelsOf_of_task? next, List.getElem?_set_self (List.getElem?_eq_some_iff.1 at_way).1]
    have hturning : Balancer.Turning (r.state m) started deadline token p _ := Balancer.turning_stepParcel
      ((r.grounded m).made_of_mem (Balancer.parcelsOf_of_task? ht ▸ List.mem_of_getElem? at_way))
    rw [step] at hturning
    cases hturning with
    | unready _ _ => exact absurd events hsilent
    | lease _ _ touches =>
      have hmem := (says_iff_of_events touches.tells events id what).1 hsaid
      cases hmem
    | @call _ id' since wake _ _ _ quiet touches =>
      have hmem := (says_iff_of_events touches.tells events id what).1 hsaid
      obtain ⟨rfl, rfl⟩ : id = id' ∧ what = .exporting p.batch.itemCount := by simpa using hmem
      exact ⟨fun hfired => quiet (.inl hfired), fun hreached => quiet (.inr (.inl hreached)),
        fun _ _ => ⟨_, since, wake, hseen, rfl⟩⟩
    | @decide _ id' _ said lease verdict back =>
      obtain ⟨d, old, new, htouches, -, -, hevents⟩ := back
      have hmem := (says_iff_of_events htouches.tells (events.trans hevents) id what).1 hsaid
      obtain ⟨-, hwhat⟩ : id' = id ∧ what ∈ said := by simpa [and_comm, eq_comm] using hmem
      obtain ⟨hunfired, hunexpired⟩ := verdict.of_isExportCall hwhat hcall
      refine ⟨hunfired, hunexpired, ?_⟩
      rintro items rfl
      exact absurd hwhat ((verdict.closing lease).not_exporting items)

/-! ## Leases -/

variable (r) in
/-- How the lease of a parcel goes back in a step of a run, and what is said of the exporter in the step before it does. -/
inductive Frees (t i m : Nat) (id : ExporterId) (said : List Occurrence) : Prop
  | move (move : r.action m = .move t i) (back : Balancer.GivesBack (r.state m) (r.state (m + 1)) id said)
  | drop {before after : List (Parcel α)} {p : Parcel α} (abandon : r.action m = .abandon t)
    (split : (r.state m).parcelsOf t = before ++ p :: after) (at_way : before.length = i)
    (back : Balancer.GivesBack (before.foldl Balancer.dropParcel (r.state m))
      ((before.foldl Balancer.dropParcel (r.state m)).dropParcel p) id said)
    (next : r.state (m + 1) =
      (after.foldl Balancer.dropParcel ((before.foldl Balancer.dropParcel (r.state m)).dropParcel p)).withWorks t [])

/-- Giving a dispatch up gives every lease of it back, after the export was given up. -/
theorem frees_of_abandon (ht : (r.state m).task? t = some ⟨[.deliver started deadline token (r.parcels t m)], .done⟩)
    (habandon : r.action m = .abandon t) {i : Nat} {p : Parcel α} {id : ExporterId} (hp : (r.parcels t m)[i]? = some p)
    (hlease : p.phase.lease? = some id) : r.Frees t i m id p.phase.cutOff := by
  have hseen := Balancer.parcelsOf_of_task? ht
  obtain ⟨hi, rfl⟩ := List.getElem?_eq_some_iff.1 hp
  have hsplit : r.parcels t m = (r.parcels t m).take i ++ (r.parcels t m)[i] :: (r.parcels t m).drop (i + 1) := by
    rw [← List.drop_eq_getElem_cons hi, List.take_append_drop]
  have hmade : ∀ q ∈ r.parcels t m, ∀ id ∈ q.phase.lease?, ∃ entry, (r.state m).pool.entry? id = some entry :=
    fun q hq => (r.grounded m).made_of_mem (hseen ▸ hq)
  obtain ⟨entry, he⟩ := hmade _ (List.getElem_mem hi) id hlease
  obtain ⟨-, hrelieves⟩ := Balancer.foldl_dropParcel_spec ((r.parcels t m).take i) (fun q hq => hmade q (List.mem_of_mem_take hq))
  obtain ⟨entry', he', -⟩ := hrelieves.entries id entry he
  refine .drop habandon (hseen.trans hsplit) (List.length_take_of_le hi.le) (Balancer.givesBack_dropParcel hlease he') ?_
  have hnext : r.state (m + 1) = ((r.parcels t m).foldl Balancer.dropParcel (r.state m)).withWorks t [] := by
    rw [state, habandon, Balancer.perform, Balancer.abandon, Balancer.works_of_task? ht]
    rfl
  rw [hnext]
  conv_lhs => rw [hsplit]
  rw [List.foldl_append, List.foldl_cons]

/-- A parcel with a lease has it after a step as well, or the step has given it back, after the export had ended. A parcel whose exporter
is at work stays as it is until then. -/
theorem keeps_or_frees (ht : (r.state m).task? t = some ⟨[.deliver started deadline token (r.parcels t m)], .done⟩) {i : Nat}
    {p : Parcel α} {id : ExporterId} (hp : (r.parcels t m)[i]? = some p) (hlease : p.phase.lease? = some id) :
    (∃ p', ((r.state (m + 1)).parcelsOf t)[i]? = some p' ∧ p'.phase.lease? = some id ∧
      (p' = p ∨ ∃ since, p.phase = .leased id since)) ∨ ∃ said, p.phase.Closing said ∧ r.Frees t i m id said := by
  have hseen := Balancer.parcelsOf_of_task? ht
  cases pursuit ht with
  | abandoned action _ => exact .inr ⟨_, Balancer.closing_cutOff hlease, frees_of_abandon ht action hp hlease⟩
  | finished _ ended _ _ =>
    have hover := lease?_of_isOver (List.all_eq_true.1 ended p (List.mem_of_getElem? hp))
    rw [hlease] at hover
    cases hover
  | blocked _ same _ => exact .inl ⟨p, by rwa [same, hseen], hlease, .inl rfl⟩
  | aside _ next => exact .inl ⟨p, by rwa [Balancer.parcelsOf_of_task? (next.trans ht)], hlease, .inl rfl⟩
  | @stepped way q q' c move at_way step pool events next =>
    rw [Balancer.parcelsOf_of_task? next]
    by_cases hway : way = i
    · subst hway
      obtain rfl : q = p := Option.some.inj (at_way.symm.trans hp)
      have hturning : Balancer.Turning (r.state m) started deadline token q _ :=
        Balancer.turning_stepParcel ((r.grounded m).made_of_mem (hseen ▸ List.mem_of_getElem? hp))
      rw [step] at hturning
      cases hturning with
      | unready phase _ =>
        rw [phase] at hlease
        cases hlease
      | lease phase _ _ =>
        rw [phase] at hlease
        cases hlease
      | @call _ id' since _ _ _ phase _ _ =>
        obtain rfl : id' = id := by
          rw [phase] at hlease
          exact Option.some.inj hlease
        refine .inl ⟨_, List.getElem?_set_self (List.getElem?_eq_some_iff.1 hp).1, rfl, .inr ⟨since, phase⟩⟩
      | @decide _ id' _ said lease verdict back =>
        obtain rfl : id' = id := Option.some.inj (lease.symm.trans hlease)
        exact .inr ⟨said, verdict.closing hlease, .move move (back.congr pool events)⟩
    · exact .inl ⟨p, by rwa [List.getElem?_set_ne hway], hlease, .inl rfl⟩

end Run

end TelemetryRouter
