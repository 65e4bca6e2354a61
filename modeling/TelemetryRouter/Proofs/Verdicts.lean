import TelemetryRouter.Proofs.Cancellations
import TelemetryRouter.Proofs.Parcels

/-!
# What ends a delivery

Three things can end the delivery of a parcel that has its lease: its token fires, its deadline is reached, or its exporter answers. If
several are there at once the token comes before the deadline, and the deadline before the exporter (`Balancer.Verdict`). As long as none
is there the delivery goes on, and the first step that finds one ends it (`Balancer.turning_stepParcel`). The lease goes back at the end
of that step, once the export has ended or was dropped.
-/

namespace TelemetryRouter

variable {α : Type}

/-- Whether an occurrence is the end of an export: well, in failure, or because it was dropped. -/
def Occurrence.endsExport : Occurrence → Bool
  | .exported => true
  | .exportFailed => true
  | .exportAbandoned => true
  | _ => false

/-- What is said of its exporter when the delivery of a parcel is cut off: that the export is given up, once it was called. -/
def ParcelPhase.cutOff : ParcelPhase → List Occurrence
  | .exporting _ _ _ => [.exportAbandoned]
  | _ => []

/-- What is said of its exporter when the delivery of a parcel ends that has a lease: nothing of an end as long as the export was not at
work, and its end once it was. -/
inductive ParcelPhase.Closing : ParcelPhase → List Occurrence → Prop
  | uncalled {id : ExporterId} {since : Nat} : Closing (.leased id since) []
  | refused {id : ExporterId} {since : Nat} : Closing (.leased id since) [.exportRefused]
  | ended {id : ExporterId} {since wake : Nat} {what : Occurrence} (ends : what.endsExport = true) :
    Closing (.exporting id since wake) [what]

/-- The end of a delivery is no call that an exporter takes. -/
theorem ParcelPhase.Closing.not_exporting {phase : ParcelPhase} {said : List Occurrence} (h : phase.Closing said) (items : Nat) :
    .exporting items ∉ said := by
  cases h with
  | uncalled => exact List.not_mem_nil
  | refused => simp
  | ended ends =>
    intro hmem
    rw [← List.mem_singleton.1 hmem] at ends
    cases ends

namespace Instant

/-- A timer for an instant has gone off exactly when the clock is not before the instant. -/
theorem reached_iff (d : Instant) (now : Nat) : reached d now = true ↔ d ≤ ofTick now := by
  have key : ∀ n : Nat, (n + 999999) / 1000000 ≤ now ↔ n ≤ now * 1000000 := fun n => by omega
  rw [reached, decide_eq_true_iff]
  exact key d

/-- The milliseconds up to an instant that is reached fit sixty-four bits if the clock does. -/
theorem toNat_millisecondsSince {d started : Instant} {now : Nat} (hreached : d ≤ ofTick now) (hnow : now < 2 ^ 64) :
    (UInt64.ofNat (millisecondsSince d started)).toNat = (d - started) / 1000000 := by
  have key : ∀ n m : Nat, n ≤ now * 1000000 → (n - m) / 1000000 < 2 ^ 64 := fun n m h => by omega
  rw [millisecondsSince, UInt64.toNat_ofNat']
  exact Nat.mod_eq_of_lt (key d started hreached)

end Instant

namespace Balancer

/-! ## What is due -/

section Due

variable (b : Balancer α)

/-- Whether a deadline is reached. Without a deadline there is none to be reached. -/
def Expired (deadline : Option Instant) : Prop := ∃ d, deadline = some d ∧ d ≤ Instant.ofTick b.now

/-- Whether the pool has a running exporter for an endpoint, and which. -/
def Offers (e : Endpoint) (id : ExporterId) : Prop :=
  ∃ entry, b.pool.find? e = some id ∧ b.pool.entry? id = some entry ∧ entry.state = .running

/-- What the exporter that a parcel has leased answers, once it does, and what is said of the exporter then: it refuses the call of it, or
its work on the batch comes to its end, well or not. -/
inductive Answered (p : Parcel α) : Except RouterError Unit → List Occurrence → Prop
  /-- The call is refused. -/
  | refused {id : ExporterId} {since : Nat} {error : RouterError} (phase : p.phase = .leased id since)
    (refusal : (b.callExport id p.batch).2 = .error error) : Answered p (.error error) [.exportRefused]
  /-- The batch was taken. -/
  | taken {id : ExporterId} {since wake : Nat} (phase : p.phase = .exporting id since wake) (due : wake ≤ b.now)
    (success : (b.concludeExport id p.batch).2 = .ok ()) : Answered p (.ok ()) [.exported]
  /-- The work on the batch has failed. -/
  | failed {id : ExporterId} {since wake : Nat} {error : RouterError} (phase : p.phase = .exporting id since wake)
    (due : wake ≤ b.now) (failure : (b.concludeExport id p.batch).2 = .error error) : Answered p (.error error) [.exportFailed]

/-- Whether anything is there that ends the delivery of a parcel with a lease. -/
def Due (deadline : Option Instant) (token : Option String) (p : Parcel α) : Prop :=
  b.Fired token ∨ b.Expired deadline ∨ ∃ result said, b.Answered p result said

/-- What the delivery of a parcel that was dispatched at a tick ends with, and what is said of its exporter then. -/
inductive Verdict (started : Nat) (deadline : Option Instant) (token : Option String) (p : Parcel α) :
    Except RouterError Unit → List Occurrence → Prop
  | cancelled (fired : b.Fired token) : Verdict started deadline token p (.error .cancelled) p.phase.cutOff
  | expired {d : Instant} {milliseconds : UInt64} (unfired : ¬ b.Fired token) (deadline_eq : deadline = some d)
    (reached : d ≤ Instant.ofTick b.now)
    (span : milliseconds = UInt64.ofNat ((d - Instant.ofTick started) / 1000000))
    (exact_span : b.now < 2 ^ 64 → milliseconds.toNat = (d - Instant.ofTick started) / 1000000) :
    Verdict started deadline token p (.error (.timeout milliseconds)) p.phase.cutOff
  | answered {result : Except RouterError Unit} {said : List Occurrence} (unfired : ¬ b.Fired token)
    (unexpired : ¬ b.Expired deadline) (answer : b.Answered p result said) : Verdict started deadline token p result said

variable {b}

theorem any_contains_iff (token : Option String) : token.any b.cancelledTokens.contains = true ↔ b.Fired token := by
  rw [Option.any_eq_true]
  simp only [Fired, List.contains_iff_mem]

/-- What interrupts a delivery is the token that has fired, or else the deadline that is reached. -/
theorem interruption?_eq_some_iff {started : Nat} {deadline : Option Instant} {token : Option String} {error : RouterError} :
    b.interruption? started deadline token = some error ↔
      b.Fired token ∧ error = .cancelled ∨
      ¬ b.Fired token ∧ ∃ d, deadline = some d ∧ d ≤ Instant.ofTick b.now ∧
        error = .timeout (UInt64.ofNat ((d - Instant.ofTick started) / 1000000)) := by
  unfold interruption?
  split
  · rename_i hfired
    rw [any_contains_iff] at hfired
    simp [hfired, eq_comm]
  · rename_i hfired
    rw [any_contains_iff] at hfired
    cases deadline with
    | none => simp [hfired]
    | some d =>
      dsimp only
      split
      · rename_i hreached
        rw [Instant.reached_iff] at hreached
        simp [hfired, hreached, Instant.millisecondsSince, eq_comm]
      · rename_i hreached
        rw [Instant.reached_iff] at hreached
        simp [hfired, hreached]

/-- Nothing interrupts a delivery exactly when its token has not fired and its deadline is not reached. -/
theorem interruption?_eq_none_iff {started : Nat} {deadline : Option Instant} {token : Option String} :
    b.interruption? started deadline token = none ↔ ¬ b.Fired token ∧ ¬ b.Expired deadline := by
  constructor
  · intro hnone
    have hnot : ∀ error, b.interruption? started deadline token ≠ some error := fun error h => by rw [hnone] at h; cases h
    have hunfired : ¬ b.Fired token := fun hfired => hnot _ (interruption?_eq_some_iff.2 (.inl ⟨hfired, rfl⟩))
    exact ⟨hunfired, fun ⟨d, hd, hreached⟩ => hnot _ (interruption?_eq_some_iff.2 (.inr ⟨hunfired, d, hd, hreached, rfl⟩))⟩
  · rintro ⟨hunfired, hunexpired⟩
    refine Option.eq_none_iff_forall_ne_some.2 (fun error h => ?_)
    rcases interruption?_eq_some_iff.1 h with ⟨hfired, -⟩ | ⟨-, d, hd, hreached, -⟩
    · exact hunfired hfired
    · exact hunexpired ⟨d, hd, hreached⟩

theorem verdict_of_interruption? {started : Nat} {deadline : Option Instant} {token : Option String} {error : RouterError}
    (h : b.interruption? started deadline token = some error) (p : Parcel α) :
    b.Verdict started deadline token p (.error error) p.phase.cutOff := by
  rcases interruption?_eq_some_iff.1 h with ⟨hfired, rfl⟩ | ⟨hunfired, d, hd, hreached, rfl⟩
  · exact .cancelled hfired
  · exact .expired hunfired hd hreached rfl (Instant.toNat_millisecondsSince hreached)

/-- Nothing is due while the token has not fired, the deadline is not reached and the exporter does not answer. -/
theorem not_due {deadline : Option Instant} {token : Option String} {p : Parcel α} (hunfired : ¬ b.Fired token)
    (hunexpired : ¬ b.Expired deadline) (hunanswered : ∀ result said, ¬ b.Answered p result said) : ¬ b.Due deadline token p := by
  rintro (hfired | hexpired | ⟨result, said, hanswered⟩)
  · exact hunfired hfired
  · exact hunexpired hexpired
  · exact hunanswered result said hanswered

/-- An exporter that takes a call does not answer it yet. -/
theorem not_answered_of_leased {p : Parcel α} {id : ExporterId} {since wake : Nat} (hphase : p.phase = .leased id since)
    (hcall : (b.callExport id p.batch).2 = .ok wake) (result : Except RouterError Unit) (said : List Occurrence) :
    ¬ b.Answered p result said := by
  rintro (⟨phase, refusal⟩ | ⟨phase, -, -⟩ | ⟨phase, -, -⟩)
  · cases hphase.symm.trans phase
    cases hcall.symm.trans refusal
  · cases hphase.symm.trans phase
  · cases hphase.symm.trans phase

/-- An exporter does not answer before its work comes to its end. -/
theorem not_answered_of_exporting {p : Parcel α} {id : ExporterId} {since wake : Nat} (hphase : p.phase = .exporting id since wake)
    (hwake : ¬ wake ≤ b.now) (result : Except RouterError Unit) (said : List Occurrence) : ¬ b.Answered p result said := by
  rintro (⟨phase, -⟩ | ⟨phase, due, -⟩ | ⟨phase, due, -⟩)
  · cases hphase.symm.trans phase
  · cases hphase.symm.trans phase
    exact hwake due
  · cases hphase.symm.trans phase
    exact hwake due

theorem Verdict.due {started : Nat} {deadline : Option Instant} {token : Option String} {p : Parcel α} {result : Except RouterError Unit}
    {said : List Occurrence} (h : b.Verdict started deadline token p result said) : b.Due deadline token p := by
  cases h with
  | cancelled fired => exact .inl fired
  | expired _ deadline_eq reached _ _ => exact .inr (.inl ⟨_, deadline_eq, reached⟩)
  | answered _ _ answer => exact .inr (.inr ⟨_, _, answer⟩)

/-- What is said when the delivery of a parcel is cut off closes the delivery. -/
theorem closing_cutOff {phase : ParcelPhase} {id : ExporterId} (hlease : phase.lease? = some id) : phase.Closing phase.cutOff := by
  cases phase with
  | leased id since => exact .uncalled
  | exporting id since wake => exact .ended rfl
  | _ => cases hlease

theorem Verdict.closing {started : Nat} {deadline : Option Instant} {token : Option String} {p : Parcel α} {id : ExporterId}
    {result : Except RouterError Unit} {said : List Occurrence} (h : b.Verdict started deadline token p result said)
    (hlease : p.phase.lease? = some id) : p.phase.Closing said := by
  cases h with
  | cancelled _ => exact closing_cutOff hlease
  | expired _ _ _ _ _ => exact closing_cutOff hlease
  | answered _ _ answer =>
    cases answer with
    | refused phase _ =>
      rw [phase]
      exact .refused
    | taken phase _ _ =>
      rw [phase]
      exact .ended rfl
    | failed phase _ _ =>
      rw [phase]
      exact .ended rfl

/-- Only an exporter that answers was called in the step of a verdict. -/
theorem Verdict.of_isExportCall {started : Nat} {deadline : Option Instant} {token : Option String} {p : Parcel α}
    {result : Except RouterError Unit} {said : List Occurrence} (h : b.Verdict started deadline token p result said)
    {what : Occurrence} (hwhat : what ∈ said) (hcall : what.isExportCall = true) : ¬ b.Fired token ∧ ¬ b.Expired deadline := by
  have hcut : what ∉ p.phase.cutOff := by
    intro hmem
    unfold ParcelPhase.cutOff at hmem
    split at hmem
    · rw [List.mem_singleton.1 hmem] at hcall
      cases hcall
    · cases hmem
  cases h with
  | cancelled _ => exact absurd hwhat hcut
  | expired _ _ _ _ _ => exact absurd hwhat hcut
  | answered unfired unexpired _ => exact ⟨unfired, unexpired⟩

end Due

/-! ## Steps of a parcel -/

/-- Some things are said of an exporter, and then one of its leases goes back: all leases are still counted when the things were said. -/
def GivesBack (b b' : Balancer α) (id : ExporterId) (said : List Occurrence) : Prop :=
  ∃ c : Balancer α, ∃ old new : Entry, Touches b c id old new said ∧ new.leases = old.leases ∧ b'.pool = c.pool.release id ∧
    b'.events = c.events

theorem GivesBack.congr {b b' b'' : Balancer α} {id : ExporterId} {said : List Occurrence} (h : GivesBack b b' id said)
    (hpool : b''.pool = b'.pool) (hevents : b''.events = b'.events) : GivesBack b b'' id said := by
  obtain ⟨c, old, new, htouches, hleases, hpool', hevents'⟩ := h
  exact ⟨c, old, new, htouches, hleases, hpool.trans hpool', hevents.trans hevents'⟩

/-- What the next step of a parcel does. It has none while it waits for what ends its delivery, and once it is over. -/
inductive Turning (b : Balancer α) (started : Nat) (deadline : Option Instant) (token : Option String) (p : Parcel α) :
    Option (Balancer α × Parcel α) → Prop
  | unready (phase : p.phase = .pending) (none : ∀ id, ¬ b.Offers p.endpoint id) :
    Turning b started deadline token p (some (b, { p with phase := .failed (.endpointNotReady p.endpoint) }))
  | lease {b' : Balancer α} {id : ExporterId} {old new : Entry} (phase : p.phase = .pending) (offers : b.Offers p.endpoint id)
    (touches : Touches b b' id old new []) :
    Turning b started deadline token p (some (b', { p with phase := .leased id b.now }))
  | call {b' : Balancer α} {id : ExporterId} {since wake : Nat} {old new : Entry} (phase : p.phase = .leased id since)
    (quiet : ¬ b.Due deadline token p) (touches : Touches b b' id old new [.exporting p.batch.itemCount]) :
    Turning b started deadline token p (some (b', { p with phase := .exporting id since wake }))
  | wait {id : ExporterId} {since wake : Nat} (phase : p.phase = .exporting id since wake) (quiet : ¬ b.Due deadline token p) :
    Turning b started deadline token p none
  | decide {b' : Balancer α} {id : ExporterId} {result : Except RouterError Unit} {said : List Occurrence}
    (lease : p.phase.lease? = some id) (verdict : b.Verdict started deadline token p result said) (back : GivesBack b b' id said) :
    Turning b started deadline token p (some (b', { p with phase := .ofResult result }))
  | closed (ended : p.isOver = true) : Turning b started deadline token p none

section Turns

variable {b : Balancer α} {started : Nat} {deadline : Option Instant} {token : Option String} {p : Parcel α}

/-- There is no lease where no running exporter is offered. -/
theorem not_offers_of_lease? {e : Endpoint} (h : b.pool.lease? e = none) (id : ExporterId) : ¬ b.Offers e id := by
  rintro ⟨entry, hfind, hentry, hrunning⟩
  have hlease := Pool.lease?_eq_some_iff.2 ⟨entry, hfind, hentry, hrunning, rfl⟩
  rw [h] at hlease
  cases hlease

/-- The end of a delivery gives the lease back that was counted until then. -/
theorem concludeParcel_givesBack {c : Balancer α} {id : ExporterId} {old new : Entry} {said : List Occurrence}
    (htouches : Touches b c id old new said) (hleases : new.leases = old.leases) (p : Parcel α) (since : Nat)
    (result : Except RouterError Unit) :
    ∃ b', c.concludeParcel p id since result = (b', { p with phase := .ofResult result }) ∧ GivesBack b b' id said := by
  unfold concludeParcel
  cases result <;> exact ⟨_, rfl, c, old, new, htouches, hleases, rfl, rfl⟩

/-- Giving a parcel up gives its lease back, after the export was given up. -/
theorem givesBack_dropParcel {id : ExporterId} (hlease : p.phase.lease? = some id) {entry : Entry}
    (he : b.pool.entry? id = some entry) : GivesBack b (b.dropParcel p) id p.phase.cutOff := by
  unfold dropParcel
  cases hphase : p.phase with
  | leased id' since =>
    rw [hphase] at hlease
    cases hlease
    exact ⟨b, entry, entry, touches_refl he, rfl, rfl, rfl⟩
  | exporting id' since wake =>
    rw [hphase] at hlease
    cases hlease
    obtain ⟨-, -, htouches⟩ := abandonExport_spec he
    exact ⟨_, entry, _, htouches, rfl, rfl, rfl⟩
  | _ =>
    rw [hphase] at hlease
    cases hlease

/-- The call of an export: the delivery is cut off before, or the exporter refuses, or the exporter is at work. -/
theorem turning_leased {id : ExporterId} {since : Nat} (hphase : p.phase = .leased id since) {entry : Entry}
    (he : b.pool.entry? id = some entry) :
    Turning b started deadline token p (b.stepParcel started deadline token p) := by
  have hlease : p.phase.lease? = some id := by rw [hphase]; rfl
  have hcutOff : p.phase.cutOff = [] := by rw [hphase]; rfl
  rw [stepParcel, hphase]
  dsimp only
  split
  · rename_i error hcut
    obtain ⟨b', heq, hback⟩ := concludeParcel_givesBack (touches_refl he) rfl p since (.error error)
    rw [heq]
    exact .decide hlease (verdict_of_interruption? hcut p) (hcutOff ▸ hback)
  · rename_i hcut
    obtain ⟨hunfired, hunexpired⟩ := interruption?_eq_none_iff.1 hcut
    obtain ⟨-, -, ⟨error, hresult, htouches⟩ | ⟨wake, hresult, htouches⟩⟩ := callExport_spec he p.batch
    · split
      · rename_i c error' hcall
        rw [hcall] at htouches
        obtain ⟨b', heq, hback⟩ := concludeParcel_givesBack htouches rfl p since (.error error')
        rw [heq]
        exact .decide hlease (.answered hunfired hunexpired (.refused hphase (by rw [hcall]))) hback
      · rename_i c wake hcall
        rw [hcall] at hresult
        cases hresult
    · split
      · rename_i c error hcall
        rw [hcall] at hresult
        cases hresult
      · rename_i c wake' hcall
        rw [hcall] at htouches
        exact .call hphase (not_due hunfired hunexpired (not_answered_of_leased hphase hresult)) htouches

/-- While an exporter is at work, the delivery ends once something is due, and waits before. -/
theorem turning_exporting {id : ExporterId} {since wake : Nat} (hphase : p.phase = .exporting id since wake) {entry : Entry}
    (he : b.pool.entry? id = some entry) :
    Turning b started deadline token p (b.stepParcel started deadline token p) := by
  have hlease : p.phase.lease? = some id := by rw [hphase]; rfl
  have hcutOff : p.phase.cutOff = [.exportAbandoned] := by rw [hphase]; rfl
  rw [stepParcel, hphase]
  dsimp only
  split
  · rename_i error hcut
    obtain ⟨-, -, htouches⟩ := abandonExport_spec he
    obtain ⟨b', heq, hback⟩ := concludeParcel_givesBack htouches rfl p since (.error error)
    rw [heq]
    exact .decide hlease (verdict_of_interruption? hcut p) (hcutOff ▸ hback)
  · rename_i hcut
    obtain ⟨hunfired, hunexpired⟩ := interruption?_eq_none_iff.1 hcut
    split
    · rename_i hdue
      obtain ⟨-, -, ⟨hresult, -, htouches⟩ | ⟨error, hresult, htouches⟩⟩ := concludeExport_spec he p.batch
      · obtain ⟨b', heq, hback⟩ := concludeParcel_givesBack htouches rfl p since (b.concludeExport id p.batch).2
        rw [heq, hresult]
        exact .decide hlease (.answered hunfired hunexpired (.taken hphase hdue hresult)) hback
      · obtain ⟨b', heq, hback⟩ := concludeParcel_givesBack htouches rfl p since (b.concludeExport id p.batch).2
        rw [heq, hresult]
        exact .decide hlease (.answered hunfired hunexpired (.failed hphase hdue hresult)) hback
    · rename_i hdue
      exact .wait hphase (not_due hunfired hunexpired (not_answered_of_exporting hphase hdue))

/-- The next step of a parcel. The exporter that it has leased, if any, was made. -/
theorem turning_stepParcel (hmade : ∀ id ∈ p.phase.lease?, ∃ entry, b.pool.entry? id = some entry) :
    Turning b started deadline token p (b.stepParcel started deadline token p) := by
  cases hphase : p.phase with
  | pending =>
    rw [stepParcel, hphase]
    dsimp only
    split
    · rename_i hnone
      exact .unready hphase (not_offers_of_lease? hnone)
    · rename_i id pool hlease
      obtain ⟨entry, hfind, hentry, hrunning, rfl⟩ := Pool.lease?_eq_some_iff.1 hlease
      exact .lease hphase ⟨entry, hfind, hentry, hrunning⟩ (touches_changeEntry hentry _)
  | leased id since =>
    obtain ⟨entry, he⟩ := hmade id (by rw [hphase]; rfl)
    exact turning_leased hphase he
  | exporting id since wake =>
    obtain ⟨entry, he⟩ := hmade id (by rw [hphase]; rfl)
    exact turning_exporting hphase he
  | delivered =>
    rw [stepParcel, hphase]
    exact .closed (by rw [Parcel.isOver, hphase])
  | failed error =>
    rw [stepParcel, hphase]
    exact .closed (by rw [Parcel.isOver, hphase])

end Turns

end Balancer

end TelemetryRouter
