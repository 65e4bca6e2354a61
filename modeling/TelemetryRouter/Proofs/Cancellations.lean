import TelemetryRouter.Proofs.Grounded
import TelemetryRouter.Proofs.InertCases

/-!
# Cancellation

Only a cancellation fires a token: whatever else happens leaves the fired tokens as they are. So a token that has fired stays fired
(`Run.fired_of_le`).
-/

namespace TelemetryRouter

variable {α : Type}

namespace Balancer

/-- Whether the token of a dispatch has fired. A dispatch without a token is never cancelled. -/
def Fired (b : Balancer α) (token : Option String) : Prop := ∃ name, token = some name ∧ name ∈ b.cancelledTokens

/-! ## Parts of steps

What the parts of a step do to the fired tokens: nothing. -/

section Parts

variable (b : Balancer α)

@[simp] theorem cancelledTokens_logEntry (id : ExporterId) (what : Occurrence) :
    (b.logEntry id what).cancelledTokens = b.cancelledTokens := by
  unfold logEntry
  split <;> rfl

@[simp] theorem cancelledTokens_changeEntry (id : ExporterId) (f : Entry → Entry) :
    (b.changeEntry id f).cancelledTokens = b.cancelledTokens := rfl

@[simp] theorem cancelledTokens_finish (t : TaskId) (rest : List (Work α)) (outcome : Outcome α) :
    (b.finish t rest outcome).cancelledTokens = b.cancelledTokens := rfl

@[simp] theorem cancelledTokens_withWorks (t : TaskId) (ws : List (Work α)) :
    (b.withWorks t ws).cancelledTokens = b.cancelledTokens := rfl

@[simp] theorem cancelledTokens_concludeCall (entry : Entry) (kind : CallKind) :
    (b.concludeCall entry kind).2.cancelledTokens = b.cancelledTokens := by
  unfold concludeCall
  split <;> rfl

@[simp] theorem cancelledTokens_callCreate (e : Endpoint) : (b.callCreate e).1.cancelledTokens = b.cancelledTokens := rfl

@[simp] theorem cancelledTokens_concludeCreate (e : Endpoint) (address : String) (plain : Bool) :
    (b.concludeCreate e address plain).1.cancelledTokens = b.cancelledTokens := by
  unfold concludeCreate
  dsimp only
  split <;> simp [log]

@[simp] theorem cancelledTokens_concludeStart (e : Endpoint) (id : ExporterId) :
    (b.concludeStart e id).1.cancelledTokens = b.cancelledTokens := by
  unfold concludeStart
  split
  · rfl
  · dsimp only
    split <;> simp

@[simp] theorem cancelledTokens_callStop (id : ExporterId) : (b.callStop id).1.cancelledTokens = b.cancelledTokens := by
  unfold callStop
  split <;> simp

@[simp] theorem cancelledTokens_concludeStop (id : ExporterId) : (b.concludeStop id).1.cancelledTokens = b.cancelledTokens := by
  unfold concludeStop
  split <;> simp

@[simp] theorem cancelledTokens_callExport (id : ExporterId) (batch : Batch α) :
    (b.callExport id batch).1.cancelledTokens = b.cancelledTokens := by
  unfold callExport
  split
  · rfl
  · split <;> simp

@[simp] theorem cancelledTokens_concludeExport (id : ExporterId) (batch : Batch α) :
    (b.concludeExport id batch).1.cancelledTokens = b.cancelledTokens := by
  unfold concludeExport
  split
  · rfl
  · dsimp only
    split <;> simp [keepDelivered]

@[simp] theorem cancelledTokens_abandonExport (id : ExporterId) : (b.abandonExport id).cancelledTokens = b.cancelledTokens := by
  simp [abandonExport]

@[simp] theorem cancelledTokens_concludeParcel (p : Parcel α) (id : ExporterId) (since : Nat) (result : Except RouterError Unit) :
    (b.concludeParcel p id since result).1.cancelledTokens = b.cancelledTokens := by
  unfold concludeParcel
  cases result <;> rfl

@[simp] theorem cancelledTokens_useLease (lease : LeaseId) (f : Nat → Nat) :
    (b.useLease lease f).cancelledTokens = b.cancelledTokens := by
  obtain ⟨pool, heq, _⟩ := releaseUnused_spec { b with leases := b.leases.modify lease (fun l => { l with users := f l.users }) }
  rw [useLease, heq]

@[simp] theorem cancelledTokens_dropName (name : String) : (b.dropName name).cancelledTokens = b.cancelledTokens := by
  obtain ⟨pool, heq, _⟩ := releaseUnused_spec
    { b with leases := b.leases.map (fun l => if l.name = some name then { l with name := none } else l) }
  rw [dropName, heq]

@[simp] theorem cancelledTokens_dropParcel (p : Parcel α) : (b.dropParcel p).cancelledTokens = b.cancelledTokens := by
  unfold dropParcel
  split <;> simp

@[simp] theorem cancelledTokens_dropWork (t : TaskId) (work : Work α) : (dropWork t b work).cancelledTokens = b.cancelledTokens := by
  unfold dropWork
  split
  · rfl
  · dsimp only
    split <;> rfl
  · rfl
  · rename_i parcels
    exact List.foldlRecOn parcels dropParcel (motive := fun c => c.cancelledTokens = b.cancelledTokens) rfl
      (fun c hc p _ => (cancelledTokens_dropParcel c p).trans hc)
  · dsimp only
    split <;> simp
  · rfl

end Parts

/-! ## Steps -/

section Steps

variable {b b' : Balancer α}

/-- A step of the start of an exporter leaves the fired tokens alone. -/
theorem cancelledTokens_stepAttempt {a a' : Attempt} (h : b.stepAttempt a = some (b', a')) : b'.cancelledTokens = b.cancelledTokens := by
  obtain ⟨-, hmove⟩ := AttemptMove.of_step h
  generalize a.phase = phase at hmove
  generalize a'.phase = phase' at hmove
  cases hmove with
  | call => exact cancelledTokens_callCreate b _
  | made _ => exact cancelledTokens_concludeCreate b _ _ _
  | started _ => exact cancelledTokens_concludeStart b _ _

/-- A step of the retirement of an exporter leaves the fired tokens alone. -/
theorem cancelledTokens_stepRetirement {x x' : Retirement} (h : b.stepRetirement x = some (b', x')) :
    b'.cancelledTokens = b.cancelledTokens := by
  obtain ⟨-, hmove⟩ := RetirementMove.of_step h
  generalize x.phase = phase at hmove
  generalize x'.phase = phase' at hmove
  cases hmove with
  | close _ => exact cancelledTokens_callStop b _
  | giveUp _ _ => exact cancelledTokens_callStop b _
  | stopped _ => exact cancelledTokens_concludeStop b _
  | _ => rfl

theorem cancelledTokens_stepPass {t : TaskId} {rest : List (Work α)} {p : Pass} {way : Nat} (h : b.stepPass t rest p way = some b') :
    b'.cancelledTokens = b.cancelledTokens := by
  cases PassMove.of_step h with
  | enter _ _ _ _ => rfl
  | attempt _ _ _ step => exact (cancelledTokens_withWorks _ t _).trans (cancelledTokens_stepAttempt step)
  | publish _ _ => rfl
  | retire _ _ _ step => exact (cancelledTokens_withWorks _ t _).trans (cancelledTokens_stepRetirement step)
  | conclude _ _ =>
    obtain ⟨metrics, heq⟩ := concludePass_eq b t rest (b.passOutcome _ _ _)
    rw [heq]
    rfl

theorem cancelledTokens_stepParcel {started : Nat} {deadline : Option Instant} {token : Option String} {p p' : Parcel α}
    (h : b.stepParcel started deadline token p = some (b', p')) : b'.cancelledTokens = b.cancelledTokens := by
  have hends : ∀ {c : Balancer α} {id : ExporterId} {since : Nat} {result : Except RouterError Unit},
      c.cancelledTokens = b.cancelledTokens → c.concludeParcel p id since result = (b', p') →
      b'.cancelledTokens = b.cancelledTokens := by
    intro c id since result hc heq
    have hb' : (c.concludeParcel p id since result).1 = b' := congrArg Prod.fst heq
    rw [← hb', cancelledTokens_concludeParcel, hc]
  cases ParcelMove.of_step h with
  | unready _ _ => rfl
  | lease _ _ => rfl
  | cutEarly _ _ ends => exact hends rfl ends
  | refuse _ _ _ ends => exact hends (cancelledTokens_callExport b _ _) ends
  | call _ _ _ => exact cancelledTokens_callExport b _ _
  | cutLate _ _ ends => exact hends (cancelledTokens_abandonExport b _) ends
  | finish _ _ _ ends => exact hends (cancelledTokens_concludeExport b _ _) ends

theorem cancelledTokens_stepExportLeased {t : TaskId} {rest : List (Work α)} {lease : LeaseId} {batch : Batch α} {wake : Option Nat}
    (h : b.stepExportLeased t rest lease batch wake = some b') : b'.cancelledTokens = b.cancelledTokens := by
  obtain ⟨held, -, hmove⟩ := ExportMove.of_step h
  cases hmove with
  | refuse _ => rw [cancelledTokens_finish, cancelledTokens_useLease, cancelledTokens_callExport]
  | call _ => exact cancelledTokens_callExport b _ _
  | finish _ => rw [cancelledTokens_finish, cancelledTokens_useLease, cancelledTokens_concludeExport]

/-- A step of an inert work leaves the fired tokens alone. -/
theorem InertStep.cancelledTokens_eq {t : TaskId} {rest ws started : List (Work α)} {way : Nat} {w : Work α}
    (h : InertStep b t rest way w ws started b') : b'.cancelledTokens = b.cancelledTokens := by
  cases h with
  | resolution step => cases step <;> rfl
  | poll step => cases step <;> rfl
  | consume step => cases step <;> rfl
  | _ => rfl

theorem cancelledTokens_move {t : TaskId} {way : Nat} (h : b.move t way = some b') : b'.cancelledTokens = b.cancelledTokens := by
  unfold move at h
  split at h
  · cases h
  · rename_i w rest _
    cases hinert : w.isInert with
    | true =>
      obtain ⟨ws, started, hstep⟩ := step_cases hinert h
      exact hstep.cancelledTokens_eq
    | false =>
      cases w with
      | pass p => exact cancelledTokens_stepPass h
      | deliver started deadline token parcels =>
        cases DeliverMove.of_step h with
        | finish _ => rfl
        | parcel _ step => exact (cancelledTokens_withWorks _ t _).trans (cancelledTokens_stepParcel step)
      | exportLeased lease batch wake => exact cancelledTokens_stepExportLeased h
      | _ => cases hinert

theorem cancelledTokens_request (b : Balancer α) (r : Request α) : (b.request r).1.cancelledTokens = b.cancelledTokens := by
  cases r with
  | resolve =>
    show ((b.spawn []).beginResolution b.nextTask []).cancelledTokens = _
    unfold beginResolution
    split <;> rfl
  | exportLeased lease batch => exact cancelledTokens_useLease _ _ _
  | _ => rfl

theorem cancelledTokens_abandon (b : Balancer α) (t : TaskId) : (b.abandon t).cancelledTokens = b.cancelledTokens := by
  rw [abandon, cancelledTokens_withWorks]
  exact foldl_dropWork_congr cancelledTokens (fun w _ c => cancelledTokens_dropWork c t w) b

/-- A lease that is taken from outside leaves the fired tokens alone. -/
theorem cancelledTokens_leaseAs {e : Endpoint} {name : String} (h : b.leaseAs e name = .ok b') :
    b'.cancelledTokens = b.cancelledTokens := by
  unfold leaseAs at h
  split at h
  · cases h
  · cases h
    exact cancelledTokens_dropName _ _

/-- Whatever happens, the fired tokens are those of before, and the one that is fired, if any. -/
theorem cancelledTokens_perform (b : Balancer α) (a : Action α) :
    (b.perform a).cancelledTokens = b.cancelledTokens ++ (match a with | .cancel token => [token] | _ => []) := by
  suffices hkept : ∀ c : Balancer α, c.cancelledTokens = b.cancelledTokens → c.cancelledTokens = b.cancelledTokens ++ [] by
    cases a with
    | cancel token => rfl
    | move t way =>
      refine hkept _ ?_
      cases hmove : b.move t way with
      | none => rw [perform, hmove, Option.getD_none]
      | some c => rw [perform, hmove, Option.getD_some, cancelledTokens_move hmove]
    | request r =>
      refine hkept (if b.allows r then (b.request r).1 else b) ?_
      split
      · exact cancelledTokens_request b r
      · rfl
    | abandon t => exact hkept _ (cancelledTokens_abandon b t)
    | lease e name =>
      refine hkept _ ?_
      cases hlease : b.leaseAs e name with
      | ok c => rw [perform, hlease, cancelledTokens_leaseAs hlease]
      | error _ => rw [perform, hlease]
    | dropLease name => exact hkept _ (cancelledTokens_dropName b name)
    | receive box => cases box <;> exact hkept _ rfl
    | _ => exact hkept _ rfl
  intro c hc
  rw [hc, List.append_nil]

end Steps

end Balancer

/-! ## Runs -/

theorem Run.fired_of_le {r : Run α} {n m : Nat} (h : n ≤ m) {token : Option String} (hfired : (r.state n).Fired token) :
    (r.state m).Fired token := by
  induction h with
  | refl => exact hfired
  | @step m _ ih =>
    obtain ⟨name, hname, hmem⟩ := ih
    refine ⟨name, hname, ?_⟩
    rw [Nat.succ_eq_add_one, state, Balancer.cancelledTokens_perform]
    exact List.mem_append_left _ hmem

end TelemetryRouter
