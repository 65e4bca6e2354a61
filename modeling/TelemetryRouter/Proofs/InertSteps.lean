import TelemetryRouter.Proofs.InertCases

/-!
# Steps outside the pool

Every step of an inert work is calm: it leaves alone what passes, exports and leases are about, and its task goes on to works of
which only the first may be other than inert. So a run changes the pool only in the steps of passes, deliveries and exports.
-/

namespace TelemetryRouter

variable {α : Type}

theorem Pass.isFresh_of (endpoints : List Endpoint) : (Pass.of endpoints).IsFresh := ⟨rfl, fun _ h => nomatch h⟩

theorem Pass.isFresh_refresh : Pass.refresh.IsFresh := ⟨rfl, fun _ h => nomatch h⟩

namespace Balancer

variable {b : Balancer α} {t : TaskId} {rest : List (Work α)}

theorem isFresh_applyPass (b : Balancer α) (endpoints : List Endpoint) : (b.applyPass endpoints).IsFresh := by
  refine ⟨rfl, fun ring hring => ⟨endpoints, b.options.settings.virtualNodes, ?_⟩⟩
  injection hring with hring
  exact hring.symm

theorem calm_beginPass {c : Balancer α} {p : Pass} (ht : t < b.tasks.length) (hc : c.core = b.core)
    (hts : c.tasks = b.tasks) (hp : p.IsFresh) (hrest : ∀ w ∈ rest, w.isInert = true) : Calm b (c.beginPass t rest p) t := by
  unfold beginPass
  refine .of_withWorks ht ?_ hts hp hrest
  rw [← hc]
  rfl

theorem calm_beginResolution (ht : t < b.tasks.length) (hrest : ∀ w ∈ rest, w.isInert = true) :
    Calm b (b.beginResolution t rest) t := by
  unfold beginResolution
  split
  · exact .of_withWorks ht rfl rfl trivial hrest
  · exact .of_finish ht rfl rfl hrest
  · exact .of_finish ht rfl rfl hrest

theorem calm_fail (ht : t < b.tasks.length) (e : RouterError) : Calm b (b.fail t e) t :=
  .of_finish ht rfl rfl (List.forall_mem_nil _)

theorem calm_stopTask {c : Balancer α} {task : TaskId} (ht : t < b.tasks.length) (hc : c.core = b.core)
    (hts : c.tasks = b.tasks) (hrest : ∀ w ∈ rest, w.isInert = true) : Calm b (c.stopTask t rest task) t := by
  unfold stopTask
  refine .of_withWorks ht ?_ hts trivial hrest
  rw [← hc]
  rfl

/-- The first step of a dispatch is calm: its parcels are all still pending. -/
theorem calm_beginDispatch (ht : t < b.tasks.length) (hrest : ∀ w ∈ rest, w.isInert = true) (batch : Batch α)
    (context : DispatchContext) : Calm b (b.beginDispatch t rest batch context) t := by
  have hpending : ∀ groups : List (Endpoint × Batch α), ∀ p ∈ groups.map (fun g => Parcel.mk g.1 g.2 .pending),
      p.phase = .pending := fun groups p hp => by
    obtain ⟨g, _, rfl⟩ := List.mem_map.1 hp
    rfl
  unfold beginDispatch
  split
  · exact .of_finish ht rfl rfl hrest
  · split
    · exact .of_finish ht rfl rfl hrest
    · split
      · exact .of_finish ht rfl rfl hrest
      · exact .of_withWorks ht rfl rfl (hpending _) hrest

/-! ## All steps -/

section Steps

variable {b' : Balancer α} {ws : List (Work α)} {way : Nat}

theorem ResolutionStep.calm {phase : ResolutionPhase} (ht : t < b.tasks.length) (hrest : ∀ w ∈ rest, w.isInert = true)
    (h : ResolutionStep b t rest phase ws b') : Calm b b' t := by
  cases h with
  | ask _ _ _ works_eq =>
    subst works_eq
    exact .of_withWorks ht rfl rfl trivial hrest
  | conclude => exact .of_finish ht rfl rfl hrest
  | _ => exact .of_withWorks ht rfl rfl trivial hrest

theorem PollStep.calm {ticker : Option Ticker} (ht : t < b.tasks.length) (hrest : ∀ w ∈ rest, w.isInert = true)
    (h : PollStep b t rest ticker ws b') : Calm b b' t := by
  have hagain : ∀ ticker, ∀ w ∈ Work.poll ticker :: rest, w.isInert = true := fun _ => List.forall_mem_cons.2 ⟨rfl, hrest⟩
  cases h with
  | start => exact .of_withWorks ht rfl rfl trivial hrest
  | stop _ => exact .of_finish ht rfl rfl hrest
  | poll _ _ works_eq =>
    subst works_eq
    exact .of_withWorks ht rfl rfl trivial (hagain _)
  | pollOther _ => exact .of_finish ht rfl rfl (hagain _)

theorem ConsumeStep.calm {box : MailboxId} {ticker : Option Ticker} {isOpen : Bool} (ht : t < b.tasks.length)
    (hrest : ∀ w ∈ rest, w.isInert = true) (h : ConsumeStep b t rest box ticker isOpen way ws b') : Calm b b' t := by
  have hagain : ∀ ticker isOpen, ∀ w ∈ Work.consume box ticker isOpen :: rest, w.isInert = true := fun _ _ =>
    List.forall_mem_cons.2 ⟨rfl, hrest⟩
  cases h with
  | stop _ => exact .of_finish ht rfl rfl hrest
  | take _ => exact calm_beginPass ht rfl rfl (isFresh_applyPass _ _) (hagain _ _)
  | refresh _ => exact calm_beginPass ht rfl rfl Pass.isFresh_refresh (hagain _ _)
  | _ => exact .of_withWorks ht rfl rfl trivial hrest

/-- A step of an inert work other than a dispatch is calm. -/
theorem InertStep.calm {w : Work α} {started : List (Work α)} (ht : t < b.tasks.length)
    (hw : ∀ batch context, w ≠ .dispatch batch context) (hrest : ∀ x ∈ rest, x.isInert = true)
    (h : InertStep b t rest way w ws started b') : Calm b b' t := by
  cases h with
  | resolution step => exact step.calm ht hrest
  | poll step => exact step.calm ht hrest
  | consume step => exact step.calm ht hrest
  | refuseResolver _ => exact calm_fail ht _
  | refuseBalancer _ => exact calm_fail ht _
  | startResolver _ _ => exact .of_withWorks ht rfl rfl trivial (List.forall_mem_cons.2 ⟨rfl, hrest⟩)
  | startBalancer _ =>
    exact .of_withWorks ht rfl rfl trivial (List.forall_mem_cons.2 ⟨rfl, List.forall_mem_cons.2 ⟨rfl, hrest⟩⟩)
  | registerPoller => exact .of_spawn_finish ht rfl rfl (List.forall_mem_singleton.2 rfl) hrest
  | launchConsumer => exact .of_spawn_finish ht rfl rfl (List.forall_mem_singleton.2 rfl) hrest
  | stopPolls _ _ => exact calm_stopTask ht rfl rfl (List.forall_mem_cons.2 ⟨rfl, hrest⟩)
  | stopConsumer _ => exact calm_stopTask ht rfl rfl hrest
  | stopUnpolled _ _ => exact .of_withWorks ht rfl rfl trivial hrest
  | applyBaseline => exact calm_beginPass ht rfl rfl (isFresh_applyPass _ _) hrest
  | clear => exact calm_beginPass ht rfl rfl (isFresh_applyPass _ _) hrest
  | pushTo _ => exact .of_withWorks ht rfl rfl trivial hrest
  | dispatch => exact absurd rfl (hw _ _)
  | _ => exact .of_finish ht rfl rfl hrest

theorem calm_step {w : Work α} (ht : t < b.tasks.length) (hw : w.isInert = true) (hrest : ∀ x ∈ rest, x.isInert = true)
    (h : b.step t rest way w = some b') : Calm b b' t := by
  by_cases hdispatch : ∃ batch context, w = .dispatch batch context
  · obtain ⟨batch, context, rfl⟩ := hdispatch
    injection h with h
    exact h ▸ calm_beginDispatch ht hrest batch context
  · obtain ⟨ws, started, hstep⟩ := step_cases hw h
    exact hstep.calm ht (fun batch context heq => hdispatch ⟨batch, context, heq⟩) hrest

end Steps

end Balancer

end TelemetryRouter
