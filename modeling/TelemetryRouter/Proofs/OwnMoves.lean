import TelemetryRouter.Proofs.Grounded

/-!
# A task goes on by its own moves

Whatever else happens in a run, a task stays where it is until it moves itself or is given up. So what a task does can be followed
along its own moves, however many other tasks go on between them.
-/

namespace TelemetryRouter

variable {α : Type}

namespace Balancer

section Own

variable {b b' : Balancer α} {t t' : TaskId}

/-! ## Moves of other tasks -/

theorem PassStep.task?_of_ne {rest : List (Work α)} {p : Pass} (hw : b.works t = .pass p :: rest) (h : PassStep b t rest p b')
    (hne : t' ≠ t) (hlt : t' < b.tasks.length) : b'.task? t' = b.task? t' := by
  have ht := lt_of_works hw
  cases h with
  | enter _ _ _ _ => exact (reworks_withWorks ht rfl).other t' hne hlt
  | attempt _ _ _ frame _ => exact (reworks_withWorks ht frame.tasks).other t' hne hlt
  | publish _ _ => exact (reworks_withWorks ht rfl).other t' hne hlt
  | retire _ _ _ frame _ _ => exact (reworks_withWorks ht frame.tasks).other t' hne hlt
  | conclude _ _ => exact (reworks_concludePass ht rest _).other t' hne hlt

theorem DeliverStep.task?_of_ne {rest : List (Work α)} {started : Nat} {deadline : Option Instant} {token : Option String}
    {parcels : List (Parcel α)} {way : Nat} (hw : b.works t = .deliver started deadline token parcels :: rest)
    (h : DeliverStep b t rest started deadline token parcels way b') (hne : t' ≠ t) (hlt : t' < b.tasks.length) :
    b'.task? t' = b.task? t' := by
  have ht := lt_of_works hw
  cases h with
  | parcel _ _ _ frame _ => exact (reworks_withWorks ht frame.tasks).other t' hne hlt
  | finish _ => exact (reworks_finish ht rfl).other t' hne hlt

/-- A step of an export through a lease held from outside leaves the other tasks alone. -/
theorem ExportStep.task?_of_ne {rest : List (Work α)} {lease : LeaseId} {batch : Batch α} {held : HeldLease} {entry : Entry}
    {wake : Option Nat} (hw : b.works t = .exportLeased lease batch wake :: rest)
    (h : ExportStep b t rest lease batch held entry wake b') (hne : t' ≠ t) (hlt : t' < b.tasks.length) :
    b'.task? t' = b.task? t' := by
  have ht := lt_of_works hw
  have hend : ∀ {c : Balancer α} {outcome : Outcome α}, Frame b c →
      ((c.useLease lease (· - 1)).finish t rest outcome).task? t' = b.task? t' := by
    intro c outcome hframe
    have hts := (resettles_useLease c lease (· - 1)).tasks.trans hframe.tasks
    exact (reworks_finish ht hts).other t' hne hlt
  cases h with
  | refuse frame _ _ => exact hend frame
  | finish frame _ _ _ => exact hend frame
  | call frame _ _ => exact (reworks_withWorks ht frame.tasks).other t' hne hlt

theorem task?_move (hb : b.Grounded) {way : Nat} (h : b.move t way = some b') (hne : t' ≠ t) (hlt : t' < b.tasks.length) :
    b'.task? t' = b.task? t' := by
  rw [move] at h
  rcases hw : b.works t with _ | ⟨w, rest⟩
  · rw [hw] at h
    cases h
  rw [hw] at h
  have hrest : ∀ x ∈ rest, x.isInert = true := fun x hx => hb.tidy t x (by rw [hw]; exact hx)
  rcases hi : w.isInert with _ | _
  · have hgrounded := hb.duties t w (duty?_of_works hw hi)
    cases w with
    | pass p => exact (stepPass_cases hgrounded h).task?_of_ne hw hne hlt
    | deliver started deadline token parcels => exact (stepDeliver_cases hgrounded h).task?_of_ne hw hne hlt
    | exportLeased lease batch wake =>
      obtain ⟨held, entry, _, _, hstep⟩ := stepExportLeased_cases hb h
      exact hstep.task?_of_ne hw hne hlt
    | _ => cases hi
  · obtain ⟨ws, hr, _⟩ := (calm_step (lt_of_works hw) hi hrest h).works
    exact hr.other t' hne hlt

/-! ## Requests -/

theorem task?_spawn (works : List (Work α)) (hlt : t' < b.tasks.length) : (b.spawn works).task? t' = b.task? t' := by
  rw [task?, task?, spawn, List.getElem?_append_left hlt]

theorem task?_request (r : Request α) (hlt : t' < b.tasks.length) : (b.request r).1.task? t' = b.task? t' := by
  have hne : t' ≠ b.nextTask := Nat.ne_of_lt hlt
  have hlt' : t' < (b.spawn []).tasks.length := Nat.lt_trans hlt (nextTask_lt_spawn b)
  show ((b.spawn []).begin b.nextTask r).task? t' = b.task? t'
  by_cases hr : ∃ lease batch, r = .exportLeased lease batch
  · obtain ⟨lease, batch, rfl⟩ := hr
    let c := (b.spawn []).withWorks b.nextTask [.exportLeased lease batch none]
    have hc : c.task? t' = (b.spawn []).task? t' := (reworks_withWorks (nextTask_lt_spawn b) rfl).other t' hne hlt'
    have huse : (c.useLease lease (· + 1)).task? t' = c.task? t' := by
      rw [task?, task?, (resettles_useLease c lease (· + 1)).tasks]
    exact huse.trans (hc.trans (task?_spawn [] hlt))
  · have hr' : ∀ lease batch, r ≠ .exportLeased lease batch := fun lease batch h => hr ⟨lease, batch, h⟩
    obtain ⟨ws, hreworks, _⟩ := (calm_begin (nextTask_lt_spawn b) hr').works
    exact (hreworks.other t' hne hlt').trans (task?_spawn [] hlt)

/-! ## Giving up other tasks -/

theorem tasks_dropWork (t : TaskId) (b : Balancer α) (w : Work α) : (dropWork t b w).tasks = b.tasks := by
  cases w with
  | resolution phase => cases phase <;> rfl
  | deliver started deadline token parcels => exact (frame_foldl_dropParcel parcels b).tasks
  | exportLeased lease batch wake =>
    obtain ⟨c, heq, hframe⟩ := frame_dropWork_exportLeased t b lease batch wake
    rw [heq, (resettles_useLease c lease (· - 1)).tasks, hframe.tasks]
  | _ => rfl

theorem tasks_foldl_dropWork (t : TaskId) (ws : List (Work α)) (b : Balancer α) :
    (ws.foldl (dropWork t) b).tasks = b.tasks :=
  foldl_dropWork_congr tasks (fun w _ c => tasks_dropWork t c w) b

theorem task?_abandon_of_ne (b : Balancer α) (hne : t' ≠ t) : (b.abandon t).task? t' = b.task? t' := by
  rw [abandon, withWorks, task?, task?, List.getElem?_modify_ne _ _ (Ne.symm hne), tasks_foldl_dropWork]

theorem task?_abandon_self (b : Balancer α) (t : TaskId) :
    (b.abandon t).task? t = (b.task? t).map (fun task => { task with works := [] }) := by
  rw [abandon, withWorks, task?, task?, List.getElem?_modify_eq, tasks_foldl_dropWork]
  rfl

/-! ## All actions -/

/-- A task stays where it is until it moves or is given up. -/
theorem task?_perform (hb : b.Grounded) {a : Action α} (hlt : t < b.tasks.length) (hmove : ∀ way, a ≠ .move t way)
    (habandon : a ≠ .abandon t) : (b.perform a).task? t = b.task? t := by
  cases a with
  | move t' way =>
    have hne : t ≠ t' := fun heq => hmove way (by rw [heq])
    rw [perform]
    rcases h : b.move t' way with _ | b'
    · rfl
    · exact task?_move hb h hne hlt
  | request r =>
    rw [perform]
    split
    · exact task?_request r hlt
    · rfl
  | abandon t' => exact task?_abandon_of_ne b (fun heq => habandon (by rw [heq]))
  | lease e name =>
    rw [perform]
    rcases h : b.leaseAs e name with _ | b'
    · rfl
    · obtain ⟨_, _, _, d, _, _, hframe, _, _, hresettles, rfl⟩ := leaseAs_spec h
      rw [task?, task?]
      exact congrArg (·[t]?) (hresettles.tasks.trans hframe.tasks)
  | dropLease name =>
    rw [perform, task?, task?, (resettles_dropName b name).tasks]
  | receive box => cases box <;> rfl
  | _ => rfl

end Own

end Balancer

namespace Run

theorem task?_succ (r : Run α) {t : TaskId} {n : Nat} (hlt : t < (r.state n).tasks.length) (hmove : ∀ way, r.action n ≠ .move t way)
    (habandon : r.action n ≠ .abandon t) : (r.state (n + 1)).task? t = (r.state n).task? t :=
  Balancer.task?_perform (r.grounded n) hlt hmove habandon

end Run

end TelemetryRouter
