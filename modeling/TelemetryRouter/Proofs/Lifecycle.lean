import TelemetryRouter.Proofs.Drains
import TelemetryRouter.Proofs.Holders

/-!
# The life of an exporter

However deliveries, leases and passes interleave, every exporter that was made is started once; it is called with batches only after it
has started, and only through leases that were taken while it ran; it is shut down at most once, and only after it has started; its
stages follow each other; and its shutdown does not overtake a lease before the drain has had its time. All of this relies on passes
that are not given up on the way.
-/

namespace TelemetryRouter

variable {α : Type}

namespace Run

/-! ## Steps of a run -/

/-- Whether an exporter runs in a state. -/
def RunsAt (r : Run α) (id : ExporterId) (n : Nat) : Prop :=
  ∃ entry, (r.state n).pool.entry? id = some entry ∧ entry.state = .running

/-- Whether a holder has taken the lease of an exporter in an earlier step, while the exporter ran, and has held it since. -/
def HeldSince (r : Run α) (id : ExporterId) (holder : Holder) (k n : Nat) : Prop :=
  k < n ∧ r.RunsAt id k ∧ (r.state k).leased? holder ≠ some id ∧ ∀ j, k < j → j ≤ n → (r.state j).leased? holder = some id

/-- Whether an exporter goes from running to stopping in a step. -/
def Marks (r : Run α) (id : ExporterId) (k : Nat) : Prop :=
  r.RunsAt id k ∧ ∃ entry, (r.state (k + 1)).pool.entry? id = some entry ∧ entry.state = .stopping

/-- Whether the drain of an exporter times out in a step: its shutdown is called while the end of its leases is waited for. -/
def TimesOut (r : Run α) (id : ExporterId) (n : Nat) : Prop :=
  ∃ deadline wake, (r.state n).Retiring id (.waiting deadline) ∧ (r.state (n + 1)).Retiring id (.closing wake)

/-- What a run does to one exporter. -/
structure Lifecycle (r : Run α) (id : ExporterId) : Prop where
  grows : ∀ n, ∃ said, (r.state (n + 1)).history id = (r.state n).history id ++ said
  unmade : ∀ n, (r.state n).pool.entry? id = none → (r.state n).history id = []
  starts : ∀ n entry, (r.state n).pool.entry? id = some entry → ((r.state n).history id).count .starting = 1
  /-- The exporter is called with a batch or shut down only after its start has succeeded. -/
  started : ∀ n before what after, (r.state n).history id = before ++ what :: after →
    what.isExportCall = true ∨ what.isStopCall = true → .started ∈ before
  /-- The exporter is called with a batch only by a holder of its lease, who took it while the exporter ran. -/
  exports : ∀ n what, r.Says id n what → what.isExportCall = true →
    ∃ holder k, (r.state n).Exports (r.action n) holder ∧ r.HeldSince id holder k n
  stops : ∀ n, ((r.state n).history id).countP Occurrence.isStopCall ≤ 1
  born : ∀ n entry, (r.state n).pool.entry? id = none → (r.state (n + 1)).pool.entry? id = some entry → entry.state = .starting
  /-- The stages of the exporter follow each other. -/
  moves : ∀ n entry, (r.state n).pool.entry? id = some entry → ∃ entry', (r.state (n + 1)).pool.entry? id = some entry' ∧
    (entry'.state = entry.state ∨ entry.state.Precedes entry'.state)
  /-- Once the exporter is to be stopped, nobody can lease it again. -/
  refuses : ∀ n entry, (r.state n).pool.entry? id = some entry → entry.state = .stopping ∨ entry.state = .stopped →
    ∀ m, n ≤ m → ∀ e pool, (r.state m).pool.lease? e ≠ some (id, pool)
  /-- The shutdown of the exporter is called in spite of a lease only once the drain has had its time. -/
  patient : ∀ n what, r.Says id n what → what.isStopCall = true → (∃ holder, (r.state n).leased? holder = some id) →
    ∃ k, k < n ∧ r.Marks id k ∧
      Instant.after (r.state k).now r.options.settings.drainTimeout ≤ Instant.ofTick (r.state n).now
  /-- If the drain does not time out, the exporter is at work on nothing when its shutdown is called, and never again. -/
  quiet : (∀ n, ¬ r.TimesOut id n) → ∀ n what, r.Says id n what → what.isStopCall = true → ∀ m, n ≤ m →
    ¬ (r.state m).InProgress id ∧ ∀ what, r.Says id m what → what.isExportCall = false

/-! ## Leases over time -/

/-- Whoever has leased an exporter took the lease while the exporter ran, and has held it since. -/
theorem held_since (r : Run α) {id : ExporterId} {holder : Holder} {n : Nat} (h : (r.state n).leased? holder = some id) :
    ∃ k, r.HeldSince id holder k n := by
  induction n with
  | zero => cases holder <;> cases h
  | succ n ih =>
    by_cases hbefore : (r.state n).leased? holder = some id
    · obtain ⟨k, hk, hruns, hnot, hsince⟩ := ih hbefore
      refine ⟨k, Nat.lt_succ_of_lt hk, hruns, hnot, fun j hkj hj => ?_⟩
      rcases Nat.lt_or_eq_of_le hj with hj | rfl
      · exact hsince j hkj (Nat.le_of_lt_succ hj)
      · exact h
    · have hruns := ((r.change n).lease_taken (r.grounded n) h).resolve_left hbefore
      refine ⟨n, Nat.lt_succ_self n, hruns, hbefore, fun j hnj hj => ?_⟩
      have hjn : j = n + 1 := Nat.le_antisymm hj hnj
      exact hjn ▸ h

/-- An exporter is called with a batch only by a holder of its lease. -/
theorem exports_of_says (r : Run α) {id : ExporterId} {n : Nat} {what : Occurrence} (h : r.Says id n what)
    (hcall : what.isExportCall = true) :
    ∃ holder, (r.state n).leased? holder = some id ∧ (r.state n).Exports (r.action n) holder := by
  rcases (r.change n).calls (r.grounded n) (r.balanced n) id with ⟨said, hsaid, hnone⟩ | hholder
  · obtain ⟨said', hsaid', hmem⟩ := h
    rw [hsaid] at hsaid'
    rw [← List.append_cancel_left hsaid'] at hmem
    rw [hnone what hmem] at hcall
    cases hcall
  · exact hholder

/-! ## Stages over time -/

section Finishing

variable (r : Run α) (hr : r.FinishesPasses) {id : ExporterId}

include hr

/-- An exporter is there in the next state, in its stage or in one that may follow. -/
theorem precedes {n : Nat} {entry : Entry} (he : (r.state n).pool.entry? id = some entry) :
    ∃ entry', (r.state (n + 1)).pool.entry? id = some entry' ∧
      (entry'.state = entry.state ∨ entry.state.Precedes entry'.state) := by
  obtain ⟨said, _, hages⟩ := r.ages hr n id
  rw [he] at hages
  exact hages.precedes

/-- An exporter that is to be stopped never runs again. -/
theorem stopping_of_le {n m : Nat} (hnm : n ≤ m) {entry : Entry} (he : (r.state n).pool.entry? id = some entry)
    (hstate : entry.state = .stopping ∨ entry.state = .stopped) :
    ∃ entry', (r.state m).pool.entry? id = some entry' ∧ (entry'.state = .stopping ∨ entry'.state = .stopped) := by
  induction m, hnm using Nat.le_induction with
  | base => exact ⟨entry, he, hstate⟩
  | succ m _ ih =>
    obtain ⟨mid, hmid, hstate⟩ := ih
    obtain ⟨entry', he', hsame | hprecedes⟩ := r.precedes hr hmid
    · exact ⟨entry', he', hsame ▸ hstate⟩
    · exact ⟨entry', he', .inr (hprecedes.eq_stopped hstate)⟩

/-- Once an exporter is to be stopped, it does not run. -/
theorem not_runsAt_of_le {n m : Nat} (hnm : n ≤ m) {entry : Entry} (he : (r.state n).pool.entry? id = some entry)
    (hstate : entry.state = .stopping ∨ entry.state = .stopped) : ¬ r.RunsAt id m := by
  rintro ⟨running, hrunning, hruns⟩
  obtain ⟨entry', he', hstate'⟩ := r.stopping_of_le hr hnm he hstate
  rw [hrunning] at he'
  injection he' with he'
  subst he'
  rcases hstate' with hstate' | hstate' <;> rw [hstate'] at hruns <;> cases hruns

/-- What a history says at some time it says ever after. -/
theorem mem_history_of_le {n m : Nat} (hnm : n ≤ m) {what : Occurrence} (h : what ∈ (r.state n).history id) :
    what ∈ (r.state m).history id := by
  induction m, hnm using Nat.le_induction with
  | base => exact h
  | succ m _ ih =>
    obtain ⟨said, hsaid, _⟩ := r.ages hr m id
    rw [hsaid]
    exact List.mem_append_left said ih

/-- A shutdown is called for an exporter that is being stopped and was not shut down. -/
theorem stopping_of_says {n : Nat} {what : Occurrence} (h : r.Says id n what) (hstop : what.isStopCall = true) :
    ∃ entry, (r.state n).pool.entry? id = some entry ∧ entry.state = .stopping ∧ entry.closed = false ∧
      (r.state (n + 1)).pool.entry? id = some { entry with closed := true } := by
  obtain ⟨said, hsaid, hages⟩ := r.ages hr n id
  obtain ⟨said', hsaid', hmem⟩ := h
  rw [hsaid] at hsaid'
  rw [← List.append_cancel_left hsaid'] at hmem
  exact hages.of_stopCall ⟨what, hmem, hstop⟩

/-- An exporter has started before it is called with a batch or shut down. -/
theorem started_of_says {n : Nat} {what : Occurrence} (h : r.Says id n what)
    (hcall : what.isExportCall = true ∨ what.isStopCall = true) : .started ∈ (r.state n).history id := by
  have hrecalls : ∀ {k entry}, (r.state k).pool.entry? id = some entry → entry.Recalls ((r.state k).history id) :=
    fun {k entry} he => by
      have := r.recalls hr id k
      rw [he] at this
      exact this
  rcases hcall with hcall | hcall
  · obtain ⟨holder, hleased, _⟩ := r.exports_of_says h hcall
    obtain ⟨k, hk, ⟨entry, he, hruns⟩, _⟩ := r.held_since hleased
    exact r.mem_history_of_le hr (Nat.le_of_lt hk) ((hrecalls he).started.2 (.inl hruns))
  · obtain ⟨entry, he, hstate, _⟩ := r.stopping_of_says hr h hcall
    exact (hrecalls he).started.2 (.inr (.inl hstate))

/-- In a history, the start has succeeded before every call of an export and before every shutdown. -/
theorem started_before (n : Nat) : ∀ before what after, (r.state n).history id = before ++ what :: after →
    what.isExportCall = true ∨ what.isStopCall = true → .started ∈ before := by
  induction n with
  | zero =>
    intro before what after heq
    have hnil : (r.state 0).history id = [] := rfl
    rw [hnil] at heq
    cases before <;> cases heq
  | succ n ih =>
    intro before what after heq hcall
    obtain ⟨said, hsaid, _⟩ := r.ages hr n id
    rw [hsaid] at heq
    rcases List.append_eq_append_iff.1 heq with ⟨mid, hbefore, hsplit⟩ | ⟨mid, hbefore, hsplit⟩
    · have hmem : what ∈ said := hsplit ▸ List.mem_append_right mid List.mem_cons_self
      rw [hbefore]
      exact List.mem_append_left mid (r.started_of_says hr ⟨said, hsaid, hmem⟩ hcall)
    · cases mid with
      | nil =>
        have hmem : what ∈ said := by
          rw [List.nil_append] at hsplit
          exact hsplit ▸ List.mem_cons_self
        rw [List.append_nil] at hbefore
        exact hbefore ▸ r.started_of_says hr ⟨said, hsaid, hmem⟩ hcall
      | cons first mid =>
        injection hsplit with hfirst hsplit
        subst hfirst
        exact ih before what mid hbefore hcall

/-! ## Shutdowns -/

/-- The shutdown of an exporter is called when it has no leases, or because its drain times out. -/
theorem idle_or_timesOut {n : Nat} {what : Occurrence} (h : r.Says id n what) (hstop : what.isStopCall = true) :
    (∀ holder, (r.state n).leased? holder ≠ some id) ∨
      (r.TimesOut id n ∧ ∃ deadline, (r.state n).Retiring id (.waiting deadline) ∧
        Instant.reached deadline (r.state n).now = true) := by
  obtain ⟨entry, he, _, hopen, hclosed⟩ := r.stopping_of_says hr h hstop
  rcases (r.change n).aside_or_pass (r.grounded n) (r.orderly hr n).inside (hr n) with haside | ⟨_, _, p, rest, _, hw, _, hstep⟩
  · obtain ⟨entry', he', hlife⟩ := haside.ageless.entries id entry he
    rw [hclosed] at he'
    injection he' with he'
    have hsame := hlife.closed
    rw [← he', hopen] at hsame
    cases hsame
  · rcases hstep.closes hw he hclosed hopen rfl with hidle | ⟨deadline, wake, hwaiting, hreached, hclosing⟩
    · refine .inl (fun holder hleased => ?_)
      have hpos := Balancer.lent_pos_of_leased? hleased
      rw [← (r.balanced n).counts id entry he, hidle] at hpos
      exact absurd hpos (Nat.lt_irrefl 0)
    · exact .inr ⟨⟨deadline, wake, hwaiting, hclosing⟩, deadline, hwaiting, hreached⟩

omit hr in
/-- A timer that has gone off was set for an instant that is over. -/
theorem le_ofTick_of_reached {i now : Nat} (h : Instant.reached i now = true) : i ≤ Instant.ofTick now := by
  unfold Instant.reached Instant.tick at h
  have htick : (i + 999999) / 1000000 ≤ now := of_decide_eq_true h
  unfold Instant.ofTick
  omega

/-- An exporter whose drain does not time out is leased by nobody when its shutdown is called, and never again. -/
theorem not_leased_of_stop (hin : ∀ n, ¬ r.TimesOut id n) {n m : Nat} {what : Occurrence} (h : r.Says id n what)
    (hstop : what.isStopCall = true) (hnm : n ≤ m) (holder : Holder) : (r.state m).leased? holder ≠ some id := by
  intro hleased
  have hidle := (r.idle_or_timesOut hr h hstop).resolve_right (fun htimesOut => hin n htimesOut.1)
  obtain ⟨entry, he, hstate, _⟩ := r.stopping_of_says hr h hstop
  obtain ⟨k, hk, hruns, _, hsince⟩ := r.held_since hleased
  rcases Nat.lt_or_ge k n with hkn | hnk
  · exact hidle holder (hsince n hkn hnm)
  · exact r.not_runsAt_of_le hr hnk he (.inl hstate) hruns

/-! ## The whole life -/

/-- In a run that finishes its passes, every exporter has its life. -/
theorem lifecycle (id : ExporterId) : r.Lifecycle id where
  grows := fun n => by
    obtain ⟨said, hsaid, _⟩ := r.ages hr n id
    exact ⟨said, hsaid⟩
  unmade := fun n hnone => by
    have hrecalls := r.recalls hr id n
    rw [hnone] at hrecalls
    exact hrecalls
  starts := fun n entry he => by
    have hrecalls := r.recalls hr id n
    rw [he] at hrecalls
    exact hrecalls.starts
  started := r.started_before hr
  exports := fun n what hsays hcall => by
    obtain ⟨holder, hleased, hexports⟩ := r.exports_of_says hsays hcall
    obtain ⟨k, hsince⟩ := r.held_since hleased
    exact ⟨holder, k, hexports, hsince⟩
  stops := fun n => by
    have hrecalls := r.recalls hr id n
    rcases he : (r.state n).pool.entry? id with _ | entry
    · rw [he] at hrecalls
      have hnil : (r.state n).history id = [] := hrecalls
      rw [hnil]
      exact Nat.zero_le 1
    · rw [he] at hrecalls
      rw [hrecalls.stops]
      split
      · exact Nat.le_refl 1
      · exact Nat.zero_le 1
  born := fun n entry hnone he => by
    obtain ⟨said, _, hages⟩ := r.ages hr n id
    rw [hnone, he] at hages
    exact hages.starting
  moves := fun n entry he => r.precedes hr he
  refuses := fun n entry he hstate m hnm e pool hlease => by
    obtain ⟨running, _, hentry, hruns, _⟩ := Pool.lease?_eq_some_iff.1 hlease
    exact r.not_runsAt_of_le hr hnm he hstate ⟨running, hentry, hruns⟩
  patient := fun n what hsays hstop ⟨holder, hleased⟩ => by
    rcases r.idle_or_timesOut hr hsays hstop with hidle | ⟨_, deadline, hwaiting, hreached⟩
    · exact absurd hleased (hidle holder)
    · obtain ⟨k, hk, hruns, hstopping, rfl⟩ := r.drain_began hr id n _ deadline hwaiting rfl
      exact ⟨k, hk, ⟨hruns, hstopping⟩, le_ofTick_of_reached hreached⟩
  quiet := fun hin n what hsays hstop m hnm => by
    have hnone := r.not_leased_of_stop hr hin hsays hstop hnm
    refine ⟨fun hprogress => ?_, fun what' hsays' => ?_⟩
    · obtain ⟨holder, hleased⟩ := (r.balanced m).leased_of_inProgress hprogress
      exact hnone holder hleased
    · refine Bool.eq_false_iff.2 (fun hcall => ?_)
      obtain ⟨holder, hleased, _⟩ := r.exports_of_says hsays' hcall
      exact hnone holder hleased

end Finishing

/-- A run in which the drain of an exporter times out because of a lease from outside, through which the exporter is called with a
batch once it is shut down. -/
def overdue : Run Unit := ofScript ⟨[]⟩
  [(0, .request (.reconcile [⟨"a"⟩])), (7, .lease ⟨"a"⟩ "kept"), (8, .request .retireAll), (14, .advance 30000),
    (17, .request (.exportLeased 0 ⟨[]⟩))]
  (fun n => if n < 7 then 0 else if n < 17 then 1 else 2)

/-- The life of the exporter in that run. -/
theorem lifecycle_overdue : overdue.FinishesPasses ∧
    (overdue.state 19).history 0 = [.created, .starting, .started, .stopping 0, .stopped, .exportRefused] ∧
    overdue.Lifecycle 0 := by
  have hfinishes : overdue.FinishesPasses := finishesPasses_ofScript (by decide)
  exact ⟨hfinishes, by decide +kernel, overdue.lifecycle hfinishes 0⟩

end Run

end TelemetryRouter
