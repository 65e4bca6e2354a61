import TelemetryRouter.Proofs.Listings
import TelemetryRouter.Proofs.Readings
import TelemetryRouter.Proofs.Stages

/-!
# What the recorder says about the pool

The pool is measured when a pass ends, and only then. While no pass is under way nothing changes its list, and every exporter runs or is
stopped; so from the first pass on, whenever none is under way, the gauge is the size of the list and the number of exporters that are up
(`Run.gauged`). The passes that added or removed something are counted, the others are not.
-/

namespace TelemetryRouter

variable {α : Type}

/-- Whether an exporter with a history has started and was not shut down. -/
def isUp (history : List Occurrence) : Bool := decide (.started ∈ history) && !history.any Occurrence.isStopCall

/-- An exporter is up as long as it runs or is to be stopped, and was not shut down. -/
theorem Entry.Recalls.isUp_iff {entry : Entry} {history : List Occurrence} (h : entry.Recalls history) :
    isUp history = true ↔ (entry.state = .running ∨ entry.state = .stopping) ∧ entry.closed = false := by
  have hstops : history.any Occurrence.isStopCall = entry.closed := by
    rcases hclosed : entry.closed with _ | _
    · rw [List.any_eq_false, ← List.countP_eq_zero, h.stops, hclosed]
      rfl
    · rw [List.any_eq_true, ← List.countP_pos_iff, h.stops, hclosed]
      exact Nat.one_pos
  rw [isUp, Bool.and_eq_true, decide_eq_true_iff, h.started, hstops, Bool.not_eq_true']
  rcases entry.closed with _ | _ <;> simp

namespace Run

variable (r : Run α)

/-- What the pass that is over with a step tells its task, if one is. -/
def reported? (n : Nat) : Option ReconcileOutcome :=
  match (r.state n).pool.gate.inside with
  | some t =>
    if (r.state (n + 1)).pool.gate.inside = none then
      match ((r.state (n + 1)).task? t).map Task.outcome with
      | some (.reconciled outcome) => some outcome
      | _ => none
    else none
  | none => none

/-- What the passes that were over before a step have told, in order. -/
def reports (n : Nat) : List ReconcileOutcome := gather r.reported? n

/-- What the recorder says about the pool. -/
structure Gauged (n : Nat) : Prop where
  /-- Every pass that added or removed something was counted, and no other. -/
  updates : (r.state n).metrics.count (MetricBook.backendUpdatesKey r.resolver.name) =
    (r.reports n).countP (fun o => o.added ≠ [] ∨ o.removed ≠ [])
  /-- Once a pass is over and while none is under way, the gauge is the number of entries of the pool. -/
  entries : (r.state n).pool.gate.inside = none → r.reports n ≠ [] →
    (r.state n).metrics.find? (MetricBook.backendsKey r.resolver.name) = some (.gauge (r.state n).pool.size)
  /-- That is the number of exporters that have started and were not shut down. -/
  exporters : (r.state n).pool.gate.inside = none →
    (r.state n).pool.size = (List.range (r.state n).pool.made.length).countP (fun id => isUp ((r.state n).history id))

variable {r}

/-! ## Ends of passes -/

/-- The end of a pass leaves the list of the pool and measures it. -/
theorem ends {n : Nat} {outcome : ReconcileOutcome} (hend : (r.state n).passEnd? (r.action n) = some outcome) :
    (r.state (n + 1)).pool.current = (r.state n).pool.current ∧
      (r.state (n + 1)).metrics = (if outcome.changed then (r.state n).metrics.recordBackendUpdate r.resolver.name
        else (r.state n).metrics).recordBackends r.resolver.name (r.state n).pool.size := by
  have hrecording := r.recording n
  generalize r.action n = a at hrecording hend
  generalize r.state (n + 1) = next at hrecording ⊢
  cases hrecording with
  | still _ noEnd _ =>
    rw [noEnd] at hend
    cases hend
  | parcel works _ _ _ _ =>
    rw [Balancer.passEnd?, works] at hend
    cases hend
  | @pass t way p rest outcome' works ended =>
    rw [ended] at hend
    injection hend with hend
    subst hend
    refine ⟨?_, ?_⟩
    · obtain ⟨metrics, heq⟩ := Balancer.concludePass_eq (r.state n) t rest outcome'
      rw [heq]
      rfl
    · rw [Balancer.metrics_concludePass, r.name_eq n]

/-- While no pass ends, nothing is recorded about the pool. -/
theorem find?_of_passEnd? {n : Nat} (hnone : (r.state n).passEnd? (r.action n) = none) {k : MetricKey}
    (hk : k.name = "loadbalancer_num_backends" ∨ k.name = "loadbalancer_num_backend_updates") :
    (r.state (n + 1)).metrics.find? k = (r.state n).metrics.find? k := by
  have hne : ∀ name : String, name ≠ "loadbalancer_num_backends" → name ≠ "loadbalancer_num_backend_updates" → k.name ≠ name :=
    fun name hgauge hupdates heq => hk.elim (fun h => hgauge (heq ▸ h)) (fun h => hupdates (heq ▸ h))
  have hrecording := r.recording n
  generalize r.action n = a at hrecording hnone
  generalize r.state (n + 1) = next at hrecording ⊢
  cases hrecording with
  | still agrees _ _ => exact agrees k (hne _ (by decide) (by decide))
  | pass _ ended =>
    rw [ended] at hnone
    cases hnone
  | parcel _ _ _ _ record => exact record.find?_of_ne (hne _ (by decide) (by decide)) (hne _ (by decide) (by decide))

section Finishing

variable (hr : r.FinishesPasses) {n : Nat}

include hr

/-- While no pass ends, the pool keeps its list and its gate, or a pass is inside the gate afterwards. -/
theorem same_or_inside (hnone : (r.state n).passEnd? (r.action n) = none) :
    ((r.state (n + 1)).pool.gate.inside = (r.state n).pool.gate.inside ∧
        (r.state (n + 1)).pool.current = (r.state n).pool.current) ∨
      ∃ t, (r.state (n + 1)).pool.gate.inside = some t ∧
        ((r.state n).pool.gate.inside = none ∨ (r.state n).pool.gate.inside = some t) := by
  have ho := r.orderly hr n
  rcases (r.change n).aside_or_pass (r.grounded n) ho.inside (hr n) with haside | ⟨t, way, p, rest, haction, hw, _, hstep⟩
  · exact .inl ⟨haside.inside, haside.ageless.current⟩
  · have hinside : p.phase ≠ .queued → (r.state n).pool.gate.inside = some t := ho.turn t p (Balancer.duty?_of_works hw rfl)
    rw [haction] at hnone
    generalize hnext : r.state (n + 1) = next at hstep
    cases hstep with
    | enter _ enters _ _ =>
      obtain ⟨hfree, _, hafter⟩ := (Gate.enter?_eq_some_iff _ _ _).1 enters
      exact .inr ⟨t, hafter, .inl hfree⟩
    | attempt phase _ _ frame _ =>
      have hbefore := hinside (by rw [phase]; exact fun h => nomatch h)
      exact .inr ⟨t, (congrArg Gate.inside frame.gate).trans hbefore, .inr hbefore⟩
    | publish phase _ =>
      have hbefore := hinside (by rw [phase]; exact fun h => nomatch h)
      exact .inr ⟨t, hbefore, .inr hbefore⟩
    | retire phase _ _ frame _ _ =>
      have hbefore := hinside (by rw [phase]; exact fun h => nomatch h)
      exact .inr ⟨t, (congrArg Gate.inside frame.gate).trans hbefore, .inr hbefore⟩
    | conclude phase ended =>
      rw [Balancer.passEnd?, hw, List.head?_cons] at hnone
      dsimp only at hnone
      rw [phase] at hnone
      dsimp only at hnone
      rw [if_pos ended] at hnone
      cases hnone

/-- What a pass tells its task is its outcome, and a pass that ends is the one inside the gate. -/
theorem reported?_eq : r.reported? n = (r.state n).passEnd? (r.action n) := by
  rcases hend : (r.state n).passEnd? (r.action n) with _ | outcome
  · unfold reported?
    rcases same_or_inside hr hend with ⟨hsame, _⟩ | ⟨t, hafter, hbefore⟩
    · split
      · rename_i t hinside
        rw [hsame, hinside, if_neg (fun h => nomatch h)]
      · rfl
    · rcases hbefore with hbefore | hbefore
      · rw [hbefore]
      · rw [hbefore, hafter]
        exact if_neg (fun h => nomatch h)
  · have hrecording := r.recording n
    generalize haction : r.action n = a at hrecording hend
    generalize hnext : r.state (n + 1) = next at hrecording
    cases hrecording with
    | still _ noEnd _ =>
      rw [noEnd] at hend
      cases hend
    | parcel works _ _ _ _ =>
      rw [Balancer.passEnd?, works] at hend
      cases hend
    | @pass t way p rest outcome' works ended =>
      rw [ended] at hend
      injection hend with hend
      subst hend
      have hinside : (r.state n).pool.gate.inside = some t := by
        refine (r.orderly hr n).turn t p (Balancer.duty?_of_works works rfl) (fun hqueued => ?_)
        rw [Balancer.passEnd?, works, List.head?_cons] at ended
        dsimp only at ended
        rw [hqueued] at ended
        cases ended
      obtain ⟨metrics, heq⟩ := Balancer.concludePass_eq (r.state n) t rest outcome'
      have hfree : (r.state (n + 1)).pool.gate.inside = none := by
        rw [hnext, heq]
        exact if_pos hinside
      have htold : ((r.state (n + 1)).task? t).map Task.outcome = some (.reconciled outcome') := by
        rw [hnext, heq, Balancer.task?, Balancer.finish, List.getElem?_modify_eq,
          List.getElem?_eq_getElem (Balancer.lt_of_works works)]
        rfl
      rw [reported?, hinside]
      dsimp only
      rw [if_pos hfree, htold]

/-- Every pass that added or removed something is counted, and nothing else. -/
theorem count_updates (n : Nat) : (r.state n).metrics.count (MetricBook.backendUpdatesKey r.resolver.name) =
    (r.reports n).countP (fun o => o.added ≠ [] ∨ o.removed ≠ []) := by
  induction n with
  | zero => rfl
  | succ n ih =>
    rw [reports]
    rcases hend : (r.state n).passEnd? (r.action n) with _ | outcome
    · rw [gather_succ_of_none ((reported?_eq hr).trans hend), ← reports, ← ih, MetricBook.count, MetricBook.count,
        find?_of_passEnd? hend (.inr rfl)]
    · rw [gather_succ_of_some ((reported?_eq hr).trans hend), List.countP_append, ← reports, ← ih, (ends hend).2]
      have hmeasured : ∀ b : MetricBook, (b.recordBackends r.resolver.name (r.state n).pool.size).count
          (MetricBook.backendUpdatesKey r.resolver.name) = b.count (MetricBook.backendUpdatesKey r.resolver.name) := fun b =>
        b.count_set_of_ne (MetricBook.ne_of_name (by simp [MetricBook.backendsKey, MetricBook.backendUpdatesKey])) _
      rw [hmeasured, List.countP_singleton]
      rcases hchanged : outcome.changed with _ | _
      · rw [if_neg Bool.false_ne_true, if_neg (by simpa [ReconcileOutcome.changed] using hchanged), Nat.add_zero]
      · rw [if_pos rfl, if_pos (by simpa [ReconcileOutcome.changed, or_iff_not_imp_left] using hchanged),
          MetricBook.recordBackendUpdate, MetricBook.count_increment_self]

/-- Once a pass is over and while none is under way, the gauge is the number of entries. -/
theorem find?_entries (n : Nat) (hfree : (r.state n).pool.gate.inside = none) (hsome : r.reports n ≠ []) :
    (r.state n).metrics.find? (MetricBook.backendsKey r.resolver.name) = some (.gauge (r.state n).pool.size) := by
  induction n with
  | zero => exact absurd rfl hsome
  | succ n ih =>
    rw [reports] at hsome
    rcases hend : (r.state n).passEnd? (r.action n) with _ | outcome
    · rw [gather_succ_of_none ((reported?_eq hr).trans hend)] at hsome
      rw [find?_of_passEnd? hend (.inl rfl)]
      rcases same_or_inside hr hend with ⟨hgate, hcurrent⟩ | ⟨t, hinside, _⟩
      · rw [ih (hgate ▸ hfree) hsome, Pool.size, Pool.size, hcurrent]
      · rw [hinside] at hfree
        cases hfree
    · obtain ⟨hcurrent, hmetrics⟩ := ends hend
      rw [hmetrics, MetricBook.find?_recordBackends, if_pos rfl, Pool.size, Pool.size, hcurrent]

/-- While no pass is under way, the pool lists the exporters that are up. -/
theorem mem_listed_iff (hfree : (r.state n).pool.gate.inside = none) (id : ExporterId) :
    id ∈ (r.state n).pool.current.map Prod.snd ↔ id < (r.state n).pool.made.length ∧ isUp ((r.state n).history id) = true := by
  have ho := r.orderly hr n
  rcases he : (r.state n).pool.entry? id with _ | entry
  · refine ⟨fun hmem => ?_, fun ⟨hlt, _⟩ => absurd (List.getElem?_eq_none_iff.1 he) (Nat.not_le_of_gt hlt)⟩
    obtain ⟨x, hx, rfl⟩ := List.mem_map.1 hmem
    obtain ⟨entry, hentry, _⟩ := Balancer.entry?_of_endpointOf? ((r.grounded n).current x hx)
    rw [he] at hentry
    cases hentry
  · have hmem : id ∈ (r.state n).pool.current.map Prod.snd ↔ (entry.endpoint, id) ∈ (r.state n).pool.current := by
      refine ⟨fun hmem => ?_, fun hmem => List.mem_map.2 ⟨_, hmem, rfl⟩⟩
      obtain ⟨x, hx, rfl⟩ := List.mem_map.1 hmem
      obtain ⟨entry', hentry, hendpoint⟩ := Balancer.entry?_of_endpointOf? ((r.grounded n).current x hx)
      rw [he] at hentry
      injection hentry with hentry
      rw [hentry, hendpoint]
      exact hx
    have hrecalls := r.recalls hr id n
    rw [he] at hrecalls
    rw [hmem, ← ho.kept.listed id entry he, hrecalls.isUp_iff, and_iff_right (List.getElem?_eq_some_iff.1 he).1]
    rcases ho.free hfree id entry he with hstate | hstate
    · have hopen := ho.kept.unclosed id entry he (.inr hstate)
      simp [hstate, hopen]
    · simp [hstate]

theorem size_eq_countP (hfree : (r.state n).pool.gate.inside = none) : (r.state n).pool.size =
    (List.range (r.state n).pool.made.length).countP (fun id => isUp ((r.state n).history id)) := by
  have hperm : ((r.state n).pool.current.map Prod.snd).Perm
      ((List.range (r.state n).pool.made.length).filter (fun id => isUp ((r.state n).history id))) := by
    refine (List.perm_ext_iff_of_nodup ((r.orderly hr n).kept.nodup_listed (r.grounded n)) (List.nodup_range.filter _)).2
      (fun id => ?_)
    rw [mem_listed_iff hr hfree, List.mem_filter, List.mem_range]
  rw [List.countP_eq_length_filter, ← hperm.length_eq, List.length_map, Pool.size]

/-- In every state of a run whose passes are finished, the recorder says what there is to say about the pool. -/
theorem gauged (n : Nat) : r.Gauged n where
  updates := count_updates hr n
  entries := find?_entries hr n
  exporters := size_eq_countP hr

end Finishing

/-- A run of three passes: one fails to start an exporter, one starts another one, and the last one, of a shutdown, retires that, which
refuses to stop. -/
def wavering : Run Unit := ofScript
  ⟨[("a", { Behaviour.smooth with stop := ⟨0, .always, none⟩ }), ("b", { Behaviour.smooth with start := ⟨0, .always, none⟩ })]⟩
  [(0, .request (.update [⟨"b"⟩])), (7, .request (.reconcile [⟨"a"⟩])), (14, .request .shutdown)]
  (fun n => if n < 7 then 0 else if n < 14 then 1 else 2)

/-- What the recorder says in that run: two of the passes are counted. -/
theorem gauged_wavering : wavering.FinishesPasses ∧ (wavering.state 24).pool.gate.inside = none ∧
    wavering.reports 24 = [⟨[], [], [⟨"b"⟩]⟩, ⟨[⟨"a"⟩], [], []⟩, ⟨[], [⟨"a"⟩], []⟩] ∧
    (wavering.state 24).metrics.count (MetricBook.backendUpdatesKey wavering.resolver.name) = 2 ∧ wavering.Gauged 24 := by
  have hfinishes : wavering.FinishesPasses := finishesPasses_ofScript (by decide)
  have hall : (wavering.state 24).pool.gate.inside = none ∧
      wavering.reports 24 = [⟨[], [], [⟨"b"⟩]⟩, ⟨[⟨"a"⟩], [], []⟩, ⟨[], [⟨"a"⟩], []⟩] ∧
      (wavering.state 24).metrics.count (MetricBook.backendUpdatesKey wavering.resolver.name) = 2 := by
    decide +kernel
  exact ⟨hfinishes, hall.1, hall.2.1, hall.2.2, wavering.gauged hfinishes 24⟩

end Run

end TelemetryRouter
