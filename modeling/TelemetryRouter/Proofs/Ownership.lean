import TelemetryRouter.Proofs.Consistency
import TelemetryRouter.Proofs.Lifecycle

/-!
# Who owns a connection

An exporter that has started is connected until its shutdown is called. As long as no pass is given up on the way, an endpoint
has at most one connected exporter, and an exporter that has started belongs to the pool until its shutdown has ended: none is
forgotten. An endpoint gets another exporter only after the shutdown of the one before has ended, and never an old one again.
-/

namespace TelemetryRouter

variable {α : Type}

/-- Whether an occurrence is the end of a shutdown, well or not. -/
def Occurrence.isStopEnd : Occurrence → Bool
  | .stopped => true
  | .stopFailed => true
  | _ => false

/-- Whether a history has the end of a shutdown, if its exporter is stopped and was shut down. -/
def RecallsEnd (entry : Option Entry) (history : List Occurrence) : Prop :=
  ∀ x ∈ entry, x.state = .stopped → x.closed = true → ∃ what ∈ history, what.isStopEnd = true

/-- A history gets the end of a shutdown when the exporter is stopped by it, and keeps it. -/
theorem Ages.recallsEnd {before after : Option Entry} {said history : List Occurrence} (h : Ages before said after)
    (hbefore : RecallsEnd before history) : RecallsEnd after (history ++ said) := by
  intro x hx hstate hclosed
  have hold : ∀ {old : Entry}, before = some old → old.state = .stopped → old.closed = true →
      ∃ what ∈ history ++ said, what.isStopEnd = true := by
    intro old hbefore' hstate' hclosed'
    obtain ⟨what, hmem, hend⟩ := hbefore old hbefore' hstate' hclosed'
    exact ⟨what, List.mem_append_left said hmem, hend⟩
  cases h with
  | absent => cases hx
  | make state _ =>
    cases hx
    rw [state] at hstate
    cases hstate
  | rest life _ =>
    cases hx
    exact hold rfl (life.state ▸ hstate) (life.closed ▸ hclosed)
  | run _ _ =>
    cases hx
    cases hstate
  | stumble _ closed =>
    cases hx
    rw [closed] at hclosed
    cases hclosed
  | mark _ _ =>
    cases hx
    cases hstate
  | close state _ =>
    cases hx
    rw [state] at hstate
    cases hstate
  | @leave _ what _ _ what_eq =>
    refine ⟨what, List.mem_append_right history List.mem_cons_self, ?_⟩
    rcases what_eq with rfl | rfl <;> rfl

namespace Balancer

variable {b c : Balancer α}

/-- Whether an exporter has started and its shutdown has not been called. -/
def Connected (b : Balancer α) (id : ExporterId) : Prop :=
  .started ∈ b.history id ∧ (b.history id).countP Occurrence.isStopCall = 0

/-- Whether the shutdown of an exporter has been called once and has ended. -/
def Disconnected (b : Balancer α) (id : ExporterId) : Prop :=
  (b.history id).countP Occurrence.isStopCall = 1 ∧ ∃ what ∈ b.history id, what.isStopEnd = true

/-- An exporter that is made in a step of a pass is one that the pass was making for its endpoint. -/
theorem PassStep.attempting_of_made {t : TaskId} {rest : List (Work α)} {p : Pass} (hw : b.works t = .pass p :: rest)
    (h : PassStep b t rest p c) {id : ExporterId} {e : Endpoint} (hnone : b.pool.entry? id = none)
    (hmade : c.endpointOf? id = some e) : ∃ phase, b.Attempting e phase ∧ phase.isUnmade = true := by
  obtain ⟨entry, he, rfl⟩ := entry?_of_endpointOf? hmade
  have hsame : c.pool.made = b.pool.made → ∃ phase, b.Attempting entry.endpoint phase ∧ phase.isUnmade = true := fun hmade => by
    rw [Pool.entry?, hmade, ← Pool.entry?, hnone] at he
    cases he
  have htouched : ∀ {d : Balancer α} {x : ExporterId} {old new : Entry} {said : List Occurrence}, Touches b d x old new said →
      d.pool.entry? id = some entry → ∃ phase, b.Attempting entry.endpoint phase ∧ phase.isUnmade = true := by
    intro d x old new said touches he
    have hlt : id < b.pool.made.length := touches.length ▸ (List.getElem?_eq_some_iff.1 he).1
    exact absurd hlt (Nat.not_lt.2 (List.getElem?_eq_none_iff.1 hnone))
  cases h with
  | enter _ _ _ _ => exact hsame rfl
  | publish _ _ => exact hsame rfl
  | @attempt wanted attempts _ a a' _ phase_eq at_way _ _ step =>
    obtain ⟨x, phase⟩ := a
    obtain ⟨x', phase'⟩ := a'
    dsimp only at step
    cases step with
    | call same => exact hsame same.made
    | refuse same => exact hsame same.made
    | make made _ _ _ =>
      rcases entry?_of_make made he with ⟨he, _⟩ | ⟨_, rfl⟩
      · rw [hnone] at he
        cases he
      · exact ⟨_, ⟨t, p, wanted, attempts, duty?_of_works hw rfl, phase_eq, List.mem_of_getElem? at_way⟩, rfl⟩
    | run touches _ => exact htouched touches he
    | stumble touches _ => exact htouched touches he
  | @retire _ _ _ _ r r' _ _ _ _ _ _ _ step =>
    obtain ⟨x, phase⟩ := r
    obtain ⟨x', phase'⟩ := r'
    dsimp only at step
    cases step with
    | mark touches _ => exact htouched touches he
    | drain _ _ touches _ => exact htouched touches he
    | close _ touches _ => exact htouched touches he
    | giveUp _ _ touches _ => exact htouched touches he
    | leave _ touches _ => exact htouched touches he
  | @conclude added failed retirements _ _ =>
    obtain ⟨metrics, heq⟩ := concludePass_eq b t rest (b.passOutcome added failed retirements)
    rw [heq] at he
    exact hsame (by rw [heq]; rfl)

theorem Orderly.lacks_of_isUnmade (ho : b.Orderly) {e : Endpoint} {phase : AttemptPhase} (h : b.Attempting e phase)
    (hphase : phase.isUnmade = true) : b.Lacks e := by
  obtain ⟨t, p, wanted, attempts, hd, hadding, hmem⟩ := h
  exact (ho.starts_of_adding hd hadding).absent _ hmem hphase

end Balancer

namespace Run

/-- What a run does to the connections of one endpoint. -/
structure Owned (r : Run α) (e : Endpoint) : Prop where
  single : ∀ n, ((r.state n).pool.current.filter (fun c => c.1 = e)).length ≤ 1
  /-- At most one exporter of the endpoint is connected. -/
  alone : ∀ n id id', (r.state n).endpointOf? id = some e → (r.state n).endpointOf? id' = some e →
    (r.state n).Connected id → (r.state n).Connected id' → id = id'
  /-- An exporter that has started belongs to the pool, or its shutdown has been called once, and has ended. -/
  kept : ∀ n id, (r.state n).endpointOf? id = some e → .started ∈ (r.state n).history id →
    (r.state n).pool.find? e = some id ∨ (r.state n).Disconnected id
  once : ∀ n id, (r.state n).endpointOf? id = some e → ((r.state n).history id).countP Occurrence.isStopCall ≤ 1
  /-- While an exporter is still to be made for the endpoint, all that had started before are disconnected. -/
  vacated : ∀ n phase, (r.state n).Attempting e phase → phase.isUnmade = true → ∀ id, (r.state n).endpointOf? id = some e →
    .started ∈ (r.state n).history id → (r.state n).Disconnected id
  /-- When another exporter is made for the endpoint, all that had started before are disconnected. -/
  renewed : ∀ n new, (r.state n).pool.entry? new = none → (r.state (n + 1)).endpointOf? new = some e →
    ∀ id, (r.state n).endpointOf? id = some e → .started ∈ (r.state n).history id → (r.state n).Disconnected id
  /-- An exporter that has left the pool never comes back. -/
  fresh : ∀ n id, (r.state n).endpointOf? id = some e → (r.state n).pool.find? e ≠ some id →
    ∀ m, n ≤ m → (r.state m).pool.find? e ≠ some id

/-- In every state of a run, a stopped exporter that was shut down has the end of its shutdown in its history. -/
theorem recallsEnd (r : Run α) (hr : r.FinishesPasses) (id : ExporterId) :
    ∀ n, RecallsEnd ((r.state n).pool.entry? id) ((r.state n).history id)
  | 0 => fun _ hx => nomatch hx
  | n + 1 => by
    obtain ⟨said, hsaid, hages⟩ := r.ages hr n id
    rw [hsaid]
    exact hages.recallsEnd (r.recallsEnd hr id n)

section Finishing

variable (r : Run α) (hr : r.FinishesPasses) {id : ExporterId}

include hr

/-- What the history of a made exporter says is what its entry recalls. -/
theorem recalls_of_entry {n : Nat} {entry : Entry} (he : (r.state n).pool.entry? id = some entry) :
    entry.Recalls ((r.state n).history id) := by
  have hrecalls := r.recalls hr id n
  rw [he] at hrecalls
  exact hrecalls

/-- An exporter that has started and is stopped is disconnected. -/
theorem disconnected_of_stopped {n : Nat} {entry : Entry} (he : (r.state n).pool.entry? id = some entry)
    (hstate : entry.state = .stopped) (hstarted : .started ∈ (r.state n).history id) : (r.state n).Disconnected id := by
  have hrecalls := r.recalls_of_entry hr he
  have hclosed : entry.closed = true := by
    rcases hrecalls.started.1 hstarted with h | h | h
    · rw [hstate] at h
      cases h
    · rw [hstate] at h
      cases h
    · exact h
  exact ⟨by rw [hrecalls.stops, hclosed]; rfl, r.recallsEnd hr id n entry he hstate hclosed⟩

/-- An exporter that the pool does not list is stopped. -/
theorem stopped_of_not_listed {n : Nat} {e : Endpoint} (hendpoint : (r.state n).endpointOf? id = some e)
    (hnot : (e, id) ∉ (r.state n).pool.current) : ∃ entry, (r.state n).pool.entry? id = some entry ∧ entry.state = .stopped := by
  obtain ⟨entry, he, rfl⟩ := Balancer.entry?_of_endpointOf? hendpoint
  refine ⟨entry, he, ?_⟩
  by_contra hstate
  exact hnot (((r.orderly hr n).kept.listed id entry he).1 hstate)

/-- An exporter that has started is listed or disconnected. -/
theorem disconnected_of_not_listed {n : Nat} {e : Endpoint} (hendpoint : (r.state n).endpointOf? id = some e)
    (hnot : (e, id) ∉ (r.state n).pool.current) (hstarted : .started ∈ (r.state n).history id) :
    (r.state n).Disconnected id := by
  obtain ⟨entry, he, hstate⟩ := r.stopped_of_not_listed hr hendpoint hnot
  exact r.disconnected_of_stopped hr he hstate hstarted

theorem listed_of_connected {n : Nat} {e : Endpoint} (hendpoint : (r.state n).endpointOf? id = some e)
    (h : (r.state n).Connected id) : (e, id) ∈ (r.state n).pool.current := by
  by_contra hnot
  have hstops := (r.disconnected_of_not_listed hr hendpoint hnot h.1).1
  rw [h.2] at hstops
  cases hstops

theorem stopped_of_le {n m : Nat} (hnm : n ≤ m) {entry : Entry} (he : (r.state n).pool.entry? id = some entry)
    (hstate : entry.state = .stopped) : ∃ entry', (r.state m).pool.entry? id = some entry' ∧ entry'.state = .stopped := by
  induction m, hnm using Nat.le_induction with
  | base => exact ⟨entry, he, hstate⟩
  | succ m _ ih =>
    obtain ⟨mid, hmid, hstate⟩ := ih
    obtain ⟨entry', he', hsame | hprecedes⟩ := r.precedes hr hmid
    · exact ⟨entry', he', hsame.trans hstate⟩
    · exact ⟨entry', he', hprecedes.eq_stopped (.inr hstate)⟩

/-- In a run that finishes its passes, no connection of an endpoint is doubled and none is forgotten. -/
theorem owned (e : Endpoint) : r.Owned e where
  single := fun n => by
    have hdistinct := (r.orderly hr n).kept.distinct
    have hle : ((r.state n).pool.current.filter (fun c => c.1 = e)).length =
        ((r.state n).pool.current.map Prod.fst).count e := by
      rw [List.count_eq_countP, List.countP_map, List.countP_eq_length_filter]
      rfl
    exact hle ▸ List.nodup_iff_count_le_one.1 hdistinct e
  alone := fun n id id' hendpoint hendpoint' h h' =>
    (r.orderly hr n).kept.eq_of_mem (r.listed_of_connected hr hendpoint h) (r.listed_of_connected hr hendpoint' h')
  kept := fun n id hendpoint hstarted => by
    by_cases hlisted : (e, id) ∈ (r.state n).pool.current
    · exact .inl ((r.orderly hr n).kept.find?_eq_some hlisted)
    · exact .inr (r.disconnected_of_not_listed hr hendpoint hlisted hstarted)
  once := fun n id hendpoint => by
    obtain ⟨entry, he, _⟩ := Balancer.entry?_of_endpointOf? hendpoint
    rw [(r.recalls_of_entry hr he).stops]
    split
    · exact Nat.le_refl 1
    · exact Nat.zero_le 1
  vacated := fun n phase hattempting hphase id hendpoint hstarted => by
    have hlacks := (r.orderly hr n).lacks_of_isUnmade hattempting hphase
    exact r.disconnected_of_not_listed hr hendpoint (fun hmem => hlacks _ hmem rfl) hstarted
  renewed := fun n new hnone hnew id hendpoint hstarted => by
    have ho := r.orderly hr n
    rcases (r.change n).aside_or_pass (r.grounded n) ho.inside (hr n) with haside | ⟨_, _, _, _, _, hw, _, hstep⟩
    · obtain ⟨entry, he, _⟩ := Balancer.entry?_of_endpointOf? hnew
      obtain ⟨old, hold, _⟩ := haside.ageless.entry_before he
      rw [hnone] at hold
      cases hold
    · obtain ⟨phase, hattempting, hphase⟩ := hstep.attempting_of_made hw hnone hnew
      have hlacks := ho.lacks_of_isUnmade hattempting hphase
      exact r.disconnected_of_not_listed hr hendpoint (fun hmem => hlacks _ hmem rfl) hstarted
  fresh := fun n id hendpoint hnot m hnm hfind => by
    have hunlisted : (e, id) ∉ (r.state n).pool.current := fun hmem => hnot ((r.orderly hr n).kept.find?_eq_some hmem)
    obtain ⟨entry, he, hstate⟩ := r.stopped_of_not_listed hr hendpoint hunlisted
    obtain ⟨entry', he', hstate'⟩ := r.stopped_of_le hr hnm he hstate
    have hlisted := Pool.mem_current_of_find? hfind
    have hgrounded := (r.grounded m).current _ hlisted
    rw [Balancer.endpointOf?_eq_some he'] at hgrounded
    exact ((r.orderly hr m).kept.listed id entry' he').2 (Option.some.inj hgrounded ▸ hlisted) hstate'

end Finishing

/-- A run in which an endpoint is removed and added again. -/
def readded : Run Unit := ofScript ⟨[("a", { Behaviour.smooth with stop := ⟨0, .always, none⟩ })]⟩
  [(0, .request (.update [⟨"a"⟩])), (7, .request (.update [])), (14, .request (.update [⟨"a"⟩]))]
  (fun n => if n < 7 then 0 else if n < 14 then 1 else 2)

/-- In that run the endpoint has a second exporter in the end, and the shutdown of the first one has failed. -/
theorem owned_readded : readded.FinishesPasses ∧
    (readded.state 19).history 0 = [.created, .starting, .started, .stopping 0, .stopFailed] ∧
    (readded.state 19).history 1 = [.created, .starting, .started] ∧ (readded.state 19).pool.find? ⟨"a"⟩ = some 1 ∧
    readded.Owned ⟨"a"⟩ := by
  have hfinishes : readded.FinishesPasses := finishesPasses_ofScript (by decide)
  exact ⟨hfinishes, by decide +kernel, by decide +kernel, by decide +kernel, readded.owned hfinishes ⟨"a"⟩⟩

end Run

end TelemetryRouter
