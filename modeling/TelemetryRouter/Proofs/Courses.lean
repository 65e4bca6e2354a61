import TelemetryRouter.Proofs.Stages

/-!
# The course of a parcel

The delivery of a parcel does few things to exporters: it calls the one that it has leased at most once, and if the exporter takes the
batch, the call either ends well, or fails, or is given up. `ParcelPhase.Course` lists, for every phase, what was done so far; every
step of a parcel continues its course.
-/

namespace TelemetryRouter

variable {α : Type}

/-- One thing that was done to an exporter: in which step of a run, to which exporter, and what. -/
structure Deed where
  step : Nat
  exporter : ExporterId
  what : Occurrence

/-- Something said of an exporter, as a deed of a step. -/
def Deed.inStep (n : Nat) (said : ExporterId × Occurrence) : Deed := ⟨n, said.1, said.2⟩

namespace ParcelPhase

/-- What the delivery of a parcel with so many items has done to exporters, in order. -/
inductive Course (items : Nat) : ParcelPhase → List Deed → Prop
  | pending : Course items .pending []
  | leased {id : ExporterId} {since : Nat} : Course items (.leased id since) []
  | exporting {id : ExporterId} {since wake n : Nat} : Course items (.exporting id since wake) [⟨n, id, .exporting items⟩]
  | delivered {id : ExporterId} {n m : Nat} (lt : n < m) :
    Course items .delivered [⟨n, id, .exporting items⟩, ⟨m, id, .exported⟩]
  | uncalled {error : RouterError} : Course items (.failed error) []
  | refused {error : RouterError} {id : ExporterId} {n : Nat} : Course items (.failed error) [⟨n, id, .exportRefused⟩]
  | failed {error : RouterError} {id : ExporterId} {n m : Nat} {what : Occurrence}
    (what_eq : what = .exportFailed ∨ what = .exportAbandoned) :
    Course items (.failed error) [⟨n, id, .exporting items⟩, ⟨m, id, what⟩]

namespace Course

variable {items : Nat} {phase : ParcelPhase} {deeds : List Deed}

theorem once (h : phase.Course items deeds) {x y : Deed} (hx : x ∈ deeds) (hcx : x.what.isExportCall = true) (hy : y ∈ deeds)
    (hcy : y.what.isExportCall = true) : x = y := by
  have hpair : ∀ {a c : Deed}, c.what.isExportCall = false → x ∈ [a, c] → y ∈ [a, c] → x = y := by
    intro a c hc hx hy
    simp only [List.mem_cons, List.not_mem_nil, or_false] at hx hy
    rcases hx with rfl | rfl
    · rcases hy with rfl | rfl
      · rfl
      · rw [hc] at hcy
        cases hcy
    · rw [hc] at hcx
      cases hcx
  cases h with
  | pending => cases hx
  | leased => cases hx
  | uncalled => cases hx
  | exporting => rw [List.mem_singleton.1 hx, List.mem_singleton.1 hy]
  | refused => rw [List.mem_singleton.1 hx, List.mem_singleton.1 hy]
  | delivered => exact hpair rfl hx hy
  | failed what_eq => exact hpair (by rcases what_eq with rfl | rfl <;> rfl) hx hy

/-- An exporter is called with all items, or refuses the call. -/
theorem whole (h : phase.Course items deeds) {x : Deed} (hx : x ∈ deeds) (hcall : x.what.isExportCall = true) :
    x.what = .exporting items ∨ x.what = .exportRefused := by
  cases h with
  | pending => cases hx
  | leased => cases hx
  | uncalled => cases hx
  | exporting =>
    rw [List.mem_singleton.1 hx]
    exact .inl rfl
  | refused =>
    rw [List.mem_singleton.1 hx]
    exact .inr rfl
  | delivered =>
    simp only [List.mem_cons, List.not_mem_nil, or_false] at hx
    rcases hx with rfl | rfl
    · exact .inl rfl
    · cases hcall
  | failed what_eq =>
    simp only [List.mem_cons, List.not_mem_nil, or_false] at hx
    rcases hx with rfl | rfl
    · exact .inl rfl
    · rcases what_eq with rfl | rfl <;> cases hcall

/-- A parcel is delivered exactly when an export of it has ended well. -/
theorem delivered_iff (h : phase.Course items deeds) : phase = .delivered ↔ ∃ x ∈ deeds, x.what = .exported := by
  cases h with
  | pending => simp
  | leased => simp
  | uncalled => simp
  | exporting => simp
  | refused => simp
  | delivered => simp
  | failed what_eq => rcases what_eq with rfl | rfl <;> simp

/-- An export that has ended well was called before, with all items. -/
theorem called (h : phase.Course items deeds) {x : Deed} (hx : x ∈ deeds) (hexported : x.what = .exported) :
    ∃ y ∈ deeds, y.step < x.step ∧ y.exporter = x.exporter ∧ y.what = .exporting items := by
  have hphase : phase = .delivered := h.delivered_iff.2 ⟨x, hx, hexported⟩
  subst hphase
  cases h with
  | @delivered id n m lt =>
    simp only [List.mem_cons, List.not_mem_nil, or_false] at hx
    rcases hx with rfl | rfl
    · cases hexported
    · exact ⟨⟨n, id, .exporting items⟩, List.mem_cons_self, lt, rfl, rfl⟩

end Course

/-- How many steps the delivery of a parcel may still take. -/
def remaining : ParcelPhase → Nat
  | .pending => 3
  | .leased _ _ => 2
  | .exporting _ _ _ => 1
  | .delivered => 0
  | .failed _ => 0

end ParcelPhase

namespace Balancer

section Steps

variable {b b' : Balancer α}

/-! ## What is said in a step -/

/-- What comes to the histories of all exporters. -/
def Tells (b b' : Balancer α) (said : List (ExporterId × Occurrence)) : Prop :=
  ∀ id, b'.history id = b.history id ++ (said.filter (fun x => x.1 = id)).map Prod.snd

theorem tells_nil (h : ∀ id, b'.history id = b.history id) : Tells b b' [] := fun id => by simp [h id]

theorem Touches.tells {id : ExporterId} {old new : Entry} {said : List Occurrence} (h : Touches b b' id old new said) :
    Tells b b' (said.map (fun what => (id, what))) := by
  intro x
  by_cases hx : x = id
  · subst hx
    rw [h.history, List.filter_map, List.map_map]
    simp [Function.comp_def]
  · have hne : ¬ id = x := fun heq => hx heq.symm
    rw [h.histories x hx, List.filter_map]
    simp [Function.comp_def, hne]

/-! ## Steps of a parcel -/

/-- A step of a parcel continues its course, and touches at most the exporter that the parcel has leased. A batch that the exporter
takes arrives as it is. -/
theorem ParcelStep.course {e : Endpoint} {batch : Batch α} {cut : Option RouterError} {phase phase' : ParcelPhase}
    (h : ParcelStep b e batch cut phase b' phase') {deeds : List Deed} (hc : phase.Course batch.itemCount deeds) {n : Nat}
    (hn : ∀ x ∈ deeds, x.step < n) :
    ∃ said, Tells b b' said ∧ phase'.Course batch.itemCount (deeds ++ said.map (Deed.inStep n)) ∧
      ∀ x ∈ said, phase.lease? = some x.1 ∧ (x.2 = .exported → ∃ entry, b.pool.entry? x.1 = some entry ∧
        b'.delivered = b.delivered ++ [(entry.address, batch)]) := by
  have hnone : ∀ x ∈ ([] : List (ExporterId × Occurrence)), phase.lease? = some x.1 ∧ (x.2 = .exported →
      ∃ entry, b.pool.entry? x.1 = some entry ∧ b'.delivered = b.delivered ++ [(entry.address, batch)]) := by
    intro x hx
    cases hx
  cases h with
  | unready _ =>
    cases hc
    exact ⟨[], tells_nil (fun _ => rfl), .uncalled, hnone⟩
  | lease _ _ touches _ =>
    cases hc
    exact ⟨[], touches.tells, .leased, hnone⟩
  | cutEarly _ touches _ =>
    cases hc
    exact ⟨[], touches.tells, .uncalled, hnone⟩
  | refuse _ touches _ =>
    cases hc
    refine ⟨_, touches.tells, .refused, ?_⟩
    intro x hx
    rw [List.mem_singleton.1 hx]
    exact ⟨rfl, fun hx => nomatch hx⟩
  | call _ touches _ =>
    cases hc
    refine ⟨_, touches.tells, .exporting, ?_⟩
    intro x hx
    rw [List.mem_singleton.1 hx]
    exact ⟨rfl, fun hx => nomatch hx⟩
  | cutLate _ touches _ =>
    cases hc
    refine ⟨_, touches.tells, .failed (.inr rfl), ?_⟩
    intro x hx
    rw [List.mem_singleton.1 hx]
    exact ⟨rfl, fun hx => nomatch hx⟩
  | arrive _ _ _ touches _ kept =>
    cases hc
    refine ⟨_, touches.tells, .delivered (hn _ List.mem_cons_self), ?_⟩
    intro x hx
    rw [List.mem_singleton.1 hx]
    exact ⟨rfl, fun _ => ⟨_, touches.before, kept⟩⟩
  | reject _ _ _ touches _ =>
    cases hc
    refine ⟨_, touches.tells, .failed (.inl rfl), ?_⟩
    intro x hx
    rw [List.mem_singleton.1 hx]
    exact ⟨rfl, fun hx => nomatch hx⟩

theorem ParcelStep.remaining_lt {e : Endpoint} {batch : Batch α} {cut : Option RouterError} {phase phase' : ParcelPhase}
    (h : ParcelStep b e batch cut phase b' phase') : phase'.remaining < phase.remaining := by
  cases h <;> simp [ParcelPhase.remaining]

/-- A parcel that is not over can make a step, if its exporter is done. -/
theorem stepParcel_ne_none (b : Balancer α) (started : Nat) (deadline : Option Instant) (token : Option String) {p : Parcel α}
    (hp : p.isOver = false) (hdone : ∀ id since wake, p.phase = .exporting id since wake → wake ≤ b.now) :
    b.stepParcel started deadline token p ≠ none := by
  obtain ⟨e, batch, phase⟩ := p
  unfold stepParcel
  cases phase with
  | pending =>
    dsimp only
    split <;> simp
  | leased id since =>
    dsimp only
    split
    · simp
    · split <;> simp
  | exporting id since wake =>
    dsimp only
    split
    · simp
    · rw [if_pos (hdone id since wake rfl)]
      simp
  | delivered => cases hp
  | failed error => cases hp

end Steps

end Balancer

/-- What is said in a step of a run is said of the exporters that it happens to. -/
theorem Run.says_iff_of_tells (r : Run α) {n : Nat} {said : List (ExporterId × Occurrence)}
    (h : Balancer.Tells (r.state n) (r.state (n + 1)) said) (id : ExporterId) (what : Occurrence) :
    r.Says id n what ↔ (id, what) ∈ said := by
  have hmem : what ∈ (said.filter (fun x => x.1 = id)).map Prod.snd ↔ (id, what) ∈ said := by
    simp
  rw [← hmem]
  constructor
  · rintro ⟨more, hmore, hwhat⟩
    rw [h id] at hmore
    rw [List.append_cancel_left hmore]
    exact hwhat
  · intro hwhat
    exact ⟨_, h id, hwhat⟩

end TelemetryRouter
