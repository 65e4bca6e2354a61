import TelemetryRouter.Proofs.Turns

/-!
# Where passes come from

A pass applies a list, refreshes the pool for the published ring, or was asked of the pool alone by a request. On its way it keeps its
target and the ring that it brings, so both can be read off where it came from. A pass of the first two kinds wants the
members of the ring that is published once it has had its turn; one that was asked of the pool alone may want anything.
-/

namespace TelemetryRouter

variable {α : Type}

/-- Whether a pass wants the members of the ring that it brings, or of the published one if it brings none. -/
def Pass.IsAligned (p : Pass) : Prop :=
  (∃ ring, p.publish = some ring ∧ p.target = .members ring.endpoints) ∨ (p.publish = none ∧ p.target = .publishedRing)

theorem Pass.isAligned_refresh : Pass.refresh.IsAligned := .inr ⟨rfl, rfl⟩

theorem Pass.isAligned_publishing (ring : Ring) : (Pass.publishing ring).IsAligned := .inl ⟨ring, rfl, rfl⟩

/-- Only the target and the ring decide whether a pass is aligned. -/
theorem Pass.IsAligned.congr {p q : Pass} (h : q.IsAligned) (htarget : p.target = q.target) (hpublish : p.publish = q.publish) :
    p.IsAligned := by
  unfold IsAligned
  rw [htarget, hpublish]
  exact h

namespace Balancer

/-- The passes that an action can bring. -/
inductive Brings (b : Balancer α) : Action α → Pass → Prop
  | apply {a : Action α} (endpoints : List Endpoint) : Brings b a (b.applyPass endpoints)
  | refresh {a : Action α} : Brings b a Pass.refresh
  | reconcile {endpoints : List Endpoint} : Brings b (.request (.reconcile endpoints)) (Pass.of endpoints)
  | retireAll : Brings b (.request .retireAll) (Pass.of [])

/-- Whether a pass was under way, or waited, with the target and the ring of another one. -/
def Continues (b : Balancer α) (t : TaskId) (p : Pass) : Prop :=
  ∃ q, b.duty? t = some (.pass q) ∧ p.target = q.target ∧ p.publish = q.publish

section Origins

variable {b b' : Balancer α} {t : TaskId} {rest ws started : List (Work α)} {way : Nat} {p : Pass}

/-- A pass that a step of an inert work leaves to its task applies a list or refreshes the pool. -/
theorem InertStep.brings {w : Work α} (hrest : ∀ x ∈ rest, x.isInert = true) (h : InertStep b t rest way w ws started b')
    (hp : ws.head? = some (.pass p)) (a : Action α) : b.Brings a p := by
  have hnone : rest.head? = some (.pass p) → b.Brings a p := fun hhead => by
    have hinert := hrest _ (List.mem_of_head? hhead)
    cases hinert
  have hsome : ∀ {q : Pass}, some (Work.pass q : Work α) = some (.pass p) → b.Brings a q → b.Brings a p := by
    intro q heq hq
    injection heq with heq
    injection heq with heq
    exact heq ▸ hq
  cases h with
  | applyBaseline => exact hsome hp (.apply _)
  | clear => exact hsome hp (.apply _)
  | resolution step =>
    cases step with
    | conclude => exact hnone hp
    | ask _ _ _ works_eq =>
      rw [works_eq] at hp
      cases hp
    | _ => cases hp
  | poll step =>
    cases step with
    | stop _ => exact hnone hp
    | poll _ _ works_eq =>
      rw [works_eq] at hp
      cases hp
    | _ => cases hp
  | consume step =>
    cases step with
    | stop _ => exact hnone hp
    | take _ => exact hsome hp (.apply _)
    | refresh _ => exact hsome hp .refresh
    | _ => cases hp
  | _ => first | exact hnone hp | cases hp

/-- No step of an inert work starts a task with a pass. -/
theorem InertStep.started_inert {w : Work α} (h : InertStep b t rest way w ws started b') : ∀ x ∈ started, x.isInert = true := by
  intro x hx
  cases h with
  | registerPoller =>
    rw [List.mem_singleton.1 hx]
    rfl
  | launchConsumer =>
    rw [List.mem_singleton.1 hx]
    rfl
  | _ => exact nomatch hx

/-- A task has a pass to make a step of exactly when that is its topmost work. -/
theorem duty?_eq_pass_iff {x : TaskId} : b.duty? x = some (.pass p) ↔ (b.works x).head? = some (.pass p) := by
  constructor
  · intro hd
    obtain ⟨rest, hworks, _⟩ := works_of_duty? hd
    rw [hworks]
    rfl
  · intro hhead
    obtain ⟨rest, hworks⟩ := List.head?_eq_some_iff.1 hhead
    exact duty?_of_works hworks rfl

/-- The task of a request begins with a pass only if the request asks for one. -/
theorem brings_of_begun {r : Request α} (hp : (b.begun r).head? = some (.pass p)) : b.Brings (.request r) p := by
  have hpass : ∀ {q : Pass}, some (Work.pass q : Work α) = some (.pass p) → q = p := by
    intro q heq
    injection heq with heq
    injection heq with heq
  cases r with
  | update endpoints => exact hpass hp ▸ .apply endpoints
  | reconcile endpoints => exact hpass hp ▸ .reconcile
  | reconcileToRing => exact hpass hp ▸ .refresh
  | retireAll => exact hpass hp ▸ .retireAll
  | resolve =>
    rw [begun] at hp
    split at hp <;> cases hp
  | _ => cases hp

/-- A pass that is there after an action was there before, with its target and its ring, or is one that the action brings. -/
theorem Turn.passes {a : Action α} (h : Turn b a b') {x : TaskId} (hd : b'.duty? x = some (.pass p)) :
    b.Continues x p ∨ b.Brings a p := by
  rw [duty?_eq_pass_iff] at hd
  have hsame : b'.works x = b.works x → b.Continues x p ∨ b.Brings a p := by
    intro heq
    rw [heq, ← duty?_eq_pass_iff] at hd
    exact .inl ⟨p, hd, rfl, rfl⟩
  have hinert : (∀ w ∈ b'.works x, w.isInert = true) → b.Continues x p ∨ b.Brings a p := by
    intro hws
    have hcontra := hws _ (List.mem_of_head? hd)
    cases hcontra
  cases h with
  | @inert t way w rest ws started _ works rest_inert _ step _ =>
    have hleaves := step.leaves (lt_of_works works) x
    split at hleaves
    · exact .inr (step.brings rest_inert (hleaves ▸ hd) _)
    · split at hleaves
      · exact hinert (fun y hy => step.started_inert y (hleaves ▸ hy))
      · exact hsame hleaves
  | @pass t way q rest _ works rest_inert step =>
    obtain ⟨ws, hleaves, hws⟩ := step.leaves works
    have hx := hleaves x
    split at hx
    · rename_i heq
      rcases hws with rfl | ⟨p', rfl, htarget, hpublish⟩
      · exact hinert (fun y hy => rest_inert y (hx ▸ hy))
      · rw [hx] at hd
        injection hd with hd
        injection hd with hd
        subst hd
        exact .inl ⟨q, heq ▸ duty?_of_works works rfl, htarget, hpublish⟩
    · split at hx
      · exact hinert (fun y hy => by rw [hx] at hy; cases hy)
      · exact hsame hx
  | @exports t way w rest ws _ works duty noPass rest_inert exporting =>
    have hx := exporting.leaves x
    split at hx
    · rcases exporting.goes with rfl | ⟨w', rfl, _, hnoPass⟩
      · exact hinert (fun y hy => rest_inert y (hx ▸ hy))
      · rw [hx] at hd
        injection hd with hd
        exact absurd hd (hnoPass p)
    · split at hx
      · exact hinert (fun y hy => by rw [hx] at hy; cases hy)
      · exact hsame hx
  | @request r _ =>
    have hx := works_request b r x
    split at hx
    · exact .inr (brings_of_begun (hx ▸ hd))
    · exact hsame hx
  | @abandon t =>
    have hx := works_abandon b t x
    split at hx
    · exact hinert (fun y hy => by rw [hx] at hy; cases hy)
    · exact hsame hx
  | @receive box => cases box <;> exact hsame rfl
  | still _ works _ _ => exact hsame (works x)
  | _ => exact hsame rfl

end Origins

end Balancer

namespace Run

/-- Whether the pool of a run is never reconciled with a list that is not applied to the ring as well. -/
def KeepsAligned (r : Run α) : Prop := ∀ n es, r.action n ≠ .request (.reconcile es) ∧ r.action n ≠ .request .retireAll

/-- A run keeps its ring and its pool aligned if its script does. -/
theorem keepsAligned_ofScript {backends : Backends} {script : List (Nat × Action Unit)} {mover : Nat → TaskId}
    (h : ∀ x ∈ script, x.2.keepsAligned = true) : (ofScript backends script mover).KeepsAligned := fun n es => by
  constructor
  all_goals
    intro haction
    have hmem := mem_of_ofScript (n := n) (fun t' way hmove => nomatch haction.symm.trans hmove)
    rw [haction] at hmem
    exact nomatch h _ hmem

/-- In such a run every pass wants the members of the ring that is published once it has had its turn. -/
theorem aligned (r : Run α) (hr : r.KeepsAligned) : ∀ n t p, (r.state n).duty? t = some (.pass p) → p.IsAligned
  | 0, _, _, hd => nomatch hd
  | n + 1, t, p, hd => by
    rcases (r.turn n).passes hd with ⟨q, hq, htarget, hpublish⟩ | hbrings
    · exact (r.aligned hr n t q hq).congr htarget hpublish
    · generalize ha : r.action n = a at hbrings
      cases hbrings with
      | apply es => exact Pass.isAligned_publishing _
      | refresh => exact Pass.isAligned_refresh
      | reconcile => exact absurd ha (hr n _).1
      | retireAll => exact absurd ha (hr n []).2

end Run

end TelemetryRouter
