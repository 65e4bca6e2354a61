import TelemetryRouter.Proofs.Accounts
import TelemetryRouter.Proofs.Listings

/-!
# Resolutions return

The gate lets the tasks with resolutions in by turns, in the order in which they came. A resolution that was let in ends, provided its task is
served and there is some time room for what it tells: its answer comes or the time is up. So the first task at the gate gets in, and
the others come nearer to it. A resolution that was asked for from outside ends with the list that the resolver knows then.
-/

namespace TelemetryRouter

variable {α : Type}

/-- How many steps a resolution makes at most before its last. -/
def ResolutionPhase.remaining : ResolutionPhase → Nat
  | .queued => 4
  | .listing _ _ _ => 3
  | .announcing _ => 2
  | .sending _ _ => 1
  | .ending => 0

namespace Balancer

section Gate

variable {b b' c : Balancer α} {t : TaskId} {rest ws : List (Work α)} {way : Nat} {a : Action α}

/-- A step of a resolution brings it nearer to its end. -/
theorem ResolutionStep.remaining_lt {phase : ResolutionPhase} (h : ResolutionStep b t rest phase ws b') (hne : phase ≠ .ending) :
    ∃ phase', ws = .resolution phase' :: rest ∧ phase' ≠ .queued ∧ phase'.remaining < phase.remaining := by
  cases h with
  | ask _ _ _ works_eq => exact ⟨_, works_eq, (fun h => nomatch h), Nat.lt_succ_self _⟩
  | skip _ _ => exact ⟨_, rfl, (fun h => nomatch h), Nat.zero_lt_succ _⟩
  | @hear arrival result answer deadline _ =>
    refine ⟨_, rfl, ?_⟩
    cases change? b.resolver.known answer with
    | some endpoints => exact ⟨(fun h => nomatch h), Nat.lt_succ_self _⟩
    | none => exact ⟨(fun h => nomatch h), Nat.zero_lt_succ _⟩
  | tell _ => exact ⟨_, rfl, (fun h => nomatch h), Nat.lt_succ_self _⟩
  | keep _ => exact ⟨_, rfl, (fun h => nomatch h), Nat.zero_lt_succ _⟩
  | lose _ => exact ⟨_, rfl, (fun h => nomatch h), Nat.lt_succ_self _⟩
  | put _ _ => exact ⟨_, rfl, (fun h => nomatch h), Nat.lt_succ_self _⟩
  | conclude => exact absurd rfl hne

theorem resolving?_of_move {phase : ResolutionPhase} (hw : b.works t = .resolution phase :: rest) (hmove : b.move t way = some c) :
    b.resolving? (.move t way) = some phase := by
  rw [resolving?, hw, hmove]
  rfl

/-- A move of a task with a resolution is a step of the resolution. -/
theorem Stir.resolution_of_move (h : Stir b (.move t way) b') {phase : ResolutionPhase} (hw : b.works t = .resolution phase :: rest)
    (hmove : b.move t way = some c) : b.resolving? (.move t way) = some phase ∧ ∃ ws, ResolutionStep b t rest phase ws b' := by
  have hresolving := resolving?_of_move hw hmove
  refine ⟨hresolving, ?_⟩
  cases h with
  | resolution works _ step =>
    rw [hw] at works
    injection works with hphase hrest
    injection hphase with hphase
    subst hphase hrest
    exact ⟨_, step⟩
  | rearrange resolving _ _ _ _ =>
    rw [hresolving] at resolving
    cases resolving

/-- A task stays at its resolution if it does not make a step of it. -/
theorem Stir.works_of_resolution (h : Stir b a b') {phase : ResolutionPhase}
    (hw : b.works t = .resolution phase :: rest) :
    b'.works t = b.works t ∨ ∃ way ws, a = .move t way ∧ ResolutionStep b t rest phase ws b' ∧ b.resolving? a = some phase := by
  cases h with
  | @resolution t' way phase' rest' ws _ works resolving step =>
    by_cases heq : t = t'
    · subst heq
      rw [hw] at works
      injection works with hphase hrest
      injection hphase with hphase
      subst hphase hrest
      exact .inr ⟨_, _, rfl, step, resolving⟩
    · exact .inl (by rw [step.works_eq works, if_neg heq])
  | @rearrange a t' old new started _ _ works leaves _ rearranges =>
    have hne : t ≠ t' := by
      rintro rfl
      exact rearranges.gate.1 phase rest (works.symm.trans hw)
    have hnext : t ≠ b.nextTask := Nat.ne_of_lt (lt_of_works hw)
    exact .inl (by rw [leaves t, if_neg hne, if_neg hnext])

/-- How an action changes the gate: not at all, or a task comes, is let in, or leaves it after its turn. -/
theorem Stir.gate (hb : b.Gated) (h : Stir b a b') :
    b'.resolver.gate = b.resolver.gate ∨ (∃ x, b'.resolver.gate = b.resolver.gate.join x) ∨
      (∃ x, b.resolver.gate.enter? x = some b'.resolver.gate) ∨
        ∃ x, b.resolver.gate.inside = some x ∧ b'.resolver.gate = ⟨none, b.resolver.gate.waiting⟩ := by
  cases h with
  | @resolution t way phase rest ws _ works _ step =>
    rcases step.gate with ⟨_, henters⟩ | ⟨_, _, hgate⟩ | ⟨rfl, hgate⟩
    · exact .inr (.inr (.inl ⟨t, henters⟩))
    · exact .inl hgate
    · have hinside := hb.turn t .ending rest works (fun h => nomatch h)
      have hout : t ∉ b.resolver.gate.waiting := by
        intro hmem
        obtain ⟨rest', hw⟩ := (hb.waits t).1 hmem
        rw [works] at hw
        cases hw
      have hwaiting : b.resolver.gate.waiting.filter (· ≠ t) = b.resolver.gate.waiting :=
        List.filter_eq_self.2 (fun x hmem => decide_eq_true (fun heq => hout (heq ▸ hmem)))
      refine .inr (.inr (.inr ⟨t, hinside, ?_⟩))
      rw [hgate, Gate.leave, if_pos hinside, hwaiting]
  | rearrange _ _ _ _ rearranges =>
    rcases rearranges.gate.2.2 with ⟨hgate, _⟩ | ⟨hgate, _⟩
    · exact .inl hgate
    · exact .inr (.inl ⟨_, hgate⟩)

/-- Where an action lets nobody in, a task at the gate stays there, with the same tasks before it, and nobody is inside if nobody
was. -/
theorem Stir.waits (hb : b.Gated) (h : Stir b a b') (hnone : ∀ x, b.resolver.gate.enter? x ≠ some b'.resolver.gate) :
    b.resolver.gate.waiting <+: b'.resolver.gate.waiting ∧ (b.resolver.gate.inside = none → b'.resolver.gate.inside = none) := by
  rcases h.gate hb with hgate | ⟨x, hgate⟩ | ⟨x, hgate⟩ | ⟨x, hinside, hgate⟩
  · rw [hgate]
    exact ⟨List.prefix_rfl, id⟩
  · rw [hgate]
    exact ⟨List.prefix_append _ _, id⟩
  · exact absurd hgate (hnone x)
  · rw [hgate]
    exact ⟨List.prefix_rfl, fun _ => rfl⟩

/-- A task at the gate is let in, or stays there and comes no farther from it; it comes nearer where another is let in. -/
theorem Stir.nearer (hb : b.Gated) (h : Stir b a b') (ht : t ∈ b.resolver.gate.waiting) :
    b.resolver.gate.enter? t = some b'.resolver.gate ∨
      (t ∈ b'.resolver.gate.waiting ∧ b'.resolver.gate.waiting.idxOf t ≤ b.resolver.gate.waiting.idxOf t ∧
        ∀ x, b.resolver.gate.enter? x = some b'.resolver.gate →
          b'.resolver.gate.waiting.idxOf t < b.resolver.gate.waiting.idxOf t) := by
  by_cases hsome : ∃ x, b.resolver.gate.enter? x = some b'.resolver.gate
  · obtain ⟨x, hx⟩ := hsome
    by_cases heq : x = t
    · exact .inl (heq ▸ hx)
    · obtain ⟨_, hwaiting, _⟩ := (Gate.enter?_eq_some_iff _ _ _).1 hx
      have hidx : b.resolver.gate.waiting.idxOf t = b'.resolver.gate.waiting.idxOf t + 1 := by
        rw [hwaiting, List.idxOf_cons_ne _ heq]
      rw [hwaiting] at ht
      refine .inr ⟨(List.mem_cons.1 ht).resolve_left (fun h => heq h.symm), ?_, fun _ _ => ?_⟩
      · rw [hidx]
        exact Nat.le_succ _
      · rw [hidx]
        exact Nat.lt_succ_self _
  · have hnone : ∀ x, b.resolver.gate.enter? x ≠ some b'.resolver.gate := fun x hx => hsome ⟨x, hx⟩
    obtain ⟨⟨later, hlater⟩, _⟩ := h.waits hb hnone
    refine .inr ⟨hlater ▸ List.mem_append_left _ ht, ?_, fun x hx => absurd hx (hnone x)⟩
    rw [← hlater, List.idxOf_append_of_mem ht]

end Gate

end Balancer

namespace Run

/-- Whether a run is fair to resolutions: the tasks that resolve are served, and a resolution with a list for a mailbox finds in the course
of time that there is room for it, or that nobody reads the mailbox any more. -/
structure Fair (r : Run α) : Prop where
  served : ∀ n t phase rest, (r.state n).works t = .resolution phase :: rest → r.Serves t
  room : ∀ n t box endpoints rest, (r.state n).works t = .resolution (.sending box endpoints) :: rest → ∃ tick, ∀ m, n ≤ m →
    tick ≤ (r.state m).now → (r.state m).works t = (r.state n).works t →
      (r.state m).hasReceiver box = false ∨ ((r.state m).mailboxes[box]?).any (·.ready t) = true

/-- Whether a task is let in by the resolver's gate in a step. -/
def Enters (r : Run α) (t : TaskId) (n : Nat) : Prop := (r.state n).resolver.gate.enter? t = some (r.state (n + 1)).resolver.gate

/-- Whether the resolution of a task ends in a step, and leaves the works that stood under it. -/
structure Ends (r : Run α) (t : TaskId) (rest : List (Work α)) (n : Nat) : Prop where
  works : (r.state n).works t = .resolution .ending :: rest
  moves : ∃ way, r.action n = .move t way
  resolving : (r.state n).resolving? (r.action n) = some .ending
  leaves : (r.state (n + 1)).works t = rest
  free : (r.state (n + 1)).resolver.gate.inside = none

section Returns

variable {r : Run α} {t n m : Nat}

/-! ## The resolution inside -/

/-- A resolution that was let in can go on, now or in the course of time. -/
theorem Fair.opens (hf : r.Fair) {phase : ResolutionPhase} {rest : List (Work α)} (hw : (r.state m).works t = .resolution phase :: rest)
    (hne : phase ≠ .queued) : ∃ tick, ∀ j, m ≤ j → (r.state j).works t = (r.state m).works t → tick ≤ (r.state j).now →
      (r.state j).move t 0 ≠ none := by
  have hmove : ∀ j, (r.state j).works t = (r.state m).works t → (r.state j).move t 0 = (r.state j).stepResolution t rest phase := by
    intro j hj
    rw [Balancer.move, hj, hw]
    rfl
  cases phase with
  | queued => exact absurd rfl hne
  | listing arrival result deadline =>
    refine ⟨deadline.tick, fun j _ hj hnow => ?_⟩
    have hlate : Instant.reached deadline (r.state j).now = true := decide_eq_true hnow
    rw [hmove j hj, Balancer.stepResolution]
    dsimp only
    rw [if_pos hlate]
    split <;> exact Option.some_ne_none _
  | announcing endpoints =>
    refine ⟨0, fun j _ hj _ => ?_⟩
    rw [hmove j hj, Balancer.stepResolution]
    dsimp only
    split <;> exact Option.some_ne_none _
  | sending box endpoints =>
    obtain ⟨tick, hroom⟩ := hf.room m t box endpoints rest hw
    refine ⟨tick, fun j hmj hj hnow => ?_⟩
    rw [hmove j hj, Balancer.stepResolution]
    dsimp only
    split
    · exact Option.some_ne_none _
    · rename_i hread
      rcases hroom j hmj hnow hj with hgone | hready
      · rw [hgone] at hread
        exact absurd rfl hread
      · rw [if_pos hready]
        exact Option.some_ne_none _
  | ending =>
    refine ⟨0, fun j _ hj _ => ?_⟩
    rw [hmove j hj]
    exact Option.some_ne_none _

theorem ends_of_step (hb : (r.state n).Gated) {way : Nat} {rest ws : List (Work α)} (hw : (r.state n).works t = .resolution .ending :: rest)
    (hmove : r.action n = .move t way) (hresolving : (r.state n).resolving? (r.action n) = some .ending)
    (hstep : Balancer.ResolutionStep (r.state n) t rest .ending ws (r.state (n + 1))) : r.Ends t rest n := by
  have hin := hb.turn t .ending rest hw (fun h => nomatch h)
  obtain ⟨_, hgate⟩ := (hstep.gate.resolve_left (fun h => nomatch h.1)).resolve_left (fun h => h.2.1 rfl)
  obtain ⟨_, rfl⟩ := hstep.goes.resolve_left (fun h => h.1 rfl)
  refine ⟨hw, ⟨way, hmove⟩, hresolving, by rw [hstep.works_eq hw, if_pos rfl], ?_⟩
  rw [hgate]
  exact if_pos hin

theorem Fair.concludes (hr : r.Polls) (hf : r.Fair) {phase : ResolutionPhase} {rest : List (Work α)}
    (hw : (r.state m).works t = .resolution phase :: rest) (hne : phase ≠ .queued) :
    ∃ j, m ≤ j ∧ r.Ends t rest j := by
  induction hrank : phase.remaining using Nat.strong_induction_on generalizing m phase with
  | _ rank ih =>
    obtain ⟨tick, hopens⟩ := hf.opens hw hne
    obtain ⟨task, htask⟩ : ∃ task, (r.state m).task? t = some task :=
      ⟨_, List.getElem?_eq_getElem (Balancer.lt_of_works hw)⟩
    have hsame : ∀ j, (r.state j).task? t = some task → (r.state j).works t = (r.state m).works t := fun j hj => by
      rw [Balancer.works_of_task? hj, Balancer.works_of_task? htask]
    obtain ⟨j, way, next, hmj, hj, hmove, hnext⟩ := (hf.served m t phase rest hw).moves_on htask
      (fun j hmj hj hnow => hopens j hmj (hsame j hj) hnow)
    have hwj := (hsame j hj).trans hw
    have hstir := r.stir hr j
    rw [hmove] at hstir
    obtain ⟨hresolving, ws, hstep⟩ := hstir.resolution_of_move hwj hnext
    by_cases hending : phase = .ending
    · subst hending
      exact ⟨j, hmj, ends_of_step (r.gated hr j) hwj hmove (hmove ▸ hresolving) hstep⟩
    · obtain ⟨phase', rfl, hne', hlt⟩ := hstep.remaining_lt hending
      have hw' : (r.state (j + 1)).works t = .resolution phase' :: rest := by rw [hstep.works_eq hwj, if_pos rfl]
      obtain ⟨k, hk, hends⟩ := ih phase'.remaining (hrank ▸ hlt) hw' hne' rfl
      exact ⟨k, by omega, hends⟩

/-! ## The tasks at the gate -/

/-- As long as nobody is let in, those at the gate stay there, in front of those who come later. -/
theorem waiting_of_le (hr : r.Polls) (hmn : m ≤ n) (hnone : ∀ j x, m ≤ j → ¬r.Enters x j) :
    (r.state m).resolver.gate.waiting <+: (r.state n).resolver.gate.waiting ∧
      ((r.state m).resolver.gate.inside = none → (r.state n).resolver.gate.inside = none) := by
  induction n, hmn using Nat.le_induction with
  | base => exact ⟨List.prefix_rfl, id⟩
  | succ j hmj ih =>
    obtain ⟨hwaiting, hinside⟩ := (r.stir hr j).waits (r.gated hr j) (fun x => hnone j x hmj)
    exact ⟨ih.1.trans hwaiting, fun hfree => hinside (ih.2 hfree)⟩

/-- While a task stands at the gate, some task is let in. -/
theorem Fair.enters (hr : r.Polls) (hf : r.Fair) (ht : t ∈ (r.state m).resolver.gate.waiting) : ∃ j x, m ≤ j ∧ r.Enters x j := by
  by_contra hnever
  have hnone : ∀ j x, m ≤ j → ¬r.Enters x j := fun j x hj hx => hnever ⟨j, x, hj, hx⟩
  -- Whoever is inside leaves, and then the gate stays free.
  obtain ⟨k, hmk, hfree⟩ : ∃ k, m ≤ k ∧ (r.state k).resolver.gate.inside = none := by
    rcases hinside : (r.state m).resolver.gate.inside with _ | x
    · exact ⟨m, Nat.le_refl m, hinside⟩
    · obtain ⟨phase, rest, hw, hne⟩ := (r.gated hr m).taken x hinside
      obtain ⟨j, hmj, hends⟩ := hf.concludes hr hw hne
      exact ⟨j + 1, by omega, hends.free⟩
  -- So does the first of those at the gate, who is there all the time.
  obtain ⟨y, others, hwaiting⟩ : ∃ y others, (r.state k).resolver.gate.waiting = y :: others :=
    List.exists_cons_of_ne_nil (List.ne_nil_of_mem ((waiting_of_le hr hmk hnone).1.subset ht))
  have hfirst : ∀ j, k ≤ j → ∃ gate, (r.state j).resolver.gate.enter? y = some gate := by
    intro j hkj
    obtain ⟨⟨later, hlater⟩, hin⟩ := waiting_of_le hr hkj (fun i x hi => hnone i x (Nat.le_trans hmk hi))
    rw [hwaiting, List.cons_append] at hlater
    exact ⟨⟨some y, others ++ later⟩, (Gate.enter?_eq_some_iff _ _ _).2 ⟨hin hfree, hlater.symm, rfl⟩⟩
  have hqueued : ∃ rest, (r.state k).works y = .resolution .queued :: rest :=
    ((r.gated hr k).waits y).1 (hwaiting ▸ List.mem_cons_self)
  obtain ⟨rest, hw⟩ := hqueued
  obtain ⟨task, htask⟩ : ∃ task, (r.state k).task? y = some task := ⟨_, List.getElem?_eq_getElem (Balancer.lt_of_works hw)⟩
  have hsame : ∀ j, (r.state j).task? y = some task → (r.state j).works y = .resolution .queued :: rest := fun j hj => by
    rw [← hw, Balancer.works_of_task? hj, Balancer.works_of_task? htask]
  have hopens : ∀ j, k ≤ j → (r.state j).task? y = some task → 0 ≤ (r.state j).now → (r.state j).move y 0 ≠ none := by
    intro j hkj hj _
    obtain ⟨gate, hgate⟩ := hfirst j hkj
    rw [Balancer.move, hsame j hj]
    show (r.state j).stepResolution y rest .queued ≠ none
    rw [Balancer.stepResolution]
    dsimp only
    rw [hgate]
    exact Option.some_ne_none _
  obtain ⟨j, way, next, hkj, hj, hmove, hnext⟩ := (hf.served k y .queued rest hw).moves_on htask hopens
  have hstir := r.stir hr j
  rw [hmove] at hstir
  obtain ⟨_, ws, hstep⟩ := hstir.resolution_of_move (hsame j hj) hnext
  rcases hstep.gate with ⟨_, henters⟩ | ⟨hne, _⟩ | ⟨h, _⟩
  · exact hnever ⟨j, y, Nat.le_trans hmk hkj, henters⟩
  · exact hne rfl
  · cases h

theorem Fair.enters_self (hr : r.Polls) (hf : r.Fair) (ht : t ∈ (r.state m).resolver.gate.waiting) : ∃ j, m ≤ j ∧ r.Enters t j := by
  induction hidx : (r.state m).resolver.gate.waiting.idxOf t using Nat.strong_induction_on generalizing m with
  | _ place ih =>
    obtain ⟨j, x, hmj, hx⟩ := hf.enters hr ht
    have hnearer : ∀ i, m ≤ i → (∃ k, m ≤ k ∧ r.Enters t k) ∨ (t ∈ (r.state i).resolver.gate.waiting ∧
        (r.state i).resolver.gate.waiting.idxOf t ≤ place) := by
      intro i hmi
      induction i, hmi using Nat.le_induction with
      | base => exact .inr ⟨ht, Nat.le_of_eq hidx⟩
      | succ i hmi ihi =>
        rcases ihi with henters | ⟨hmem, hle⟩
        · exact .inl henters
        · rcases (r.stir hr i).nearer (r.gated hr i) hmem with henters | ⟨hmem', hle', _⟩
          · exact .inl ⟨i, hmi, henters⟩
          · exact .inr ⟨hmem', Nat.le_trans hle' hle⟩
    rcases hnearer j hmj with henters | ⟨hmem, hle⟩
    · exact henters
    · rcases (r.stir hr j).nearer (r.gated hr j) hmem with henters | ⟨hmem', _, hlt⟩
      · exact ⟨j, hmj, henters⟩
      · obtain ⟨k, hk, henters⟩ := ih _ (Nat.lt_of_lt_of_le (hlt x hx) hle) hmem' rfl
        exact ⟨k, by omega, henters⟩

theorem Fair.ends (hr : r.Polls) (hf : r.Fair) {phase : ResolutionPhase} {rest : List (Work α)}
    (hw : (r.state m).works t = .resolution phase :: rest) :
    ∃ j rest', m ≤ j ∧ r.Ends t rest' j := by
  by_cases hqueued : phase = .queued
  · subst hqueued
    obtain ⟨j, hmj, henters⟩ := hf.enters_self hr (((r.gated hr m).waits t).2 ⟨rest, hw⟩)
    obtain ⟨phase, rest', hw', hne⟩ := (r.gated hr (j + 1)).taken t ((Gate.enter?_eq_some_iff _ _ _).1 henters).2.2
    obtain ⟨k, hjk, hends⟩ := hf.concludes hr hw' hne
    exact ⟨k, rest', by omega, hends⟩
  · obtain ⟨k, hmk, hends⟩ := hf.concludes hr hw hqueued
    exact ⟨k, rest, hmk, hends⟩

/-! ## Resolutions that are asked for -/

theorem works_of_resolve (hb : (r.state n).Gated) (hrequest : r.action n = .request .resolve) :
    (r.state (n + 1)).works (r.state n).nextTask = [.resolution .queued] := by
  have hstate : r.state (n + 1) = ((r.state n).request .resolve).1 := by
    rw [state, hrequest]
    rfl
  rw [hstate, Balancer.works_request, if_pos rfl, Balancer.begun, if_pos hb.polling]

/-- In a step, a resolution that was asked for goes on, or it ends and its outcome is the list that is known then. -/
theorem resolves_succ (hb : (r.state n).Gated) (hstir : Balancer.Stir (r.state n) (r.action n) (r.state (n + 1)))
    {phase : ResolutionPhase} (hw : (r.state n).works t = [.resolution phase]) :
    (∃ phase', (r.state (n + 1)).works t = [.resolution phase']) ∨
      (r.Ends t [] n ∧ (r.state (n + 1)).outcome? t = some (.resolved (r.state n).resolver.known)) := by
  rcases hstir.works_of_resolution hw with hsame | ⟨way, ws, hmove, hstep, hresolving⟩
  · exact .inl ⟨phase, hsame.trans hw⟩
  · have hself : (r.state (n + 1)).works t = ws := by rw [hstep.works_eq hw, if_pos rfl]
    by_cases hending : phase = .ending
    · subst hending
      obtain ⟨task, htask⟩ : ∃ task, (r.state n).task? t = some task :=
        ⟨_, List.getElem?_eq_getElem (Balancer.lt_of_works hw)⟩
      refine .inr ⟨ends_of_step hb hw hmove hresolving hstep, ?_⟩
      generalize r.state (n + 1) = b' at hstep
      cases hstep with
      | conclude => exact outcome?_of_task? (task?_finish_self htask rfl)
    · obtain ⟨phase', rfl, _, _⟩ := hstep.remaining_lt hending
      exact .inl ⟨phase', hself⟩

/-- A resolution that was asked for goes on, or it has ended and its outcome is the list that was known then. -/
theorem resolves_of_lt (hr : r.Polls) (hrequest : r.action n = .request .resolve) (hnm : n < m) :
    (∃ phase, (r.state m).works (r.state n).nextTask = [.resolution phase]) ∨
      ∃ k, n < k ∧ k < m ∧ r.Ends (r.state n).nextTask [] k ∧
        (r.state m).outcome? (r.state n).nextTask = some (.resolved (r.state k).resolver.known) := by
  induction m, hnm using Nat.le_induction with
  | base => exact .inl ⟨_, works_of_resolve (r.gated hr n) hrequest⟩
  | succ m hnm ih =>
    rcases ih with ⟨phase, hw⟩ | ⟨k, hnk, hkm, hends, houtcome⟩
    · rcases resolves_succ (r.gated hr m) (r.stir hr m) hw with hgoes | ⟨hends, houtcome⟩
      · exact .inl hgoes
      · exact .inr ⟨m, hnm, Nat.lt_succ_self m, hends, houtcome⟩
    · exact .inr ⟨k, hnk, Nat.lt_succ_of_lt hkm, hends, outcome?_of_le (Nat.le_succ m) houtcome⟩

theorem Fair.returns (hr : r.Polls) (hf : r.Fair) (hrequest : r.action n = .request .resolve) :
    ∃ m endpoints, n < m ∧ (r.state m).outcome? (r.state n).nextTask = some (.resolved endpoints) := by
  obtain ⟨j, rest, hnj, hends⟩ := hf.ends hr (works_of_resolve (r.gated hr n) hrequest)
  rcases resolves_of_lt hr hrequest (Nat.lt_of_succ_le hnj) with ⟨phase, hw⟩ | ⟨_, _, _, _, houtcome⟩
  · have hrest : rest = [] := by
      have hworks := hends.works
      rw [hw] at hworks
      injection hworks with _ hrest
      exact hrest.symm
    rcases resolves_of_lt hr hrequest (Nat.lt_succ_of_lt (Nat.lt_of_succ_le hnj)) with ⟨phase', hw'⟩ | ⟨_, _, _, _, houtcome⟩
    · rw [hends.leaves, hrest] at hw'
      cases hw'
    · exact ⟨j + 1, _, by omega, houtcome⟩
  · exact ⟨j, _, by omega, houtcome⟩

end Returns

end Run

end TelemetryRouter
