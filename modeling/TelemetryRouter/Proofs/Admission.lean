import TelemetryRouter.Proofs.Services

/-!
# Starts that overlap

A start checks first whether a background task is known already, and makes its own known last. Between the two it waits, so starts
that overlap can all pass the check: each of them succeeds then, and each leaves a background task. A start that checks after another
has succeeded is refused, and of starts that do not overlap one succeeds at most. The balancer and a resolver that polls
have this in common, so both are treated at once.
-/

namespace TelemetryRouter

variable {α : Type}

namespace Run

/-! ## Starts and their answers -/

/-- Whether a service is never stopped in a run. A resolver has to poll, and nobody polls at the beginning. -/
structure KeepsServing (r : Run α) (s : Service) : Prop where
  unstopped : ∀ n rq, r.action n = .request rq → s.isStop rq = false
  polls : s = .resolver → r.resolver.kind.isPolling = true ∧ r.resolver.poller = none

/-- Whether a task comes to its end in a step, with an answer. -/
def Returns (r : Run α) (n : Nat) (t : TaskId) (outcome : Outcome α) : Prop :=
  (∃ way, r.action n = .move t way) ∧ (r.state n).works t ≠ [] ∧ (r.state (n + 1)).outcome? t = some outcome

/-- The answers that a start gives when it comes to its end. -/
inductive Verdict (r : Run α) (s : Service) (n : Nat) (t : TaskId) : Outcome α → Prop
  | accepted (establishes : r.Establishes s n t) : Verdict r s n t .done
  | refused (checks : r.Checks s n t) (known : s.task? (r.state n) ≠ none) : Verdict r s n t (.failed (s.refusal (r.state n)))
  | unresolved {e : RouterError} (balancer : s = .balancer) (checks : r.Checks .resolver n t)
    (why : r.resolver.kind.isPolling = true →
      Service.resolver.task? (r.state n) ≠ none ∧ e = Service.resolver.refusal (r.state n)) : Verdict r s n t (.failed e)

/-- How the starts of a service fare that is never stopped. -/
structure Admission (r : Run α) (s : Service) : Prop where
  /-- A start that was asked for ends with success when it makes a background task known, and otherwise with an error. -/
  verdict : ∀ k rq n outcome, r.action k = .request rq → s.isStart rq = true → r.Returns n (r.state k).nextTask outcome →
    r.Verdict s n (r.state k).nextTask outcome
  /-- A start that checks while a background task is known is refused at once. -/
  refused : ∀ n t, r.Checks s n t → s.task? (r.state n) ≠ none →
    (r.state (n + 1)).outcome? t = some (.failed (s.refusal (r.state n)))
  lasting : ∀ n t, r.Establishes s n t → ∀ m, n < m → s.task? (r.state m) ≠ none
  /-- Of two starts that succeed, the second has checked before the first succeeded, and when no background task was known. -/
  overlapping : ∀ n n' t t', r.Establishes s n t → r.Establishes s n' t' → n < n' →
    ∃ g < n, r.Checks s g t' ∧ s.task? (r.state g) = none
  /-- Every background task was started by a start of its own that succeeded. -/
  served : ∀ n x, s.IsServedBy (r.state n) x → ∃ m < n, ∃ t, r.Establishes s m t ∧ x = (r.state m).nextTask
  /-- Of starts that do not overlap one succeeds at most, and there is one background task at most. -/
  exclusive : r.SpacesStarts → (∀ n n' t t', r.Establishes s n t → r.Establishes s n' t' → n = n' ∧ t = t') ∧
    ∀ n x x', s.IsServedBy (r.state n) x → s.IsServedBy (r.state n) x' → x = x'

variable {r : Run α} {s : Service}

/-! ## What is known -/

section Keeping

variable (hr : r.KeepsServing s)

include hr

/-- No task is on its way to let the background task be forgotten. -/
theorem not_isStopping (n : Nat) (x : TaskId) : s.isStopping ((r.state n).post x) = false := by
  refine Bool.eq_false_iff.2 (fun hx => ?_)
  obtain ⟨k, _, rq, haction, hrq, _⟩ := r.requested_of_post (P := s.isStopping) (Q := s.isStop) (by cases s <;> rfl)
    (fun h => h.isStopping) n x hx
  cases (hr.unstopped k rq haction).symm.trans hrq

/-- What is known stays, or a start that is past its check makes a new background task known. -/
theorem task?_succ_cases (n : Nat) : s.task? (r.state (n + 1)) = s.task? (r.state n) ∨
    ∃ t, r.Establishes s n t ∧ s.isPast ((r.state n).post t) = true ∧ s.isPast ((r.state (n + 1)).post t) = false ∧
      s.isServing ((r.state (n + 1)).post (r.state n).nextTask) = true := by
  rcases r.known_succ s n with hsame | hestablishes | ⟨t, _, hstops, _⟩
  · exact .inl hsame
  · exact .inr hestablishes
  · cases (not_isStopping hr n t).symm.trans hstops

theorem task?_ne_none {n m : Nat} (hnm : n ≤ m) (h : s.task? (r.state n) ≠ none) : s.task? (r.state m) ≠ none := by
  induction m, hnm using Nat.le_induction with
  | base => exact h
  | succ m _ ih =>
    rcases task?_succ_cases hr m with hsame | ⟨t, ⟨_, hnew⟩, _⟩
    · exact hsame ▸ ih
    · rw [hnew]
      exact Option.some_ne_none _

theorem task?_lt : ∀ n x, s.task? (r.state n) = some x → x < (r.state n).nextTask := by
  intro n
  induction n with
  | zero =>
    intro x hx
    have hnone : s.task? (r.state 0) = none := by
      cases s with
      | balancer => rfl
      | resolver => exact (hr.polls rfl).2
    rw [hnone] at hx
    cases hx
  | succ n ih =>
    intro x hx
    rcases task?_succ_cases hr n with hsame | ⟨t, ⟨_, hnew⟩, _, _, hserving⟩
    · exact Nat.lt_of_lt_of_le (ih x (hsame ▸ hx)) (r.nextTask_le (Nat.le_succ n))
    · rw [hnew] at hx
      injection hx with hx
      subst hx
      refine r.lt_of_post (fun hover => ?_)
      rw [hover, Service.isServing_over] at hserving
      cases hserving

/-- A start that makes a new background task known was past its check, and is not any more. -/
theorem Establishes.isPast {n : Nat} {t : TaskId} (h : r.Establishes s n t) :
    s.isPast ((r.state n).post t) = true ∧ s.isPast ((r.state (n + 1)).post t) = false := by
  obtain ⟨⟨way, haction⟩, hnew⟩ := h
  rcases task?_succ_cases hr n with hsame | ⟨t', ⟨⟨way', haction'⟩, _⟩, hpast, hnot, _⟩
  · exact absurd (task?_lt hr n _ (hsame.symm.trans hnew)) (Nat.lt_irrefl _)
  · rw [haction] at haction'
    injection haction' with ht
    exact ht ▸ ⟨hpast, hnot⟩

omit hr in
/-- A start that is past its check has made it, when no background task was known, and was past it since. -/
theorem checked_of_isPast : ∀ n x, s.isPast ((r.state n).post x) = true →
    ∃ g < n, r.Checks s g x ∧ s.task? (r.state g) = none ∧ ∀ m, g < m → m ≤ n → s.isPast ((r.state m).post x) = true := by
  intro n
  induction n with
  | zero => exact fun x hx => nomatch s.isPast_over.symm.trans hx
  | succ n ih =>
    intro x hx
    rcases isPast_succ hx with hpast | ⟨hchecks, hnone, _⟩
    · obtain ⟨g, hg, hchecks, hnone, hsince⟩ := ih x hpast
      refine ⟨g, Nat.lt_succ_of_lt hg, hchecks, hnone, fun m hgm hm => ?_⟩
      rcases Nat.lt_or_eq_of_le hm with hlt | rfl
      · exact hsince m hgm (Nat.le_of_lt_succ hlt)
      · exact hx
    · refine ⟨n, Nat.lt_succ_self n, hchecks, hnone, fun m hm hm' => ?_⟩
      rw [Nat.le_antisymm hm' hm]
      exact hx

omit hr in
/-- A background task was started by a start that made it known. -/
theorem established_of_isServing : ∀ n x, s.isServing ((r.state n).post x) = true →
    ∃ m < n, ∃ t, r.Establishes s m t ∧ x = (r.state m).nextTask := by
  intro n
  induction n with
  | zero => exact fun x hx => nomatch s.isServing_over.symm.trans hx
  | succ n ih =>
    intro x hx
    rcases isServing_succ hx with hserving | ⟨hfresh, t, hestablishes⟩
    · obtain ⟨m, hm, t, hestablishes⟩ := ih x hserving
      exact ⟨m, Nat.lt_succ_of_lt hm, t, hestablishes⟩
    · exact ⟨n, Nat.lt_succ_self n, t, hestablishes, hfresh⟩

/-- A start that finds a background task is refused at once. -/
theorem Checks.refused {n : Nat} {t : TaskId} (h : r.Checks s n t) (hknown : s.task? (r.state n) ≠ none) :
    (r.state (n + 1)).outcome? t = some (.failed (s.refusal (r.state n))) := by
  obtain ⟨⟨way, haction⟩, hchecks⟩ := h
  have hkind : s = .resolver → (r.state n).resolver.kind.isPolling = true := fun heq => (r.polling_eq n).trans (hr.polls heq).1
  have hturn := r.turn n
  rw [haction] at hturn
  generalize r.state (n + 1) = b' at hturn ⊢
  generalize r.state n = b at hturn hchecks hknown hkind ⊢
  cases hturn with
  | @inert _ _ w rest ws started _ works _ _ step _ =>
    have ht := Balancer.lt_of_works works
    rw [works, List.head?_cons, Option.any_some] at hchecks
    cases step with
    | refuseBalancer _ =>
      cases s with
      | balancer => exact Balancer.outcome?_finish ht _
      | resolver => cases hchecks
    | startBalancer unknown =>
      cases s with
      | balancer => exact absurd unknown hknown
      | resolver => cases hchecks
    | refuseResolver why =>
      cases s with
      | balancer => cases hchecks
      | resolver =>
        obtain ⟨_, rfl⟩ := why (hkind rfl)
        exact Balancer.outcome?_finish ht _
    | startResolver _ unpolled =>
      cases s with
      | balancer => cases hchecks
      | resolver => exact absurd unpolled hknown
    | startFixed kind =>
      cases s with
      | balancer => cases hchecks
      | resolver => cases kind.symm.trans (hkind rfl)
    | startManual kind =>
      cases s with
      | balancer => cases hchecks
      | resolver => cases kind.symm.trans (hkind rfl)
    | _ => cases s <;> cases hchecks
  | pass works _ _ =>
    rw [works] at hchecks
    cases s <;> cases hchecks
  | exports works duty _ _ _ =>
    rw [works, List.head?_cons, Option.any_some] at hchecks
    cases s <;> (unfold Service.checks at hchecks; split at hchecks) <;> first | cases duty | cases hchecks
  | still blocked _ _ _ =>
    have hnone := blocked t way rfl
    rw [Balancer.move] at hnone
    split at hnone
    · rename_i heq
      rw [heq] at hchecks
      cases hchecks
    · rename_i w rest heq
      rw [heq, List.head?_cons, Option.any_some] at hchecks
      cases s <;> (unfold Service.checks at hchecks; split at hchecks) <;> first | cases hnone | cases hchecks

omit hr in
theorem isStarting_of_request {k : Nat} {rq : Request α} (haction : r.action k = .request rq) (hrq : s.isStart rq = true) {n : Nat}
    (hkn : k < n) : s.isStarting ((r.state n).post (r.state k).nextTask) = true := by
  have hpost : (r.state (k + 1)).post (r.state k).nextTask = rq.post := by
    refine r.post_of_request haction ?_ (fun heq => ?_)
    · cases s <;> cases rq <;> first | rfl | cases hrq
    · subst heq
      cases s <;> cases hrq
  have hstarts : s.isStarting rq.post = true ∧ rq.post ≠ .over := by
    cases s <;> cases rq <;> first | exact ⟨rfl, fun h => by cases h⟩ | cases hrq
  have hlt : (r.state k).nextTask < (r.state (k + 1)).nextTask := r.lt_of_post (hpost ▸ hstarts.2)
  induction n, hkn using Nat.le_induction with
  | base => exact hpost ▸ hstarts.1
  | succ n hkn ih =>
    have hne := Nat.ne_of_lt (Nat.lt_of_lt_of_le hlt (r.nextTask_le hkn))
    obtain ⟨t, old, new, begun, background, poller, hold, hposts, _, _, hproceeds⟩ := r.proceeds n
    rw [hposts, if_neg hne]
    split
    · rename_i heq
      exact hproceeds.isStarting (heq ▸ hne) (hold ▸ heq ▸ ih)
    · exact ih

/-- The step in which a start ends tells that it made a background task known, or why it failed. -/
theorem verdict_of_proceeds {n : Nat} {x : TaskId} {way : Nat} {old new begun : Post} {outcome : Outcome α}
    (hmove : r.action n = .move x way) (hold : (r.state n).post x = old) (hstarting : s.isStarting old = true) (hnot : old ≠ .over)
    (hover : new = .over) (houtcome : (r.state (n + 1)).outcome? x = some outcome)
    (hproceeds : Balancer.Proceeds (r.state n) (r.state (n + 1)) (r.action n) x old new begun (r.state (n + 1)).background
      (r.state (n + 1)).resolver.poller) : r.Verdict s n x outcome := by
  have hchecks : ∀ {s' : Service}, s'.isChecking old = true → r.Checks s' n x := fun hchecking =>
    ⟨⟨way, hmove⟩, by rw [(r.scripted n x).any_checks, hold]; exact hchecking⟩
  have hdone : (r.state (n + 1)).outcome? x = some .done → r.Establishes s n x → r.Verdict s n x outcome := by
    intro hdone hestablishes
    rw [hdone] at houtcome
    injection houtcome with houtcome
    exact houtcome ▸ .accepted hestablishes
  have hfailed : ∀ {e : RouterError}, (r.state (n + 1)).outcome? x = some (.failed e) → r.Verdict s n x (.failed e) →
      r.Verdict s n x outcome := by
    intro e hfailed hverdict
    rw [hfailed] at houtcome
    injection houtcome with houtcome
    exact houtcome ▸ hverdict
  have hkind := r.polling_eq n
  have hwhole : ∀ {whole}, Post.afterStart whole = .over → whole = false := by
    intro whole h
    cases whole <;> first | rfl | cases h
  generalize hback : (r.state (n + 1)).background = background at hproceeds
  generalize hpoll : (r.state (n + 1)).resolver.poller = poller at hproceeds
  cases hproceeds with
  | refuseBalancer known answer =>
    cases s with
    | balancer => exact hfailed answer (.refused (hchecks rfl) (Option.isSome_iff_ne_none.1 known))
    | resolver => cases hstarting
  | @refuseResolver whole e answer why =>
    have hwhy : r.resolver.kind.isPolling = true → Service.resolver.task? (r.state n) ≠ none ∧
        e = Service.resolver.refusal (r.state n) := fun hpolls =>
      (why (hkind.trans hpolls)).imp Option.isSome_iff_ne_none.1 id
    cases s with
    | balancer => exact hfailed answer (.unresolved rfl (hchecks rfl) hwhy)
    | resolver =>
      obtain ⟨hknown, rfl⟩ := hwhy (hr.polls rfl).1
      exact hfailed answer (.refused (hchecks rfl) hknown)
  | @startOther whole kind =>
    obtain rfl := hwhole hover
    cases s with
    | balancer => cases hstarting
    | resolver => cases (hkind.symm.trans kind).symm.trans (hr.polls rfl).1
  | @register _ whole action answer =>
    obtain rfl := hwhole hover
    cases s with
    | balancer => cases hstarting
    | resolver => exact hdone (answer rfl) ⟨⟨way, hmove⟩, hpoll⟩
  | launch action answer =>
    cases s with
    | balancer => exact hdone answer ⟨⟨way, hmove⟩, hback⟩
    | resolver => cases hstarting
  | abandon action => cases hmove.symm.trans action
  | stay => exact absurd hover hnot
  | request _ _ => exact absurd rfl hnot
  | finish from_post => cases s <;> rcases from_post with rfl | rfl <;> cases hstarting
  | startBalancer _ _ => cases hover
  | startResolver _ _ _ => cases hover
  | _ => cases s <;> cases hstarting

/-- A start that was asked for ends with success when it makes a background task known, and otherwise with an error. -/
theorem verdict_of_returns {k n : Nat} {rq : Request α} {outcome : Outcome α} (haction : r.action k = .request rq)
    (hrq : s.isStart rq = true) (h : r.Returns n (r.state k).nextTask outcome) : r.Verdict s n (r.state k).nextTask outcome := by
  obtain ⟨⟨way, hmove⟩, hworks, houtcome⟩ := h
  generalize hx : (r.state k).nextTask = x at hmove hworks houtcome ⊢
  have hnot : (r.state n).post x ≠ .over := fun hover => hworks (Balancer.post_eq_over_iff.1 hover)
  have hover : (r.state (n + 1)).post x = .over := Balancer.post_of_outcome? houtcome
  have hne : x ≠ (r.state n).nextTask := Nat.ne_of_lt (r.lt_of_post hnot)
  have hkn : k < n := by
    refine Nat.lt_of_not_le (fun hle => hnot (Balancer.post_of_le ?_))
    exact hx ▸ r.nextTask_le hle
  have hstarting : s.isStarting ((r.state n).post x) = true := hx ▸ isStarting_of_request haction hrq hkn
  obtain ⟨t, old, new, begun, _, _, hold, hposts, rfl, rfl, hproceeds⟩ := r.proceeds n
  have hpost := hposts x
  rw [if_neg hne, hover] at hpost
  split at hpost
  · rename_i heq
    subst heq
    exact verdict_of_proceeds hr hmove hold (hold ▸ hstarting) (hold ▸ hnot) hpost.symm houtcome hproceeds
  · exact absurd hpost.symm hnot

theorem checks_of_establishes {n n' : Nat} {t t' : TaskId} (h : r.Establishes s n t) (h' : r.Establishes s n' t') (hlt : n < n') :
    ∃ g < n, r.Checks s g t' ∧ s.task? (r.state g) = none := by
  obtain ⟨g, hg, hchecks, hnone, hsince⟩ := checked_of_isPast n' t' (h'.isPast hr).1
  have hle : g ≤ n := by
    refine Nat.le_of_not_lt (fun hlt => task?_ne_none hr hlt ?_ hnone)
    rw [h.2]
    exact Option.some_ne_none _
  rcases Nat.lt_or_eq_of_le hle with hlt' | rfl
  · exact ⟨g, hlt', hchecks, hnone⟩
  · have hpast := (h.isPast hr).1
    have hchecking := hchecks.isChecking
    obtain ⟨way, haction⟩ := h.1
    obtain ⟨way', haction'⟩ := hchecks.1
    rw [haction] at haction'
    injection haction' with ht
    rw [ht, Service.not_isPast_of_isChecking hchecking] at hpast
    cases hpast

/-- Of starts that do not overlap, none succeeds after another. -/
theorem not_lt_of_establishes (hspaces : r.SpacesStarts) {n n' : Nat} {t t' : TaskId} (h : r.Establishes s n t)
    (h' : r.Establishes s n' t') : ¬ n < n' := by
  intro hlt
  have hpast := h.isPast hr
  have hpast' := (h'.isPast hr).1
  obtain ⟨g, _, hchecks, hnone, hsince⟩ := checked_of_isPast n' t' hpast'
  have hg : g ≤ n := by
    refine Nat.le_of_not_lt (fun hlt => task?_ne_none hr hlt ?_ hnone)
    rw [h.2]
    exact Option.some_ne_none _
  obtain ⟨k, hk, rq, haction, hrq, rfl⟩ := r.requested_of_isStart n t (Service.isStart_of_isPast (.inr hpast.1))
  obtain ⟨k', hk', rq', haction', hrq', rfl⟩ := r.requested_of_isStart g t' (Service.isStart_of_isPast (.inl hchecks.isChecking))
  have hover : ∀ {j : Nat} {x : TaskId}, (r.state j).post x = .over → s.isPast ((r.state j).post x) = true → False := by
    intro j x hover hpast
    rw [hover, Service.isPast_over] at hpast
    cases hpast
  rcases Nat.lt_trichotomy k k' with hkk | rfl | hkk
  · exact hover (hspaces.post_over hkk haction haction' hrq hrq' (Nat.le_of_lt (Nat.lt_of_lt_of_le hk' hg))) hpast.1
  · have hstill := hsince (n + 1) (Nat.lt_succ_of_le hg) hlt
    rw [hpast.2] at hstill
    cases hstill
  · exact hover (hspaces.post_over hkk haction' haction hrq' hrq (Nat.le_of_lt (Nat.lt_trans hk hlt))) hpast'

/-- Of starts that do not overlap one succeeds at most. -/
theorem eq_of_establishes (hspaces : r.SpacesStarts) {n n' : Nat} {t t' : TaskId} (h : r.Establishes s n t)
    (h' : r.Establishes s n' t') : n = n' ∧ t = t' := by
  have heq : n = n' := Nat.le_antisymm (Nat.le_of_not_lt (not_lt_of_establishes hr hspaces h' h))
    (Nat.le_of_not_lt (not_lt_of_establishes hr hspaces h h'))
  subst heq
  obtain ⟨way, haction⟩ := h.1
  obtain ⟨way', haction'⟩ := h'.1
  rw [haction] at haction'
  injection haction' with ht
  exact ⟨rfl, ht⟩

/-- The starts of a service that is never stopped fare as they should, except that several of them may succeed when they overlap. -/
theorem admission : r.Admission s where
  verdict := fun k rq n outcome haction hrq hreturns => verdict_of_returns hr haction hrq hreturns
  refused := fun n t hchecks hknown => hchecks.refused hr hknown
  lasting := fun n t hestablishes m hnm => task?_ne_none hr hnm (by rw [hestablishes.2]; exact Option.some_ne_none _)
  overlapping := fun n n' t t' h h' hlt => checks_of_establishes hr h h' hlt
  served := fun n x hx => established_of_isServing n x (isServedBy_iff.1 hx)
  exclusive := fun hspaces => by
    refine ⟨fun n n' t t' h h' => eq_of_establishes hr hspaces h h', fun n x x' hx hx' => ?_⟩
    obtain ⟨m, _, t, h, rfl⟩ := established_of_isServing n x (isServedBy_iff.1 hx)
    obtain ⟨m', _, t', h', rfl⟩ := established_of_isServing n x' (isServedBy_iff.1 hx')
    rw [(eq_of_establishes hr hspaces h h').1]

end Keeping

/-- A run of a balancer whose resolver polls: a start is asked for in the first step and in another one, and in between and
afterwards the given tasks move in turn. -/
def twoStarts (before after : List TaskId) : Run Unit where
  options := ⟨⟨1, .ofSeconds 30, .ofSeconds 30⟩, none, none⟩
  adapter := ⟨.logs, fun _ _ => none⟩
  resolver := .polling (.listing "scripted" [.immediate (.ok [⟨"a"⟩])]) (.ofSeconds 30) (.ofSeconds 5)
  backends := ⟨[]⟩
  action
    | 0 => .request .start
    | n + 1 => if n = before.length then .request .start else .move ((before ++ 0 :: after).getD n 0) 0

/-- Nothing is asked for in such a run but the two starts. -/
theorem start_of_twoStarts {before after : List TaskId} {n : Nat} {rq : Request Unit}
    (h : (twoStarts before after).action n = .request rq) : rq = .start ∧ (n = 0 ∨ n = before.length + 1) := by
  cases n with
  | zero =>
    cases h
    exact ⟨rfl, .inl rfl⟩
  | succ n =>
    unfold twoStarts at h
    dsimp only at h
    split at h
    · cases h
      exact ⟨rfl, .inr (by omega)⟩
    · cases h

theorem keepsServing_twoStarts {before after : List TaskId} (s : Service) : (twoStarts before after).KeepsServing s where
  unstopped := fun n rq h => by
    rw [(start_of_twoStarts h).1]
    cases s <;> rfl
  polls := fun _ => ⟨rfl, rfl⟩

/-- A balancer is started, and once more when that is done. -/
def startedAgain : Run Unit := twoStarts (List.replicate 15 0) [3]

/-- In that run, the first start leaves a task that polls and one that applies updates, and the second start is refused. -/
theorem admission_startedAgain : startedAgain.KeepsServing .balancer ∧ startedAgain.KeepsServing .resolver ∧
    startedAgain.SpacesStarts ∧ startedAgain.Establishes .resolver 7 0 ∧ startedAgain.Establishes .balancer 15 0 ∧
    startedAgain.Checks .balancer 17 3 ∧
    (startedAgain.state 18).outcome? 3 = some (.failed (.configuration "load balancer already started")) ∧
    startedAgain.Admission .balancer ∧ startedAgain.Admission .resolver := by
  have hspaces : startedAgain.SpacesStarts := fun k n rq rq' hkn hk hn _ _ => by
    obtain rfl : k = 0 := by
      rcases (start_of_twoStarts hk).2 with rfl | rfl
      · rfl
      · rcases (start_of_twoStarts hn).2 with rfl | rfl <;> omega
    obtain rfl : n = 16 := (start_of_twoStarts hn).2.resolve_left (by omega)
    decide +kernel
  have hchecks : startedAgain.Checks .balancer 17 3 := ⟨⟨0, rfl⟩, by decide +kernel⟩
  have hbalancer : startedAgain.Admission .balancer := admission (keepsServing_twoStarts .balancer)
  exact ⟨keepsServing_twoStarts _, keepsServing_twoStarts _, hspaces, ⟨⟨0, rfl⟩, by decide +kernel⟩, ⟨⟨0, rfl⟩, by decide +kernel⟩,
    hchecks, hbalancer.refused 17 3 hchecks (by decide +kernel), hbalancer, admission (keepsServing_twoStarts _)⟩

/-- A balancer is started twice at once: both starts, and those of the resolver, check before one of them has succeeded. -/
def startedTogether : Run Unit := twoStarts [] ([0, 1, 0, 1] ++ List.replicate 13 0 ++ List.replicate 12 1)

/-- In that run, both starts succeed, two tasks poll and two tasks apply updates. -/
theorem admitted_startedTogether : startedTogether.KeepsServing .balancer ∧ startedTogether.KeepsServing .resolver ∧
    (startedTogether.state 31).outcome? 0 = some .done ∧ (startedTogether.state 31).outcome? 1 = some .done ∧
    Service.resolver.IsServedBy (startedTogether.state 31) 2 ∧ Service.resolver.IsServedBy (startedTogether.state 31) 4 ∧
    Service.balancer.IsServedBy (startedTogether.state 31) 3 ∧ Service.balancer.IsServedBy (startedTogether.state 31) 5 :=
  ⟨keepsServing_twoStarts _, keepsServing_twoStarts _, Balancer.outcome?_of_hasSucceeded (by decide +kernel),
    Balancer.outcome?_of_hasSucceeded (by decide +kernel), by decide +kernel, by decide +kernel, by decide +kernel, by decide +kernel⟩

end Run

end TelemetryRouter
