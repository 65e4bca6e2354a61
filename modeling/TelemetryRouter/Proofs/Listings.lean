import TelemetryRouter.Proofs.Gatekeeping
import TelemetryRouter.Proofs.NormalForm

/-!
# What a polling resolver knows

A polling resolver hears answers one after the other. At any time it knows the normal form of the last answer that was a list with
a member, and has counted every answer once, as such a list or as a failure. Each resolution hears one answer, and ends with
what the resolver knows then.
-/

namespace TelemetryRouter

variable {α : Type}

/-! ## Traces -/

/-- What happened in the steps before one, in order, if what happens in a step is at most one thing. -/
def gather {β : Type} (f : Nat → Option β) (n : Nat) : List β := (List.range n).filterMap f

theorem gather_succ {β : Type} (f : Nat → Option β) (n : Nat) : gather f (n + 1) = gather f n ++ (f n).toList := by
  rw [gather, gather, List.range_succ, List.filterMap_append]
  cases h : f n <;> simp [h]

theorem gather_succ_of_none {β : Type} {f : Nat → Option β} {n : Nat} (h : f n = none) : gather f (n + 1) = gather f n := by
  rw [gather_succ, h, Option.toList_none, List.append_nil]

theorem gather_succ_of_some {β : Type} {f : Nat → Option β} {n : Nat} {x : β} (h : f n = some x) :
    gather f (n + 1) = gather f n ++ [x] := by
  rw [gather_succ, h, Option.toList_some]

namespace Run

/-- What happened from a step on and before another, in order, if what happens in a step is at most one thing. -/
def since {β : Type} (f : Nat → Option β) (m n : Nat) : List β := gather (fun k => f (m + k)) (n - m)

section Since

variable {β : Type} {f : Nat → Option β} {m n : Nat}

theorem since_self : since f m m = [] := by
  rw [since, Nat.sub_self]
  rfl

theorem since_succ (hmn : m ≤ n) : since f m (n + 1) = since f m n ++ (f n).toList := by
  rw [since, since, Nat.succ_sub hmn, gather_succ, Nat.add_sub_cancel' hmn]

end Since

end Run

namespace Balancer

/-- The answer that a resolution hears in an action, if any; that the time is up counts as one. -/
def answer? (b : Balancer α) (a : Action α) : Option (Except RouterError (List Endpoint)) :=
  (b.resolving? a).bind (fun phase => match phase with
    | .listing arrival result deadline => b.heard? arrival result deadline
    | _ => none)

/-- The list that a resolution tells in an action, if any, and the mailbox of the subscriber to whom it is told. -/
def sent? (b : Balancer α) (a : Action α) : Option (MailboxId × List Endpoint) :=
  (b.resolving? a).bind (fun phase => match phase with
    | .sending box endpoints => some (box, endpoints)
    | _ => none)

/-- Whether a resolution ends in an action. -/
def concludes (b : Balancer α) (a : Action α) : Bool :=
  (b.resolving? a).any (fun phase => match phase with
    | .ending => true
    | _ => false)

end Balancer

/-- Whether a resolution has heard its answer. -/
def ResolutionPhase.hasHeard : ResolutionPhase → Bool
  | .announcing _ => true
  | .sending _ _ => true
  | .ending => true
  | _ => false

theorem ResolutionPhase.hasHeard_after (change : Option (List Endpoint)) : (ResolutionPhase.after change).hasHeard = true := by
  cases change <;> rfl

theorem ResolutionPhase.pending?_after (change : Option (List Endpoint)) : (ResolutionPhase.after change).pending? = change := by
  cases change <;> rfl

theorem listOf?_ne_nil {answer : Except RouterError (List Endpoint)} {es : List Endpoint} (h : listOf? answer = some es) : es ≠ [] := by
  unfold listOf? at h
  split at h
  · rename_i e rest
    injection h with h
    rintro rfl
    have hmem := (Endpoint.mem_normalize (e :: rest) e).2 List.mem_cons_self
    rw [h] at hmem
    cases hmem
  · cases h

theorem normalize_listOf? {answer : Except RouterError (List Endpoint)} {es : List Endpoint} (h : listOf? answer = some es) :
    Endpoint.normalize es = es := by
  unfold listOf? at h
  split at h
  · injection h with h
    rw [← h, Endpoint.normalize_normalize]
  · cases h

/-- Whether or not an answer changes the known list, the list that it stands for is known afterwards. -/
theorem getD_change? (known : List Endpoint) (answer : Except RouterError (List Endpoint)) :
    (change? known answer).getD known = (listOf? answer).getD known := by
  rcases h : listOf? answer with _ | es
  · rw [change?, h]
    rfl
  · by_cases hsame : known = es
    · rw [change?_of_eq (hsame ▸ h), hsame]
      rfl
    · rw [change?_of_ne h hsame]

/-- A change is one to a list that the answer stands for, other than the known one. -/
theorem change?_eq_some {known es : List Endpoint} {answer : Except RouterError (List Endpoint)} (h : change? known answer = some es) :
    listOf? answer = some es ∧ known ≠ es := by
  rw [change?, Option.filter_eq_some_iff] at h
  exact ⟨h.1, of_decide_eq_true h.2⟩

namespace Run

/-- The answer that a resolution hears in a step, if any. -/
def answer? (r : Run α) (n : Nat) : Option (Except RouterError (List Endpoint)) := (r.state n).answer? (r.action n)

/-- The answers that were heard before a step. -/
def answers (r : Run α) (n : Nat) : List (Except RouterError (List Endpoint)) := gather r.answer? n

/-- The new list that becomes known in a step, if any. -/
def news? (r : Run α) (n : Nat) : Option (List Endpoint) := (r.answer? n).bind (change? (r.state n).resolver.known)

/-- The new lists that became known before a step. -/
def news (r : Run α) (n : Nat) : List (List Endpoint) := gather r.news? n

/-- The list that a resolution tells in a step, if any, and the mailbox of the subscriber to whom it is told. -/
def sent? (r : Run α) (n : Nat) : Option (MailboxId × List Endpoint) := (r.state n).sent? (r.action n)

/-- How many resolutions have ended before a step. -/
def concluded (r : Run α) (n : Nat) : Nat := (List.range n).countP (fun k => (r.state k).concludes (r.action k))

/-- What a step tells a resolver: the answer, if one is heard, replaces the list if it stands for one, and is counted once. -/
structure Hears (r : Run α) (n : Nat) : Prop where
  known : (r.state (n + 1)).resolver.known = (r.news? n).getD (r.state n).resolver.known
  name : (r.state (n + 1)).resolver.name = (r.state n).resolver.name
  resolutions : ∀ success, (r.state (n + 1)).metrics.resolutions (r.state n).resolver.name success =
    (r.state n).metrics.resolutions (r.state n).resolver.name success +
      if (r.answer? n).any (fun answer => success == succeeds answer) then 1 else 0

theorem normalize_of_mem_news {r : Run α} {es : List Endpoint} {n : Nat} (h : es ∈ r.news n) : Endpoint.normalize es = es := by
  obtain ⟨k, _, hnews⟩ := List.mem_filterMap.1 h
  obtain ⟨answer, _, hchange⟩ := Option.bind_eq_some_iff.1 hnews
  exact normalize_listOf? (change?_eq_some hchange).1

/-- What a step tells a resolver, by what it does to the resolution that was let in. -/
theorem hears_of_shift {r : Run α} {n : Nat}
    (hshift : Balancer.Shift (r.state n) (r.state (n + 1)) ((r.state n).resolving? (r.action n))) : r.Hears n := by
  have hhushed : (r.answer? n = none) → Balancer.Hushed (r.state n) (r.state (n + 1)) → r.Hears n := by
    intro hnone hushed
    have hnews : r.news? n = none := by rw [news?, hnone]; rfl
    refine ⟨by rw [hnews]; exact hushed.known, hushed.name, fun success => ?_⟩
    rw [hushed.resolutions, hnone]
    rfl
  generalize hphase : (r.state n).resolving? (r.action n) = phase at hshift
  have hanswer : r.answer? n = phase.bind (fun phase => match phase with
    | .listing arrival result deadline => (r.state n).heard? arrival result deadline
    | _ => none) := by rw [answer?, Balancer.answer?, hphase]
  cases hshift with
  | quiet _ hushed => exact hhushed hanswer hushed
  | ask _ _ hushed => exact hhushed hanswer hushed
  | @hear arrival result answer deadline _ heard _ known name resolutions _ =>
    have hanswer' : r.answer? n = some answer := hanswer.trans heard
    refine ⟨?_, name, fun success => ?_⟩
    · rw [known, news?, hanswer']
      rfl
    · rw [resolutions success, hanswer', Option.any_some]
      simp only [beq_iff_eq]
  | tell _ _ _ hushed => exact hhushed hanswer hushed
  | keep _ _ _ hushed => exact hhushed hanswer hushed
  | lose _ _ _ hushed => exact hhushed hanswer hushed
  | put _ _ _ known name resolutions _ =>
    have hanswer' : r.answer? n = none := hanswer
    have hnews : r.news? n = none := by rw [news?, hanswer']; rfl
    refine ⟨by rw [hnews]; exact known, name, fun success => ?_⟩
    rw [resolutions, hanswer']
    rfl
  | conclude _ _ hushed => exact hhushed hanswer hushed

variable (r : Run α) (hr : r.Polls)

include hr

theorem hears (n : Nat) : r.Hears n := hears_of_shift (r.shift hr n)

/-- A polling resolver knows the normal form of the last answer that was a list with a member, and nothing before the first. -/
theorem known_eq (n : Nat) : (r.state n).resolver.known = ((r.answers n).filterMap listOf?).getLast?.getD [] := by
  induction n with
  | zero =>
    obtain ⟨source, interval, timeout, heq⟩ := hr.polling
    rw [state, heq]
    rfl
  | succ n ih =>
    rw [(r.hears hr n).known, news?, answers]
    rcases hanswer : r.answer? n with _ | answer
    · rw [gather_succ_of_none hanswer]
      exact ih
    · rw [gather_succ_of_some hanswer, List.filterMap_append, Option.bind_some, getD_change?]
      rcases hlist : listOf? answer with _ | es
      · rw [List.filterMap_cons_none hlist, List.filterMap_nil, List.append_nil]
        exact ih
      · rw [List.filterMap_cons_some hlist, List.filterMap_nil, List.getLast?_append]
        rfl

theorem normalize_known (n : Nat) : Endpoint.normalize (r.state n).resolver.known = (r.state n).resolver.known := by
  rw [r.known_eq hr n]
  rcases hlast : ((r.answers n).filterMap listOf?).getLast? with _ | es
  · exact List.eq_nil_iff_forall_not_mem.2 (fun e he => nomatch (Endpoint.mem_normalize [] e).1 he)
  · obtain ⟨answer, _, hanswer⟩ := List.mem_filterMap.1 (List.mem_of_getLast? hlast)
    exact normalize_listOf? hanswer

/-- Once a polling resolver knows a member, it always does. -/
theorem known_ne_nil {n m : Nat} (hnm : n ≤ m) (h : (r.state n).resolver.known ≠ []) : (r.state m).resolver.known ≠ [] := by
  induction m, hnm using Nat.le_induction with
  | base => exact h
  | succ m _ ih =>
    rw [(r.hears hr m).known, news?]
    rcases hanswer : r.answer? m with _ | answer
    · exact ih
    · rw [Option.bind_some, getD_change?]
      rcases hlist : listOf? answer with _ | es
      · exact ih
      · exact listOf?_ne_nil hlist

theorem resolver_name (n : Nat) : (r.state n).resolver.name = r.resolver.name := by
  induction n with
  | zero => rfl
  | succ n ih => rw [(r.hears hr n).name, ih]

/-- The resolutions that are counted as successful, and the others, are as many as such answers were heard. -/
theorem resolutions_eq (success : Bool) (n : Nat) : (r.state n).metrics.resolutions r.resolver.name success =
    (r.answers n).countP (fun answer => success == succeeds answer) := by
  induction n with
  | zero => rfl
  | succ n ih =>
    have hcount := (r.hears hr n).resolutions success
    rw [r.resolver_name hr n] at hcount
    rw [hcount, ih, answers, answers]
    rcases hanswer : r.answer? n with _ | answer
    · rw [gather_succ_of_none hanswer]
      rfl
    · rw [gather_succ_of_some hanswer, List.countP_append, List.countP_singleton, Option.any_some]

theorem phase?_zero : (r.state 0).phase? = none := by
  obtain ⟨source, interval, timeout, heq⟩ := hr.polling
  rw [state, heq]
  rfl

/-- As many answers were heard as resolutions have ended, and one more if the resolution under way has heard its own. -/
theorem length_answers (n : Nat) :
    (r.answers n).length = r.concluded n + if (r.state n).phase?.any ResolutionPhase.hasHeard then 1 else 0 := by
  induction n with
  | zero =>
    rw [r.phase?_zero hr]
    rfl
  | succ n ih =>
    have hshift := r.shift hr n
    have hconcluded : r.concluded (n + 1) = r.concluded n + if (r.state n).concludes (r.action n) then 1 else 0 := by
      rw [concluded, concluded, List.range_succ, List.countP_append, List.countP_singleton]
    have hlength : (r.answers (n + 1)).length = (r.answers n).length + (r.answer? n).toList.length := by
      rw [answers, gather_succ, List.length_append, answers]
    rw [hconcluded, hlength, ih, answer?, Balancer.answer?, Balancer.concludes]
    generalize (r.state n).resolving? (r.action n) = phase at hshift ⊢
    cases hshift with
    | quiet phase _ => rw [phase]; rfl
    | ask before after _ => rw [before, after]; rfl
    | @hear arrival result answer deadline before heard after _ _ _ _ =>
      rw [before, after, Option.bind_some, Option.any_some, Option.any_some, Option.any_some]
      dsimp only
      rw [heard, ResolutionPhase.hasHeard_after]
      rfl
    | tell before _ after _ => rw [before, after]; rfl
    | keep before _ after _ => rw [before, after]; rfl
    | lose before _ after _ => rw [before, after]; rfl
    | put before _ after _ _ _ _ => rw [before, after]; rfl
    | conclude before after _ => rw [before, after]; rfl

theorem getLast?_news (n : Nat) : (r.state n).resolver.known = (r.news n).getLast?.getD [] := by
  induction n with
  | zero => exact r.known_eq hr 0
  | succ n ih =>
    rw [(r.hears hr n).known, news, gather_succ, List.getLast?_append]
    cases r.news? n with
    | none => exact ih
    | some es => rfl

/-- What the resolution under way has still to tell is the last of the new lists. -/
theorem pending_of_news (n : Nat) : ∀ phase ∈ (r.state n).phase?, ∀ endpoints ∈ phase.pending?,
    ∃ earlier, r.news n = earlier ++ [endpoints] := by
  induction n with
  | zero =>
    rw [r.phase?_zero hr]
    exact fun _ h => nomatch h
  | succ n ih =>
    intro phase hphase endpoints hpending
    have hshift := r.shift hr n
    have hsame : ∀ {q : ResolutionPhase}, (r.state n).phase? = some q → q.pending? = phase.pending? → r.answer? n = none →
        ∃ earlier, r.news (n + 1) = earlier ++ [endpoints] := by
      intro q hq heq hanswer
      have hnews : r.news? n = none := by rw [news?, hanswer]; rfl
      rw [news, gather_succ_of_none hnews]
      exact ih q hq endpoints (heq ▸ hpending)
    have hnone : ∀ {q : ResolutionPhase}, (r.state (n + 1)).phase? = some q → q.pending? = none →
        ∃ earlier, r.news (n + 1) = earlier ++ [endpoints] := by
      intro q hq heq
      obtain rfl := Option.some.inj (hq.symm.trans hphase)
      rw [heq] at hpending
      cases hpending
    have hanswer : r.answer? n = ((r.state n).resolving? (r.action n)).bind (fun phase => match phase with
        | .listing arrival result deadline => (r.state n).heard? arrival result deadline
        | _ => none) := rfl
    generalize (r.state n).resolving? (r.action n) = moved at hshift hanswer
    cases hshift with
    | quiet same _ => exact hsame (same ▸ hphase) rfl hanswer
    | ask _ after _ => exact hnone after rfl
    | @hear arrival result answer deadline _ heard after _ _ _ _ =>
      obtain rfl := Option.some.inj (after.symm.trans hphase)
      rw [ResolutionPhase.pending?_after] at hpending
      have hnews : r.news? n = some endpoints := by
        rw [news?, hanswer, Option.bind_some]
        show ((r.state n).heard? arrival result deadline).bind _ = _
        rw [heard]
        exact hpending
      exact ⟨r.news n, gather_succ_of_some hnews⟩
    | tell before _ after _ =>
      obtain rfl := Option.some.inj (after.symm.trans hphase)
      exact hsame before rfl hanswer
    | keep _ _ after _ => exact hnone after rfl
    | lose _ _ after _ => exact hnone after rfl
    | put _ _ after _ _ _ _ => exact hnone after rfl
    | conclude _ after _ =>
      rw [after] at hphase
      cases hphase

/-- What the resolution under way has still to tell is known. -/
theorem pending_eq (n : Nat) (phase : ResolutionPhase) (hphase : phase ∈ (r.state n).phase?) (endpoints : List Endpoint)
    (hpending : endpoints ∈ phase.pending?) : endpoints = (r.state n).resolver.known := by
  obtain ⟨earlier, hnews⟩ := r.pending_of_news hr n phase hphase endpoints hpending
  rw [r.getLast?_news hr n, hnews, List.getLast?_concat]
  rfl

end Run

end TelemetryRouter
