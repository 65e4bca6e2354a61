import TelemetryRouter.Proofs.Detection

/-!
# Resolutions that are given up

A resolution keeps the list that it finds before it tells the list to the subscriber. Who asked for it may give it up, and if that
happens between the two, the change is lost: the list is known, nobody is told, and a later answer with the same members is no
change any more. Apart from that nothing is lost: every change detected while the subscriber is registered is told or lost, in
the order of their detection (`announces_of_resolve`).
-/

namespace TelemetryRouter

variable {α : Type}

/-- What becomes of a change. -/
inductive Fate where
  | told (endpoints : List Endpoint)
  | lost (endpoints : List Endpoint)
  deriving DecidableEq, Repr

namespace Fate

/-- The list of a change. -/
def endpoints : Fate → List Endpoint
  | told es => es
  | lost es => es

/-- The list of a change that is told. -/
def told? : Fate → Option (List Endpoint)
  | told es => some es
  | lost _ => none

/-- If the last change is not lost, it is the last one that is told. -/
theorem getLast?_told (fates : List Fate) (h : ∀ es, fates.getLast? ≠ some (lost es)) :
    (fates.filterMap told?).getLast? = (fates.map endpoints).getLast? := by
  rcases List.eq_nil_or_concat fates with rfl | ⟨earlier, fate, rfl⟩
  · rfl
  · cases fate with
    | told es => simp [told?, endpoints]
    | lost es => exact absurd (by rw [List.concat_eq_append, List.getLast?_concat]) (h es)

end Fate

namespace Balancer

/-- Whether an action leaves the resolver to its starts, stops and resolutions, and gives none of these up but resolutions that
were asked for. -/
def Tolerates (b : Balancer α) : Action α → Prop
  | .request (.push _) => False
  | .unsubscribe => False
  | .abandon t => (∀ w ∈ b.works t, w.isApart = true) ∨ ∃ phase, b.works t = [.resolution phase]
  | _ => True

/-- The list that nobody will be told to a mailbox any more because of an action, if any. -/
def lost? (b : Balancer α) (box : MailboxId) : Action α → Option (List Endpoint)
  | .abandon t => if b.resolver.gate.inside = some t then (b.pendingFor box).head? else none
  | _ => none

/-- What becomes of a resolver when a task is given up: if the task is inside, the resolution under way is no more. -/
structure Quits (b b' : Balancer α) (t : TaskId) : Prop where
  hushed : Hushed b b'
  subscriber : b'.resolver.subscriber = b.resolver.subscriber
  phase : b'.phase? = if b.resolver.gate.inside = some t then none else b.phase?

section Quits

variable {b b' : Balancer α} {t : TaskId} {phase : ResolutionPhase}

/-- A resolution that is given up leaves the gate, and a mailbox if it waits for room in it. -/
theorem feed_abandon_resolution (hw : b.works t = [.resolution phase]) :
    (b.abandon t).resolver = { b.resolver with gate := b.resolver.gate.leave t } ∧ (b.abandon t).metrics = b.metrics ∧
      ∀ box, (b.abandon t).messages box = b.messages box := by
  rw [abandon, hw, List.foldl_cons, List.foldl_nil]
  cases phase with
  | sending box endpoints => exact ⟨rfl, rfl, fun x => messages_leave b box x t⟩
  | _ => exact ⟨rfl, rfl, fun _ => rfl⟩

/-- A resolution that is given up leaves the others behind the gate. -/
theorem Gated.abandon_resolution (hb : b.Gated) (hw : b.works t = [.resolution phase]) : (b.abandon t).Gated := by
  obtain ⟨hresolver, _, _⟩ := feed_abandon_resolution hw
  have hgate : (b.abandon t).resolver.gate = b.resolver.gate.leave t := by rw [hresolver]
  have hother : ∀ {x q rest}, (b.abandon t).works x = .resolution q :: rest → x ≠ t ∧ b.works x = .resolution q :: rest := by
    intro x q rest hx
    rw [works_abandon] at hx
    split at hx
    · cases hx
    · next hne => exact ⟨hne, hx⟩
  refine ⟨by rw [hresolver]; exact hb.polling, fun x => ?_, fun x q rest hx hq => ?_, fun x hx => ?_, fun x => ?_, ?_⟩
  · rw [works_abandon]
    split
    · exact .apart (List.forall_mem_nil _)
    · exact hb.stacked x
  · obtain ⟨hne, hx⟩ := hother hx
    have hturn := hb.turn x q rest hx hq
    rw [hgate, Gate.leave, if_neg (fun h => hne (Option.some.inj (hturn.symm.trans h)))]
    exact hturn
  · rw [hgate, Gate.leave] at hx
    dsimp only at hx
    split at hx
    · cases hx
    · next hnot =>
      obtain ⟨q, rest, hworks, hq⟩ := hb.taken x hx
      have hne : x ≠ t := by
        rintro rfl
        exact hnot hx
      exact ⟨q, rest, by rw [works_abandon, if_neg hne]; exact hworks, hq⟩
  · rw [hgate, Gate.leave, List.mem_filter, decide_eq_true_iff, hb.waits x, works_abandon]
    split
    · next heq =>
      refine ⟨fun h => absurd heq h.2, ?_⟩
      rintro ⟨_, ⟨⟩⟩
    · next hne => exact and_iff_left hne
  · rw [hgate]
    exact hb.once.filter _

/-- What becomes of a resolver when a resolution is given up. -/
theorem quits_resolution (hw : b.works t = [.resolution phase]) : Quits b (b.abandon t) t := by
  obtain ⟨hresolver, hmetrics, hmessages⟩ := feed_abandon_resolution hw
  refine ⟨.of_eq (by rw [hresolver]) (by rw [hresolver]) hmetrics (fun box => ⟨0, hmessages box⟩), by rw [hresolver], ?_⟩
  rw [phase?, phase?, hresolver, Gate.leave]
  dsimp only
  split
  · rfl
  · next hnot =>
    rcases hinside : b.resolver.gate.inside with _ | x
    · rfl
    · have hne : x ≠ t := by
        rintro rfl
        exact hnot hinside
      rw [Option.bind_some, Option.bind_some, works_abandon, if_neg hne]

/-- What becomes of a resolver when a task is given up that has nothing to do with it. -/
theorem Gated.quits_apart (hb : b.Gated) (happ : ∀ w ∈ b.works t, w.isApart = true) (h : Stir b (.abandon t) b') : Quits b b' t := by
  have hout : b.resolver.gate.inside ≠ some t := by
    intro hinside
    obtain ⟨q, rest, hw, _⟩ := hb.taken t hinside
    exact ne_resolution_of_isApart happ q hw
  have hshift := hb.shift h
  rw [show b.resolving? (.abandon t) = none from rfl] at hshift
  cases hshift with
  | quiet phase hushed =>
    refine ⟨hushed, ?_, by rw [if_neg hout, phase]⟩
    cases h with
    | rearrange _ _ _ _ rearranges =>
      generalize hdesk : b'.desk = desk at rearranges
      cases rearranges with
      | apart _ _ _ => exact congrArg Desk.subscriber hdesk

/-- What the resolution under way has still to tell is known after a step if it was before. -/
theorem Shift.pending_eq {moved : Option ResolutionPhase} (h : Shift b b' moved)
    (hb : ∀ phase ∈ b.phase?, ∀ es ∈ phase.pending?, es = b.resolver.known) :
    ∀ phase ∈ b'.phase?, ∀ es ∈ phase.pending?, es = b'.resolver.known := by
  intro phase hphase es hes
  have hsame : ∀ {q : ResolutionPhase}, b.phase? = some q → q.pending? = phase.pending? → b'.resolver.known = b.resolver.known →
      es = b'.resolver.known := fun hq heq hknown => (hb _ hq es (heq ▸ hes)).trans hknown.symm
  have hnone : ∀ {q : ResolutionPhase}, b'.phase? = some q → q.pending? = none → es = b'.resolver.known := by
    intro q hq heq
    obtain rfl := Option.some.inj (hq.symm.trans hphase)
    rw [heq] at hes
    cases hes
  cases h with
  | quiet same hushed => exact hsame (same ▸ hphase) rfl hushed.known
  | ask _ after _ => exact hnone after rfl
  | hear _ _ after known _ _ _ =>
    obtain rfl := Option.some.inj (after.symm.trans hphase)
    rw [ResolutionPhase.pending?_after] at hes
    rw [known, Option.mem_def.1 hes]
    rfl
  | tell before _ after hushed =>
    obtain rfl := Option.some.inj (after.symm.trans hphase)
    exact hsame before rfl hushed.known
  | keep _ _ after _ => exact hnone after rfl
  | lose _ _ after _ => exact hnone after rfl
  | put _ _ after _ _ _ _ => exact hnone after rfl
  | conclude _ after _ =>
    rw [after] at hphase
    cases hphase

end Quits

end Balancer

namespace Run

/-! ## Runs in which resolutions may be given up -/

/-- Whether a run is one of a resolver that polls a source, is new at first and then driven by starts, stops and resolutions only, of
which resolutions that were asked for may be given up at any time. -/
structure Impatient (r : Run α) : Prop where
  polling : ∃ source interval timeout, r.resolver = .polling source interval timeout
  tolerates : ∀ n, (r.state n).Tolerates (r.action n)

/-- What becomes of a change in a step, if one is told to a mailbox or lost to it. -/
def fate? (r : Run α) (box : MailboxId) (n : Nat) : Option Fate :=
  match (r.state n).lost? box (r.action n) with
  | some es => some (.lost es)
  | none => (r.told? box n).map .told

/-- What became of changes from a step on and before another. -/
def fates (r : Run α) (box : MailboxId) (m n : Nat) : List Fate := since (r.fate? box) m n

section Impatient

variable {r : Run α} {box : MailboxId} {m n k : Nat} {t : TaskId}

/-- Where nothing is given up, what a run tolerates is what it admits. -/
theorem Impatient.admits (hr : r.Impatient) (hkept : ∀ t, r.action n ≠ .abandon t) : (r.state n).Admits (r.action n) := by
  have h := hr.tolerates n
  generalize r.action n = a at h hkept
  cases a with
  | abandon t => exact absurd rfl (hkept t)
  | request rq => cases rq <;> exact h
  | _ => exact h

/-- A step that gives up a task which has nothing to do with the resolver is admitted. -/
theorem admits_abandon (haction : r.action n = .abandon t) (happ : ∀ w ∈ (r.state n).works t, w.isApart = true) :
    (r.state n).Admits (r.action n) := by
  rw [haction]
  exact happ

/-- In every state of such a run, the resolutions follow each other through the gate. -/
theorem Impatient.gated (hr : r.Impatient) (n : Nat) : (r.state n).Gated := by
  induction n with
  | zero =>
    obtain ⟨source, interval, timeout, heq⟩ := hr.polling
    rw [state, heq]
    exact Balancer.gated_new _ _ _ _ _ _
  | succ n hb =>
    by_cases hadmits : (r.state n).Admits (r.action n)
    · exact hb.stir ((r.turn n).stir hb.polling hb.stacked hadmits)
    · obtain ⟨t, haction⟩ : ∃ t, r.action n = .abandon t := by
        by_contra hkept
        exact hadmits (hr.admits (fun t h => hkept ⟨t, h⟩))
      have htolerates := hr.tolerates n
      rw [haction] at htolerates
      rcases htolerates with happ | ⟨phase, hw⟩
      · exact absurd (admits_abandon haction happ) hadmits
      · rw [state, haction]
        exact hb.abandon_resolution hw

/-- What a step of such a run does to the resolver, unless it gives a task up. -/
theorem Impatient.stir (hr : r.Impatient) (hkept : ∀ t, r.action n ≠ .abandon t) :
    Balancer.Stir (r.state n) (r.action n) (r.state (n + 1)) :=
  (r.turn n).stir (hr.gated n).polling (hr.gated n).stacked (hr.admits hkept)

/-- What a step of such a run does to the resolver if it gives a task up. -/
theorem Impatient.quits (hr : r.Impatient) (haction : r.action n = .abandon t) :
    Balancer.Quits (r.state n) (r.state (n + 1)) t := by
  have hb := hr.gated n
  have htolerates := hr.tolerates n
  rw [haction] at htolerates
  rcases htolerates with happ | ⟨phase, hw⟩
  · have hstir := (r.turn n).stir hb.polling hb.stacked (admits_abandon haction happ)
    rw [haction] at hstir
    exact hb.quits_apart happ hstir
  · rw [state, haction]
    exact Balancer.quits_resolution hw

/-- What the resolution under way has still to tell is known. -/
theorem Impatient.pending_eq (hr : r.Impatient) (n : Nat) :
    ∀ phase ∈ (r.state n).phase?, ∀ es ∈ phase.pending?, es = (r.state n).resolver.known := by
  induction n with
  | zero =>
    obtain ⟨source, interval, timeout, heq⟩ := hr.polling
    have hfree : (r.state 0).phase? = none := by
      rw [state, heq]
      rfl
    rw [hfree]
    exact fun _ h => absurd h (Option.not_mem_none _)
  | succ n ih =>
    by_cases hkept : ∀ t, r.action n ≠ .abandon t
    · exact ((hr.gated n).shift (hr.stir hkept)).pending_eq ih
    · obtain ⟨t, haction⟩ := not_forall_not.1 hkept
      have hquits := hr.quits haction
      rw [hquits.phase, hquits.hushed.known]
      split
      · exact fun _ h => absurd h (Option.not_mem_none _)
      · exact ih

/-! ## Steps -/

theorem news?_of_abandon (haction : r.action n = .abandon t) : r.news? n = none := by
  rw [news?, answer?, haction]
  rfl

theorem told?_of_abandon (haction : r.action n = .abandon t) : r.told? box n = none := by
  rw [told?, sent?, haction]
  rfl

theorem fate?_of_abandon (haction : r.action n = .abandon t) :
    r.fate? box n = ((r.state n).lost? box (.abandon t)).map .lost := by
  rw [fate?, haction, told?_of_abandon haction]
  cases (r.state n).lost? box (.abandon t) <;> rfl

theorem Impatient.known_succ (hr : r.Impatient) (n : Nat) :
    (r.state (n + 1)).resolver.known = (r.news? n).getD (r.state n).resolver.known := by
  by_cases hkept : ∀ t, r.action n ≠ .abandon t
  · exact (hears_of_shift ((hr.gated n).shift (hr.stir hkept))).known
  · obtain ⟨t, haction⟩ := not_forall_not.1 hkept
    rw [(hr.quits haction).hushed.known, news?_of_abandon haction]
    rfl

/-- While the subscriber is registered, a step takes what was pending and what is detected in it to what is told or lost in it
and what is pending then. -/
theorem Impatient.pendingFor_succ (hr : r.Impatient)
    (hkept : (r.state (n + 1)).resolver.subscriber = (r.state n).resolver.subscriber) :
    (r.state n).pendingFor box ++ (r.detected? box n).toList =
      ((r.fate? box n).map Fate.endpoints).toList ++ (r.state (n + 1)).pendingFor box := by
  by_cases hnot : ∀ t, r.action n ≠ .abandon t
  · have hlost : (r.state n).lost? box (r.action n) = none := by
      generalize r.action n = a at hnot
      cases a with
      | abandon t => exact absurd rfl (hnot t)
      | _ => rfl
    have htold : (r.fate? box n).map Fate.endpoints = r.told? box n := by
      rw [fate?, hlost]
      cases r.told? box n <;> rfl
    rw [htold]
    exact pendingFor_of_shift box ((hr.gated n).shift (hr.stir hnot)) (.inl hkept)
  · obtain ⟨t, haction⟩ := not_forall_not.1 hnot
    have hquits := hr.quits haction
    have hdetected : r.detected? box n = none := by rw [detected?, news?_of_abandon haction, ite_self]
    rw [hdetected, fate?_of_abandon haction, Balancer.lost?, Option.toList_none, List.append_nil]
    by_cases hinside : (r.state n).resolver.gate.inside = some t
    · have hnone : (r.state (n + 1)).pendingFor box = [] :=
        Balancer.pendingFor_of_free (by rw [hquits.phase, if_pos hinside]) box
      rw [if_pos hinside, hnone, List.append_nil]
      have hfew := (r.state n).length_pendingFor_le box
      generalize (r.state n).pendingFor box = pending at hfew
      rcases pending with _ | ⟨es, _ | ⟨es', others⟩⟩
      · rfl
      · rfl
      · exact absurd hfew (by simp)
    · rw [if_neg hinside, Balancer.pendingFor, Balancer.pendingFor, hquits.phase, if_neg hinside, hkept]
      rfl

theorem told?_eq (r : Run α) (box : MailboxId) (n : Nat) : r.told? box n = (r.fate? box n).bind Fate.told? := by
  rw [fate?]
  split
  · next es hlost =>
    generalize haction : r.action n = a at hlost
    cases a with
    | abandon t => exact told?_of_abandon haction
    | _ => cases hlost
  · cases r.told? box n <;> rfl

/-- A mailbox loses lists only from its front, and gets at its end what it is told as long as anybody reads it. -/
theorem Impatient.messages_succ (hr : r.Impatient) (box : MailboxId) (n : Nat) : ∃ k, (r.state (n + 1)).messages box =
    ((r.state n).messages box).drop k ++ if (r.state n).hasReceiver box then (r.told? box n).toList else [] := by
  by_cases hkept : ∀ t, r.action n ≠ .abandon t
  · exact messages_of_shift box ((hr.gated n).shift (hr.stir hkept))
  · obtain ⟨t, haction⟩ := not_forall_not.1 hkept
    obtain ⟨k, hk⟩ := (hr.quits haction).hushed.messages box
    exact ⟨k, by rw [hk, told?_of_abandon haction, Option.toList_none, ite_self, List.append_nil]⟩

/-! ## Runs -/

/-- While the subscriber is registered, every change is told or lost, but for the last that may still be on its way. -/
theorem Impatient.settled (hr : r.Impatient) (hmn : m ≤ n)
    (hregistered : ∀ j, m ≤ j → j ≤ n → (r.state j).resolver.subscriber = some box) :
    (r.state m).pendingFor box ++ since (r.detected? box) m n =
      (r.fates box m n).map Fate.endpoints ++ (r.state n).pendingFor box := by
  induction n, hmn using Nat.le_induction with
  | base =>
    rw [fates, since_self, since_self, List.append_nil]
    rfl
  | succ n hmn ih =>
    have hkept := (hregistered (n + 1) (Nat.le_succ_of_le hmn) (Nat.le_refl _)).trans
      (hregistered n hmn (Nat.le_succ n)).symm
    have hmap : (r.fate? box n).toList.map Fate.endpoints = ((r.fate? box n).map Fate.endpoints).toList := by
      cases r.fate? box n <;> rfl
    rw [fates, since_succ hmn, since_succ hmn, ← List.append_assoc, ih (fun j hj hjn => hregistered j hj (Nat.le_succ_of_le hjn)),
      List.map_append, List.append_assoc, List.append_assoc, hmap, ← hr.pendingFor_succ hkept]
    rfl

/-- While the subscriber is registered, the last change is known, and each differs from what was known before it. -/
theorem Impatient.changes (hr : r.Impatient) (hmn : m ≤ n)
    (hregistered : ∀ j, m ≤ j → j ≤ n → (r.state j).resolver.subscriber = some box) :
    (r.state n).resolver.known = (since (r.detected? box) m n).getLast?.getD (r.state m).resolver.known ∧
      ((r.state m).resolver.known :: since (r.detected? box) m n).IsChain (· ≠ ·) := by
  induction n, hmn using Nat.le_induction with
  | base =>
    rw [since_self]
    exact ⟨rfl, .singleton _⟩
  | succ n hmn ih =>
    obtain ⟨hknown, hchain⟩ := ih (fun j hj hjn => hregistered j hj (Nat.le_succ_of_le hjn))
    have hdetected : r.detected? box n = r.news? n := if_pos (hregistered n hmn (Nat.le_succ n))
    rw [since_succ hmn, hr.known_succ n, hdetected, List.getLast?_append]
    rcases hnews : r.news? n with _ | es
    · rw [Option.toList_none, List.append_nil]
      exact ⟨hknown, hchain⟩
    · refine ⟨rfl, ?_⟩
      obtain ⟨answer, _, hchange⟩ := Option.bind_eq_some_iff.1 hnews
      have hlast : ∀ x ∈ ((r.state m).resolver.known :: since (r.detected? box) m n).getLast?, x = (r.state n).resolver.known := by
        intro x hx
        rw [hknown]
        rw [List.getLast?_cons] at hx
        exact (Option.some.inj hx).symm
      rw [Option.toList_some, ← List.cons_append]
      refine hchain.append (.singleton es) (fun x hx y hy => ?_)
      obtain rfl := Option.some.inj hy
      rw [hlast x hx]
      exact (change?_eq_some hchange).2

theorem since_told (hmn : m ≤ n) : since (r.told? box) m n = (r.fates box m n).filterMap Fate.told? := by
  induction n, hmn using Nat.le_induction with
  | base => rw [fates, since_self, since_self]; rfl
  | succ n hmn ih =>
    rw [fates, since_succ hmn, since_succ hmn, List.filterMap_append, ih, told?_eq]
    cases r.fate? box n <;> rfl

/-- While the subscriber is registered and no change is detected, nothing is told after what was on its way. -/
theorem Impatient.silent (hr : r.Impatient) (hmn : m ≤ n)
    (hregistered : ∀ j, m ≤ j → j ≤ n → (r.state j).resolver.subscriber = some box) (hfree : (r.state m).phase? = none)
    (hsame : since (r.detected? box) m n = []) :
    since (r.told? box) m n = [] ∧ (r.state n).resolver.known = (r.state m).resolver.known := by
  constructor
  · have hsettled := hr.settled hmn hregistered
    rw [hsame, Balancer.pendingFor_of_free hfree] at hsettled
    have hfates : r.fates box m n = [] := List.map_eq_nil_iff.1 (List.append_eq_nil_iff.1 hsettled.symm).1
    rw [since_told hmn, hfates]
    rfl
  · rw [(hr.changes hmn hregistered).1, hsame]
    rfl

/-- A resolution that was asked for and is not given up goes on, or it has ended and its outcome is the list that was known then. -/
theorem Impatient.resolves (hr : r.Impatient) (hrequest : r.action k = .request .resolve) (hkn : k < n)
    (hkept : ∀ j, k < j → j < n → r.action j ≠ .abandon (r.state k).nextTask) :
    (∃ phase, (r.state n).works (r.state k).nextTask = [.resolution phase]) ∨
      ∃ j, k < j ∧ j < n ∧ r.Ends (r.state k).nextTask [] j ∧
        (r.state n).outcome? (r.state k).nextTask = some (.resolved (r.state j).resolver.known) := by
  induction n, hkn using Nat.le_induction with
  | base => exact .inl ⟨_, works_of_resolve (hr.gated k) hrequest⟩
  | succ n hkn ih =>
    rcases ih (fun j hkj hjn => hkept j hkj (Nat.lt_succ_of_lt hjn)) with ⟨phase, hw⟩ | ⟨j, hkj, hjn, hends, houtcome⟩
    · by_cases hnot : ∀ t, r.action n ≠ .abandon t
      · rcases resolves_succ (hr.gated n) (hr.stir hnot) hw with hgoes | ⟨hends, houtcome⟩
        · exact .inl hgoes
        · exact .inr ⟨n, hkn, Nat.lt_succ_self n, hends, houtcome⟩
      · obtain ⟨t, haction⟩ := not_forall_not.1 hnot
        have hne : (r.state k).nextTask ≠ t := by
          rintro rfl
          exact hkept n hkn (Nat.lt_succ_self n) haction
        refine .inl ⟨phase, ?_⟩
        rw [state, haction]
        exact (Balancer.works_abandon _ _ _).trans ((if_neg hne).trans hw)
    · exact .inr ⟨j, hkj, Nat.lt_succ_of_lt hjn, hends, outcome?_of_le (Nat.le_succ n) houtcome⟩

end Impatient

/-! ## What a subscriber is told in the end -/

/-- What became of the changes from a step on in which the subscriber was registered for a mailbox, at a step before which a resolution
has ended. -/
structure Announces (r : Run α) (box : MailboxId) (m n : Nat) : Prop where
  /-- Every change, the one that was on its way at first included, is told or lost, in the order of their detection. -/
  settled : (r.state m).pendingFor box ++ since (r.detected? box) m n = (r.fates box m n).map Fate.endpoints
  differ : ((r.state m).resolver.known :: since (r.detected? box) m n).IsChain (· ≠ ·)
  told : since (r.told? box) m n = (r.fates box m n).filterMap Fate.told?
  /-- What is told comes to the end of the mailbox, as long as anybody reads it. -/
  put : ∀ j, ∃ k, (r.state (j + 1)).messages box =
    ((r.state j).messages box).drop k ++ if (r.state j).hasReceiver box then (r.told? box j).toList else []
  known : (r.state n).resolver.known = ((r.fates box m n).map Fate.endpoints).getLast?.getD (r.state m).resolver.known
  /-- So the last list that was told, or the first list if none was, is the known one, unless the last change was lost and differs. -/
  current : (since (r.told? box) m n).getLast?.getD (r.state m).resolver.known = (r.state n).resolver.known ↔
    ∀ es, (r.fates box m n).getLast? = some (.lost es) →
      (since (r.told? box) m n).getLast?.getD (r.state m).resolver.known = es
  /-- It does differ if no other change was lost since that list was told. -/
  missed : (r.state m).pendingFor box = [] → ∀ earlier es, r.fates box m n = earlier ++ [.lost es] →
    (∀ es', earlier.getLast? ≠ some (.lost es')) →
    (since (r.told? box) m n).getLast?.getD (r.state m).resolver.known ≠ (r.state n).resolver.known
  /-- It stays so until a further change is detected, however many resolutions end meanwhile. -/
  silent : ∀ l, n ≤ l → (∀ j, n ≤ j → j ≤ l → (r.state j).resolver.subscriber = some box) → since (r.detected? box) n l = [] →
    since (r.told? box) n l = [] ∧ (r.state l).resolver.known = (r.state n).resolver.known

section Announces

variable {r : Run α} {box : MailboxId} {m n k : Nat}

/-- While no resolution is under way, every change is told or lost. -/
theorem Impatient.announces (hr : r.Impatient) (hmn : m ≤ n)
    (hregistered : ∀ j, m ≤ j → j ≤ n → (r.state j).resolver.subscriber = some box) (hfree : (r.state n).phase? = none) :
    r.Announces box m n := by
  have hsettled : (r.state m).pendingFor box ++ since (r.detected? box) m n = (r.fates box m n).map Fate.endpoints := by
    rw [hr.settled hmn hregistered, Balancer.pendingFor_of_free hfree, List.append_nil]
  obtain ⟨hlast, hdiffer⟩ := hr.changes hmn hregistered
  have hknown : (r.state n).resolver.known =
      ((r.fates box m n).map Fate.endpoints).getLast?.getD (r.state m).resolver.known := by
    rw [← hsettled, hlast, List.getLast?_append]
    rcases hchange : (since (r.detected? box) m n).getLast? with _ | es
    · rcases hpending : ((r.state m).pendingFor box).getLast? with _ | es
      · rfl
      · obtain ⟨phase, hphase, hes⟩ := Balancer.mem_pendingFor (List.mem_of_getLast? hpending)
        exact (hr.pending_eq m phase hphase es hes).symm
    · rfl
  have htold : since (r.told? box) m n = (r.fates box m n).filterMap Fate.told? := since_told hmn
  refine ⟨hsettled, hdiffer, htold, hr.messages_succ box, hknown, ⟨fun h es hes => ?_, fun h => ?_⟩, ?_, ?_⟩
  · rw [h, hknown, List.getLast?_map, hes]
    rfl
  · by_cases hlost : ∃ es, (r.fates box m n).getLast? = some (.lost es)
    · obtain ⟨es, hes⟩ := hlost
      rw [h es hes, hknown, List.getLast?_map, hes]
      rfl
    · rw [htold, Fate.getLast?_told _ (fun es hes => hlost ⟨es, hes⟩), hknown]
  · intro hpending earlier es hfates hearlier
    have htold' : (since (r.told? box) m n).getLast? = (earlier.map Fate.endpoints).getLast? := by
      rw [htold, hfates, List.filterMap_append, ← Fate.getLast?_told earlier hearlier]
      exact congrArg List.getLast? (List.append_nil _)
    have hdetected : since (r.detected? box) m n = earlier.map Fate.endpoints ++ [es] := by
      rw [hpending, hfates, List.map_append] at hsettled
      exact hsettled
    rw [htold', hlast, hdetected, List.getLast?_concat]
    rw [hdetected, ← List.cons_append] at hdiffer
    refine (List.isChain_append.1 hdiffer).2.2 _ ?_ es rfl
    rw [List.getLast?_cons]
    rfl
  · exact fun l hnl hlater hsame => hr.silent hnl hlater hfree hsame

/-- After a resolution that was asked for and has ended without being given up, every change since the registration of the subscriber
is told, or was lost with a resolution that was given up. -/
theorem announces_of_resolve (hr : r.Impatient) (hmk : m ≤ k) (hrequest : r.action k = .request .resolve) (hkn : k < n)
    (hkept : ∀ j, k < j → j < n → r.action j ≠ .abandon (r.state k).nextTask)
    (hover : (r.state n).outcome? (r.state k).nextTask ≠ none)
    (hregistered : ∀ j, m ≤ j → j ≤ n → (r.state j).resolver.subscriber = some box) :
    ∃ j, k < j ∧ j < n ∧ r.Ends (r.state k).nextTask [] j ∧
      (r.state n).outcome? (r.state k).nextTask = some (.resolved (r.state (j + 1)).resolver.known) ∧ r.Announces box m (j + 1) := by
  rcases hr.resolves hrequest hkn hkept with ⟨phase, hw⟩ | ⟨j, hkj, hjn, hends, houtcome⟩
  · obtain ⟨outcome, houtcome⟩ := Option.ne_none_iff_exists'.1 hover
    rw [Balancer.works_of_task? (task?_of_outcome? houtcome)] at hw
    cases hw
  · have hknown : (r.state (j + 1)).resolver.known = (r.state j).resolver.known := by
      have hnews : r.news? j = none := by
        rw [news?, answer?, Balancer.answer?, hends.resolving]
        rfl
      rw [hr.known_succ j, hnews]
      rfl
    refine ⟨j, hkj, hjn, hends, by rw [hknown]; exact houtcome, ?_⟩
    exact hr.announces (by omega) (fun i hmi hij => hregistered i hmi (by omega)) (Balancer.phase?_of_free hends.free)

end Announces

/-- A run of a resolver whose subscriber has room for one list. Two resolutions that were asked for find a new list each. The first list
fills the mailbox, so the second resolution waits for room, and is given up. A third one finds the same list as the second. -/
def withdrawn : Run Unit where
  options := ⟨⟨1, .ofSeconds 30, .ofSeconds 30⟩, none, none⟩
  adapter := ⟨.logs, fun _ _ => none⟩
  resolver := .polling (.listing "list" [.immediate (.ok [⟨"a"⟩]), .immediate (.ok [⟨"b"⟩]), .immediate (.ok [⟨"c"⟩])])
    (.ofSeconds 60) (.ofSeconds 1)
  backends := ⟨[]⟩
  action := fun n =>
    if n = 0 then .openInbox 1
    else if n = 1 then .request (.startResolver 0)
    else if n < 8 then .move 0 0
    else if n = 8 then .request .resolve
    else if n < 14 then .move 2 0
    else if n = 14 then .request .resolve
    else if n < 18 then .move 3 0
    else if n = 18 then .abandon 3
    else if n = 19 then .request .resolve
    else if n < 23 then .move 4 0
    else .advance n

/-- Whether nothing but a resolution is left of the works of a task. -/
def resolvesOnly : List (Work α) → Bool
  | [.resolution _] => true
  | _ => false

/-- The mailbox for which a task is about to register the subscriber. -/
def registers? : List (Work α) → Option MailboxId
  | .registerPoller box :: _ => some box
  | _ => none

/-- In that run nothing is given up but a resolution that was asked for. -/
theorem impatient_withdrawn : withdrawn.Impatient := by
  refine ⟨⟨_, _, _, rfl⟩, fun n => ?_⟩
  by_cases habandon : n = 18
  · subst habandon
    have hresolves : resolvesOnly ((withdrawn.state 18).works 3) = true := by decide +kernel
    right
    unfold resolvesOnly at hresolves
    split at hresolves
    · next phase hworks => exact ⟨phase, hworks⟩
    · cases hresolves
  · generalize haction : withdrawn.action n = a
    unfold withdrawn at haction
    dsimp only at haction
    repeat' split at haction
    all_goals first
      | contradiction
      | subst haction
        trivial

/-- In that run the start ends with the registration of its subscriber, who stays and reads the mailbox all the time. -/
theorem registers_withdrawn : withdrawn.Registers 0 7 ∧ ∀ j, 8 ≤ j → j ≤ 23 →
    (withdrawn.state j).resolver.subscriber = some 0 ∧ (withdrawn.state j).hasReceiver 0 = true := by
  have hnext : registers? ((withdrawn.state 7).works 0) = some 0 := by decide +kernel
  have hregistered : ∀ j < 24, 8 ≤ j →
      (withdrawn.state j).resolver.subscriber = some 0 ∧ (withdrawn.state j).hasReceiver 0 = true := by
    decide +kernel
  refine ⟨?_, fun j h8 h23 => hregistered j (by omega) h8⟩
  unfold registers? at hnext
  split at hnext
  · next box rest hworks => exact ⟨0, 0, rest, rfl, (Option.some.inj hnext) ▸ hworks⟩
  · cases hnext

/-- In that run the last resolution ends and is not given up. -/
theorem over_withdrawn : (withdrawn.state 23).outcome? (withdrawn.state 19).nextTask ≠ none ∧
    ∀ j, 19 < j → j < 23 → withdrawn.action j ≠ .abandon (withdrawn.state 19).nextTask := by
  have hover : ((withdrawn.state 23).outcome? (withdrawn.state 19).nextTask).isSome = true := by decide +kernel
  refine ⟨Option.isSome_iff_ne_none.1 hover, fun j h19 h23 => ?_⟩
  obtain rfl | rfl | rfl : j = 20 ∨ j = 21 ∨ j = 22 := by omega
  all_goals exact fun h => nomatch h

/-- In that run the first new list is told and the second one lost. -/
theorem announces_withdrawn : withdrawn.fates 0 8 23 = [.told [⟨"b"⟩], .lost [⟨"c"⟩]] ∧
    ∃ j, 19 < j ∧ j < 23 ∧ withdrawn.Ends (withdrawn.state 19).nextTask [] j ∧
      (withdrawn.state 23).outcome? (withdrawn.state 19).nextTask = some (.resolved (withdrawn.state (j + 1)).resolver.known) ∧
      withdrawn.Announces 0 8 (j + 1) := by
  refine ⟨by decide +kernel, ?_⟩
  exact announces_of_resolve impatient_withdrawn (by omega) rfl (by omega) over_withdrawn.2 over_withdrawn.1
    (fun j h8 h23 => (registers_withdrawn.2 j h8 h23).1)

/-- So it is not true that after a resolution that has ended the last list that was told, or the list that the start found if none was,
is the known one. -/
theorem stale_withdrawn : ¬ ∀ (r : Run Unit) (box : MailboxId) (m k n : Nat), r.Impatient → r.Registers box m →
    (∀ j, m < j → j ≤ n → (r.state j).resolver.subscriber = some box ∧ (r.state j).hasReceiver box = true) →
    m < k → r.action k = .request .resolve → k < n → (r.state n).outcome? (r.state k).nextTask ≠ none →
    (∀ j, k < j → j < n → r.action j ≠ .abandon (r.state k).nextTask) →
    (since (r.told? box) (m + 1) n).getLast?.getD (r.state (m + 1)).resolver.known = (r.state n).resolver.known := by
  intro hclaim
  have hstale := hclaim withdrawn 0 7 19 23 impatient_withdrawn registers_withdrawn.1 registers_withdrawn.2 (by omega) rfl
    (by omega) over_withdrawn.1 over_withdrawn.2
  exact absurd hstale (by decide +kernel)

end Run

end TelemetryRouter
