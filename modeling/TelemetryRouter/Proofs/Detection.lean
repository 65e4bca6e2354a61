import Mathlib.Data.List.Chain
import TelemetryRouter.Proofs.Returns
import TelemetryRouter.Proofs.Subscriptions

/-!
# What a polling resolver tells its subscriber

A polling resolver detects a change when an answer is a list with a member whose normal form differs from the list known just before. The
subscriber then is told the new list: what a subscriber is told are the changes detected while it was registered, in their order, with at
most the last of them still on its way (`told_append_pending`). So two lists told one after the other differ, and nothing is told between a
stop and the next start.
-/

namespace TelemetryRouter

variable {α : Type}

namespace Balancer

/-- What the resolution under way has still to tell to a mailbox: a list and at most one. -/
def pendingFor (b : Balancer α) (box : MailboxId) : List (List Endpoint) :=
  match b.phase? with
  | some (.announcing endpoints) => if b.resolver.subscriber = some box then [endpoints] else []
  | some (.sending box' endpoints) => if box' = box then [endpoints] else []
  | _ => []

theorem pendingFor_of_free {b : Balancer α} (h : b.phase? = none) (box : MailboxId) : b.pendingFor box = [] := by
  rw [pendingFor, h]

/-- What the resolution under way has still to tell to a mailbox, it has still to tell. -/
theorem mem_pendingFor {b : Balancer α} {box : MailboxId} {endpoints : List Endpoint} (h : endpoints ∈ b.pendingFor box) :
    ∃ phase, b.phase? = some phase ∧ phase.pending? = some endpoints := by
  unfold pendingFor at h
  split at h
  · rename_i es hphase
    split at h
    · exact ⟨_, hphase, by rw [List.mem_singleton.1 h]; rfl⟩
    · cases h
  · rename_i box' es hphase
    split at h
    · exact ⟨_, hphase, by rw [List.mem_singleton.1 h]; rfl⟩
    · cases h
  · cases h

/-- There is at most one list still to be told to a mailbox. -/
theorem length_pendingFor_le (b : Balancer α) (box : MailboxId) : (b.pendingFor box).length ≤ 1 := by
  unfold pendingFor
  split
  · split <;> simp
  · split <;> simp
  · simp

/-- The works of a stop of the resolver with others under it. -/
inductive Stops (rest : List (Work α)) : List (Work α) → Prop
  | begins : Stops rest (.stopResolver :: rest)
  | awaits {task : TaskId} : Stops rest (.awaitEnd task :: .forgetSubscriber :: rest)
  | forgets : Stops rest (.forgetSubscriber :: rest)

/-- A stop goes on until the resolver forgets its subscriber. -/
theorem Stir.stops {b b' : Balancer α} {a : Action α} {t : TaskId} {rest : List (Work α)} (h : Stir b a b')
    (hw : Stops rest (b.works t)) :
    Stops rest (b'.works t) ∨ ∃ way, a = .move t way ∧ b.works t = .forgetSubscriber :: rest := by
  have hlt : t < b.tasks.length := by
    cases hworks : b.works t with
    | nil =>
      rw [hworks] at hw
      cases hw
    | cons w ws => exact lt_of_works hworks
  cases h with
  | @resolution t' way phase rest' ws _ works _ step =>
    have hne : t ≠ t' := by
      rintro rfl
      rw [works] at hw
      cases hw
    exact .inl (by rw [step.works_eq works, if_neg hne]; exact hw)
  | @rearrange a t' old new started _ _ works leaves _ rearranges =>
    by_cases heq : t = t'
    · subst heq
      have hnew : b'.works t = new := by rw [leaves t, if_pos rfl]
      rw [hnew]
      rw [works] at hw ⊢
      generalize b'.desk = desk at rearranges
      cases rearranges with
      | apart before _ _ =>
        cases hw with
        | begins => cases before _ List.mem_cons_self
        | awaits => cases before _ (List.mem_cons_of_mem _ List.mem_cons_self)
        | forgets => cases before _ List.mem_cons_self
      | stopPolls _ _ =>
        cases hw with
        | begins => exact .inl .awaits
      | stopUnpolled _ _ =>
        cases hw with
        | begins => exact .inl .forgets
      | awaitPolls _ _ =>
        cases hw with
        | awaits => exact .inl .forgets
      | forget _ =>
        cases hw with
        | forgets => exact .inr ⟨_, rfl, rfl⟩
      | refuse refused =>
        rcases refused with rfl | ⟨box, rfl⟩ <;> cases hw
      | _ => cases hw
    · have hnext : t ≠ b.nextTask := Nat.ne_of_lt hlt
      exact .inl (by rw [leaves t, if_neg heq, if_neg hnext]; exact hw)

end Balancer

namespace Run

/-- The list whose change is detected in a step while the subscriber is registered for a mailbox, if any. -/
def detected? (r : Run α) (box : MailboxId) (n : Nat) : Option (List Endpoint) :=
  if (r.state n).resolver.subscriber = some box then r.news? n else none

/-- The changes that were detected before a step while the subscriber was registered for a mailbox. -/
def detected (r : Run α) (box : MailboxId) (n : Nat) : List (List Endpoint) := gather (r.detected? box) n

/-- The list that is told to a mailbox in a step, if any. -/
def told? (r : Run α) (box : MailboxId) (n : Nat) : Option (List Endpoint) :=
  (r.sent? n).bind (fun sent => if sent.1 = box then some sent.2 else none)

/-- The lists that were told to a mailbox before a step. -/
def told (r : Run α) (box : MailboxId) (n : Nat) : List (List Endpoint) := gather (r.told? box) n

/-- Whether the resolver forgets its subscriber in a step, at the end of a stop. -/
def Forgets (r : Run α) (n : Nat) : Prop :=
  ∃ t way rest, r.action n = .move t way ∧ (r.state n).works t = .forgetSubscriber :: rest

/-- Whether the resolver gets a mailbox for its subscriber in a step, at the end of a start. -/
def Registers (r : Run α) (box : MailboxId) (n : Nat) : Prop :=
  ∃ t way rest, r.action n = .move t way ∧ (r.state n).works t = .registerPoller box :: rest

section Detection

variable {r : Run α} {box : MailboxId} {n m : Nat}

/-! ## The subscriber -/

/-- The subscriber is the same after a step, or it was forgotten or registered. -/
theorem subscriber_succ (hr : r.Polls) (n : Nat) : (r.state (n + 1)).resolver.subscriber = (r.state n).resolver.subscriber ∨
    (r.state (n + 1)).resolver.subscriber = none ∨
      ∃ box, r.Registers box n ∧ (r.state (n + 1)).resolver.subscriber = some box := by
  have hstir := r.stir hr n
  generalize haction : r.action n = a at hstir
  generalize r.state (n + 1) = b' at hstir
  cases hstir with
  | resolution _ _ step => exact .inl step.subscriber_eq.1
  | @rearrange a t old new started _ _ works leaves hushed rearranges =>
    have hdesk : ∀ {desk : Desk}, b'.desk = desk → b'.resolver.subscriber = desk.subscriber := fun heq =>
      congrArg Desk.subscriber heq
    generalize heq : b'.desk = desk at rearranges
    cases rearranges with
    | register h => exact .inr (.inr ⟨_, ⟨_, _, _, haction, works⟩, hdesk heq⟩)
    | forget h => exact .inr (.inl (hdesk heq))
    | _ => exact .inl (hdesk heq)

theorem Forgets.subscriber (h : r.Forgets n) : (r.state (n + 1)).resolver.subscriber = none := by
  obtain ⟨t, way, rest, haction, hw⟩ := h
  rw [state, haction, Balancer.perform, Balancer.move, hw]
  rfl

/-- When the resolver gets a mailbox for its subscriber, that is its subscriber. -/
theorem Registers.subscriber (h : r.Registers box n) : (r.state (n + 1)).resolver.subscriber = some box := by
  obtain ⟨t, way, rest, haction, hw⟩ := h
  rw [state, haction, Balancer.perform, Balancer.move, hw]
  rfl

/-- Between a stop and the next start there is no subscriber. -/
theorem subscriber_of_forgets (hr : r.Polls) (h : r.Forgets m) (hmn : m < n)
    (hnone : ∀ j box, m < j → j < n → ¬r.Registers box j) : (r.state n).resolver.subscriber = none := by
  induction n, hmn using Nat.le_induction with
  | base => exact h.subscriber
  | succ n hmn ih =>
    have hn := ih (fun j box hj hlt => hnone j box hj (Nat.lt_succ_of_lt hlt))
    rcases subscriber_succ hr n with hsame | hforgotten | ⟨box, hregisters, _⟩
    · exact hsame.trans hn
    · exact hforgotten
    · exact absurd hregisters (hnone n box hmn (Nat.lt_succ_self n))

/-- A stop that has ended has gone through the step in which the resolver forgets its subscriber. -/
theorem forgets_of_stopResolver (hr : r.Polls) (hrequest : r.action n = .request .stopResolver) (hnm : n < m)
    (hover : (r.state m).outcome? (r.state n).nextTask ≠ none) : ∃ k, n < k ∧ k < m ∧ r.Forgets k := by
  have hstage : Balancer.Stops [] ((r.state m).works (r.state n).nextTask) ∨ ∃ k, n < k ∧ k < m ∧ r.Forgets k := by
    clear hover
    induction m, hnm using Nat.le_induction with
    | base =>
      have hstate : r.state (n + 1) = ((r.state n).request .stopResolver).1 := by
        rw [state, hrequest]
        rfl
      rw [hstate, Balancer.works_request, if_pos rfl]
      exact .inl .begins
    | succ m hnm ih =>
      rcases ih with hw | ⟨k, hnk, hkm, hforgets⟩
      · rcases (r.stir hr m).stops hw with hw' | ⟨way, haction, hw'⟩
        · exact .inl hw'
        · exact .inr ⟨m, hnm, Nat.lt_succ_self m, _, way, [], haction, hw'⟩
      · exact .inr ⟨k, hnk, Nat.lt_succ_of_lt hkm, hforgets⟩
  refine hstage.resolve_left (fun hw => ?_)
  obtain ⟨outcome, houtcome⟩ := Option.ne_none_iff_exists'.1 hover
  rw [Balancer.works_of_task? (task?_of_outcome? houtcome)] at hw
  cases hw

/-! ## What is told -/

/-- Where starts and stops follow each other, the subscriber changes only while no resolution is under way. -/
theorem steady (hr : r.Polls) (ha : r.KeepsApart) (n : Nat) :
    (r.state (n + 1)).resolver.subscriber = (r.state n).resolver.subscriber ∨ (r.state n).phase? = none :=
  (r.alternates hr ha n).subscriber_eq_or_free (r.gated hr n) (r.stir hr n)

/-- What is about to be told to a mailbox is told while the subscriber is registered for it, if the subscriber is not lost during a
resolution. -/
theorem sending_succ (hr : r.Polls)
    (hn : ∀ box endpoints, (r.state n).phase? = some (.sending box endpoints) → (r.state n).resolver.subscriber = some box)
    (hkept : ∀ box, (r.state n).resolver.subscriber = some box → (r.state n).phase? ≠ none →
      (r.state (n + 1)).resolver.subscriber = some box) :
    ∀ box endpoints, (r.state (n + 1)).phase? = some (.sending box endpoints) →
      (r.state (n + 1)).resolver.subscriber = some box := by
  intro box endpoints hphase
  have hshift := r.shift hr n
  generalize (r.state n).resolving? (r.action n) = moved at hshift
  have hnot : ∀ {q : ResolutionPhase}, (r.state (n + 1)).phase? = some q → q = .sending box endpoints := fun hq =>
    Option.some.inj (hq.symm.trans hphase)
  cases hshift with
  | quiet same _ =>
    rw [same] at hphase
    exact hkept box (hn box endpoints hphase) (fun h => by rw [h] at hphase; cases hphase)
  | ask _ after _ => cases hnot after
  | @hear _ _ answer _ _ _ after _ _ _ _ =>
    have heq := hnot after
    cases hchange : change? (r.state n).resolver.known answer <;> rw [hchange] at heq <;> cases heq
  | tell before subscriber after _ =>
    cases hnot after
    exact hkept box subscriber (fun h => by rw [h] at before; cases before)
  | keep _ _ after _ => cases hnot after
  | lose _ _ after _ => cases hnot after
  | put _ _ after _ _ _ _ => cases hnot after
  | conclude _ after _ =>
    rw [after] at hphase
    cases hphase

/-- Where starts and stops follow each other, what is about to be told is told to the subscriber. -/
theorem subscriber_of_sending (hr : r.Polls) (ha : r.KeepsApart) (n : Nat) : ∀ box endpoints,
    (r.state n).phase? = some (.sending box endpoints) → (r.state n).resolver.subscriber = some box := by
  induction n with
  | zero =>
    rw [r.phase?_zero hr]
    exact fun _ _ h => nomatch h
  | succ n ih =>
    refine sending_succ hr ih (fun box hsubscriber hbusy => ?_)
    rw [(steady hr ha n).resolve_right hbusy]
    exact hsubscriber

/-- A list is told by the resolution under way, which found the mailbox. -/
theorem phase?_of_sent? (hr : r.Polls) {endpoints : List Endpoint} (h : r.sent? n = some (box, endpoints)) :
    (r.state n).phase? = some (.sending box endpoints) := by
  have hshift := r.shift hr n
  rw [sent?, Balancer.sent?] at h
  generalize (r.state n).resolving? (r.action n) = moved at hshift h
  cases hshift with
  | lose before _ _ _ =>
    cases h
    exact before
  | put before _ _ _ _ _ _ =>
    cases h
    exact before
  | _ => cases h

/-- A step takes what was pending and what is detected in it to what is told in it and what is pending then. -/
theorem pendingFor_of_shift (box : MailboxId)
    (hshift : Balancer.Shift (r.state n) (r.state (n + 1)) ((r.state n).resolving? (r.action n)))
    (hkept : (r.state (n + 1)).resolver.subscriber = (r.state n).resolver.subscriber ∨ (r.state n).phase? = none) :
    (r.state n).pendingFor box ++ (r.detected? box n).toList =
      (r.told? box n).toList ++ (r.state (n + 1)).pendingFor box := by
  rw [detected?, news?, answer?, Balancer.answer?, told?, sent?, Balancer.sent?, Balancer.pendingFor, Balancer.pendingFor]
  generalize (r.state n).resolving? (r.action n) = moved at hshift ⊢
  cases hshift with
  | quiet same _ =>
    rw [same]
    rcases hphase : (r.state n).phase? with _ | phase
    · simp
    · rw [hkept.resolve_right (fun h => by rw [h] at hphase; cases hphase)]
      cases phase <;> simp
  | ask before after _ => simp [before, after]
  | @hear arrival result answer deadline before heard after _ _ _ _ =>
    rw [before, after, hkept.resolve_right (fun h => by rw [h] at before; cases before)]
    cases hchange : change? (r.state n).resolver.known answer with
    | none => simp [heard, hchange, ResolutionPhase.after]
    | some es =>
      by_cases hbox : (r.state n).resolver.subscriber = some box <;> simp [heard, hchange, hbox, ResolutionPhase.after]
  | tell before subscriber after _ => simp [before, subscriber, after]
  | keep before subscriber after _ => simp [before, subscriber, after]
  | @lose box' endpoints before _ after _ =>
    simp only [before, after]
    by_cases heq : box' = box <;> simp [heq]
  | @put box' endpoints before _ after _ _ _ _ =>
    simp only [before, after]
    by_cases heq : box' = box <;> simp [heq]
  | conclude before after _ => simp [before, after]

/-- What was detected while the subscriber was registered for a mailbox is what was told to the mailbox and what is about to be told
to it. -/
theorem told_append_pending (hr : r.Polls) (ha : r.KeepsApart) (box : MailboxId) (n : Nat) :
    r.detected box n = r.told box n ++ (r.state n).pendingFor box := by
  induction n with
  | zero =>
    rw [Balancer.pendingFor_of_free (r.phase?_zero hr)]
    rfl
  | succ n ih =>
    rw [detected, told, gather_succ, gather_succ, List.append_assoc, ← pendingFor_of_shift box (r.shift hr n) (steady hr ha n), ← List.append_assoc]
    exact congrArg (· ++ _) ih

theorem sent?_of_unsubscribed (hr : r.Polls) (ha : r.KeepsApart) (hnone : (r.state n).resolver.subscriber = none) :
    r.sent? n = none := by
  refine Option.eq_none_iff_forall_ne_some.2 (fun ⟨box, endpoints⟩ hsent => ?_)
  have hsome := subscriber_of_sending hr ha n box endpoints (phase?_of_sent? hr hsent)
  rw [hnone] at hsome
  cases hsome

/-- A mailbox loses lists only from its front, and gets at its end what it is told as long as anybody reads it. -/
theorem messages_of_shift (box : MailboxId)
    (hshift : Balancer.Shift (r.state n) (r.state (n + 1)) ((r.state n).resolving? (r.action n))) : ∃ k, (r.state (n + 1)).messages box =
    ((r.state n).messages box).drop k ++ if (r.state n).hasReceiver box then (r.told? box n).toList else [] := by
  rw [told?, sent?, Balancer.sent?]
  generalize (r.state n).resolving? (r.action n) = moved at hshift ⊢
  have hhushed : Balancer.Hushed (r.state n) (r.state (n + 1)) → ∃ k, (r.state (n + 1)).messages box =
      ((r.state n).messages box).drop k ++ [] := fun hushed => by
    obtain ⟨k, hk⟩ := hushed.messages box
    exact ⟨k, by rw [hk, List.append_nil]⟩
  cases hshift with
  | quiet _ hushed => simpa using hhushed hushed
  | ask _ _ hushed => simpa using hhushed hushed
  | hear _ _ _ _ _ _ messages => exact ⟨0, by simp [messages]⟩
  | tell _ _ _ hushed => simpa using hhushed hushed
  | keep _ _ _ hushed => simpa using hhushed hushed
  | @lose box' endpoints _ gone _ hushed =>
    obtain ⟨k, hk⟩ := hhushed hushed
    refine ⟨k, ?_⟩
    by_cases heq : box' = box
    · subst heq
      rw [hk, gone]
      rfl
    · simpa [heq] using hk
  | @put box' endpoints _ read _ _ _ _ messages =>
    refine ⟨0, ?_⟩
    by_cases heq : box' = box
    · subst heq
      rw [messages, if_pos rfl, read]
      simp
    · rw [messages, if_neg (Ne.symm heq)]
      simp [heq]
  | conclude _ _ hushed => simpa using hhushed hushed

/-! ## What is no change -/

/-- An answer is no change if it is an error, an empty list, or a list of the known members. -/
theorem news?_eq_none (hr : r.Polls) {answer : Except RouterError (List Endpoint)} (h : r.answer? n = some answer)
    (hsame : ∀ es, answer = .ok es → es = [] ∨ ∀ e, e ∈ es ↔ e ∈ (r.state n).resolver.known) : r.news? n = none := by
  rw [news?, h, Option.bind_some]
  unfold change? listOf?
  split
  · rename_i e es
    have hknown : Endpoint.normalize (e :: es) = (r.state n).resolver.known := by
      rw [← r.normalize_known hr n]
      exact Endpoint.normalize_congr ((hsame (e :: es) rfl).resolve_left (List.cons_ne_nil e es))
    rw [Option.filter_some, hknown, decide_eq_false (fun hne => hne rfl)]
    rfl
  · rfl

/-- While the subscriber is registered for a mailbox, two lists told to it one after the other differ. -/
theorem isChain_told (hr : r.Polls) (ha : r.KeepsApart) (hmn : m ≤ n)
    (hregistered : ∀ j, m ≤ j → j < n → (r.state j).resolver.subscriber = some box) :
    ∃ later, r.told box n = r.told box m ++ later ∧ later.IsChain (· ≠ ·) := by
  have hpending : ∀ j, ∀ es ∈ ((r.state j).pendingFor box).getLast?, es = (r.state j).resolver.known := by
    intro j es hes
    obtain ⟨phase, hphase, hpending⟩ := Balancer.mem_pendingFor (List.mem_of_getLast? hes)
    exact r.pending_eq hr j phase hphase es hpending
  have hchain : ∃ later, r.told box n = r.told box m ++ later ∧ (later ++ (r.state n).pendingFor box).IsChain (· ≠ ·) ∧
      ∀ es ∈ (later ++ (r.state n).pendingFor box).getLast?, es = (r.state n).resolver.known := by
    induction n, hmn using Nat.le_induction with
    | base =>
      refine ⟨[], (List.append_nil _).symm, ?_, hpending m⟩
      have hfew := (r.state m).length_pendingFor_le box
      rw [List.nil_append]
      generalize (r.state m).pendingFor box = pending at hfew ⊢
      rcases pending with _ | ⟨es, _ | ⟨es', others⟩⟩
      · exact .nil
      · exact .singleton es
      · exact absurd hfew (by simp)
    | succ n hmn ih =>
      obtain ⟨later, htold, hchain, hlast⟩ := ih (fun j hj hlt => hregistered j hj (Nat.lt_succ_of_lt hlt))
      have hdetected : r.detected? box n = r.news? n := if_pos (hregistered n hmn (Nat.lt_succ_self n))
      refine ⟨later ++ (r.told? box n).toList, ?_, ?_⟩
      · rw [told, gather_succ, ← List.append_assoc, ← htold]
        rfl
      · rw [List.append_assoc, ← pendingFor_of_shift box (r.shift hr n) (steady hr ha n), ← List.append_assoc, hdetected, (r.hears hr n).known]
        rcases hnews : r.news? n with _ | es
        · rw [Option.toList_none, List.append_nil]
          exact ⟨hchain, hlast⟩
        · obtain ⟨answer, _, hchange⟩ := Option.bind_eq_some_iff.1 hnews
          refine ⟨hchain.append (.singleton es) (fun x hx y hy => ?_), fun x hx => ?_⟩
          · obtain rfl := Option.some.inj hy
            rw [hlast x hx]
            exact (change?_eq_some hchange).2
          · rw [Option.toList_some, List.getLast?_append] at hx
            exact (Option.some.inj hx).symm
  obtain ⟨later, htold, hchain, _⟩ := hchain
  exact ⟨later, htold, hchain.left_of_append⟩

end Detection

/-! ## The whole run -/

/-- What a polling resolver does in a run. -/
structure Detects (r : Run α) : Prop where
  /-- It knows the normal form of the last answer that was a list with a member, and nothing before the first. -/
  known : ∀ n, (r.state n).resolver.known = ((r.answers n).filterMap listOf?).getLast?.getD []
  kept : ∀ m n, m ≤ n → (r.state m).resolver.known ≠ [] → (r.state n).resolver.known ≠ []
  /-- A resolution that was asked for gives nothing but the list that is known when it ends. -/
  resolved : ∀ n m outcome, r.action n = .request .resolve → n < m → (r.state m).outcome? (r.state n).nextTask = some outcome →
    ∃ k, n < k ∧ k < m ∧ r.Ends (r.state n).nextTask [] k ∧ outcome = .resolved (r.state k).resolver.known
  /-- It does end, if the run is fair. -/
  returns : r.Fair → ∀ n, r.action n = .request .resolve →
    ∃ m endpoints, n < m ∧ (r.state m).outcome? (r.state n).nextTask = some (.resolved endpoints)
  steady : ∀ n, (r.state n).phase? ≠ none → (r.state (n + 1)).resolver.subscriber = (r.state n).resolver.subscriber
  /-- What is told to a mailbox, with what is about to be told, are the changes detected while the subscriber was registered for it. -/
  told : ∀ box n, r.detected box n = r.told box n ++ (r.state n).pendingFor box
  /-- What is told to a mailbox comes to its end, as long as anybody reads it, and nothing else does. -/
  put : ∀ box n, ∃ k, (r.state (n + 1)).messages box =
    ((r.state n).messages box).drop k ++ if (r.state n).hasReceiver box then (r.told? box n).toList else []
  /-- A failure, an empty answer, and the known members in another order or more than once are no change. -/
  unmoved : ∀ n answer, r.answer? n = some answer →
    (∀ es, answer = .ok es → es = [] ∨ ∀ e, e ∈ es ↔ e ∈ (r.state n).resolver.known) → r.news? n = none
  /-- During the resolution of a start there is no subscriber. -/
  baseline : ∀ n t phase box rest, (r.state n).works t = .resolution phase :: .registerPoller box :: rest →
    (r.state n).resolver.subscriber = none
  /-- Lists that are told one after the other while the subscriber is registered for a mailbox differ. -/
  differ : ∀ box m n, m ≤ n → (∀ j, m ≤ j → j < n → (r.state j).resolver.subscriber = some box) →
    ∃ later, r.told box n = r.told box m ++ later ∧ later.IsChain (· ≠ ·)
  /-- At the end of a stop the resolver has forgotten its subscriber. -/
  stopped : ∀ n m, r.action n = .request .stopResolver → n < m → (r.state m).outcome? (r.state n).nextTask ≠ none →
    ∃ k, n < k ∧ k < m ∧ r.Forgets k
  silent : ∀ m n, r.Forgets m → m < n → (∀ j box, m < j → j < n → ¬r.Registers box j) → r.sent? n = none
  /-- Every answer is counted once, as a list with a member or as a failure. -/
  counted : ∀ success n, (r.state n).metrics.resolutions r.resolver.name success =
    (r.answers n).countP (fun answer => success == succeeds answer)
  once : ∀ n, (r.answers n).length = r.concluded n + if (r.state n).phase?.any ResolutionPhase.hasHeard then 1 else 0

/-- A polling resolver keeps the last list, and tells its subscriber every change of it. -/
theorem detects (r : Run α) (hr : r.Polls) (ha : r.KeepsApart) : r.Detects where
  known := r.known_eq hr
  kept := fun _ _ => r.known_ne_nil hr
  resolved := fun n m outcome hrequest hnm houtcome => by
    rcases resolves_of_lt hr hrequest hnm with ⟨phase, hw⟩ | ⟨k, hnk, hkm, hends, houtcome'⟩
    · rw [Balancer.works_of_task? (task?_of_outcome? houtcome)] at hw
      cases hw
    · exact ⟨k, hnk, hkm, hends, Option.some.inj (houtcome.symm.trans houtcome')⟩
  returns := fun hf _ hrequest => hf.returns hr hrequest
  steady := fun n hbusy => (steady hr ha n).resolve_right hbusy
  told := told_append_pending hr ha
  put := fun box n => messages_of_shift box (r.shift hr n)
  unmoved := fun _ _ => news?_eq_none hr
  baseline := fun n t phase box rest hw =>
    ((r.alternates hr ha n).unregistered t (by rw [Balancer.role, hw]; rfl)).2
  differ := fun _ _ _ => isChain_told hr ha
  stopped := fun _ _ => forgets_of_stopResolver hr
  silent := fun _ _ hforgets hmn hnone => sent?_of_unsubscribed hr ha (subscriber_of_forgets hr hforgets hmn hnone)
  counted := r.resolutions_eq hr
  once := r.length_answers hr

/-- A run of a resolver that is started for a mailbox and is then asked for a resolution, which finds another endpoint. There is no time
between the polls, so that they end at once. Afterwards time goes on, and every task is tried again and again. -/
def exchanged : Run Unit where
  options := ⟨⟨1, .ofSeconds 30, .ofSeconds 30⟩, none, none⟩
  adapter := ⟨.logs, fun _ _ => none⟩
  resolver := .polling (.listing "list" [.immediate (.ok [⟨"a"⟩]), .immediate (.ok [⟨"b"⟩])]) (.ofSeconds 0) (.ofSeconds 1)
  backends := ⟨[]⟩
  action := fun n =>
    if n = 0 then .openInbox 4
    else if n = 1 then .request (.startResolver 0)
    else if n < 8 then .move 0 0
    else if n = 8 then .move 1 0
    else if n = 9 then .request .resolve
    else if n < 15 then .move 2 0
    else if n % 2 = 0 then .advance n
    else .move (Nat.unpair (Nat.unpair (n / 2)).1).1 (Nat.unpair (Nat.unpair (n / 2)).1).2

theorem action_exchanged {n : Nat} (h : 15 ≤ n) : exchanged.action n =
    if n % 2 = 0 then .advance n else .move (Nat.unpair (Nat.unpair (n / 2)).1).1 (Nat.unpair (Nat.unpair (n / 2)).1).2 := by
  have h0 : n ≠ 0 := by omega
  have h1 : n ≠ 1 := by omega
  have h8 : ¬ n < 8 := by omega
  have h8' : n ≠ 8 := by omega
  have h9 : n ≠ 9 := by omega
  have h15 : ¬ n < 15 := by omega
  simp [exchanged, h0, h1, h8, h8', h9, h15]

theorem works_of_all_isOver {b : Balancer α} (h : b.tasks.all Task.isOver = true) (t : TaskId) : b.works t = [] := by
  rw [Balancer.works, Balancer.task?]
  rcases htask : b.tasks[t]? with _ | task
  · rfl
  · have hover := List.all_eq_true.1 h task (List.mem_of_getElem? htask)
    simpa [Task.isOver] using hover

theorem isOver_exchanged {n : Nat} (h : 15 ≤ n) : (exchanged.state n).tasks.all Task.isOver = true := by
  induction n, h using Nat.le_induction with
  | base => decide +kernel
  | succ n h ih =>
    rw [state, action_exchanged h]
    split
    · exact ih
    · rw [Balancer.perform, Balancer.move, works_of_all_isOver ih]
      exact ih

theorem serves_exchanged (t : TaskId) : exchanged.Serves t where
  moves := by
    intro n way
    have hle : n + 15 ≤ Nat.pair (Nat.pair t way) (n + 15) := Nat.right_le_pair _ _
    refine ⟨2 * Nat.pair (Nat.pair t way) (n + 15) + 1, by omega, ?_⟩
    have hmod : (2 * Nat.pair (Nat.pair t way) (n + 15) + 1) % 2 = 1 := by omega
    have hdiv : (2 * Nat.pair (Nat.pair t way) (n + 15) + 1) / 2 = Nat.pair (Nat.pair t way) (n + 15) := by omega
    rw [action_exchanged (by omega)]
    simp [hmod, hdiv]
  time := by
    intro tick
    refine ⟨2 * tick + 16 + 1, ?_⟩
    have hadvance : exchanged.action (2 * tick + 16) = .advance (2 * tick + 16) := by
      rw [action_exchanged (by omega), if_pos (by omega)]
    rw [state, hadvance]
    show tick ≤ max _ (2 * tick + 16)
    omega
  kept := by
    intro n h
    unfold exchanged at h
    dsimp only at h
    repeat' split at h
    all_goals cases h

/-- The mailbox to which a task with a resolution is about to send a list. -/
def sendsTo? : List (Work α) → Option MailboxId
  | .resolution (.sending box _) :: _ => some box
  | _ => none

theorem sends_exchanged {n : Nat} {t : TaskId} {box : MailboxId} (h : sendsTo? ((exchanged.state n).works t) = some box) :
    n = 13 ∧ t = 2 ∧ box = 0 := by
  have hlt : n < 15 := by
    by_contra hle
    rw [works_of_all_isOver (isOver_exchanged (Nat.le_of_not_lt hle))] at h
    cases h
  have ht : t < 3 := by
    by_contra hle
    have hfew : ∀ n < 15, (exchanged.state n).tasks.length ≤ 3 := by decide +kernel
    rw [Balancer.works_of_le (Nat.le_trans (hfew n hlt) (Nat.le_of_not_lt hle))] at h
    cases h
  have hsends : ∀ n < 15, ∀ t < 3, sendsTo? ((exchanged.state n).works t) = if n = 13 ∧ t = 2 then some 0 else none := by
    decide +kernel
  rw [hsends n hlt t ht] at h
  split at h
  · rename_i hwhen
    exact ⟨hwhen.1, hwhen.2, (Option.some.inj h).symm⟩
  · cases h

/-- That run is fair: the only list that is sent finds room at once. -/
theorem fair_exchanged : exchanged.Fair where
  served := fun _ t _ _ _ => serves_exchanged t
  room := by
    intro n t box endpoints rest hw
    refine ⟨0, fun m _ _ hsame => .inr ?_⟩
    obtain ⟨rfl, rfl, rfl⟩ : m = 13 ∧ t = 2 ∧ box = 0 := sends_exchanged (by rw [hsame, hw]; rfl)
    decide +kernel

/-- In that run the new list is told to the mailbox, and the first one is not. -/
theorem detects_exchanged : exchanged.Polls ∧ exchanged.KeepsApart ∧ exchanged.Fair ∧
    exchanged.told 0 15 = [[⟨"b"⟩]] ∧ (exchanged.state 15).messages 0 = [[⟨"b"⟩]] ∧ exchanged.Detects := by
  have hpolls : exchanged.Polls := by
    refine ⟨⟨_, _, _, rfl⟩, fun n => ?_⟩
    generalize haction : exchanged.action n = a
    unfold exchanged at haction
    dsimp only at haction
    repeat' split at haction
    all_goals
      subst haction
      trivial
  have hapart : exchanged.KeepsApart := by
    intro n
    by_cases hover : (exchanged.state n).tasks.all Task.isOver = true
    · have hidle : ∀ t, (exchanged.state n).role t = .idle := fun t => by
        rw [Balancer.role, works_of_all_isOver hover]
        rfl
      exact ⟨fun _ _ _ t => by rw [hidle t]; exact ⟨by decide, rfl⟩, fun _ t => by rw [hidle t]; rfl⟩
    · have hnone : ∀ request, exchanged.action n ≠ .request request := by
        intro request h
        have hstart : (exchanged.state 1).tasks.all Task.isOver = true := by decide +kernel
        have hresolve : (exchanged.state 9).tasks.all Task.isOver = true := by decide +kernel
        unfold exchanged at h
        dsimp only at h
        split at h
        · cases h
        split at h
        · rename_i heq
          exact hover (heq ▸ hstart)
        split at h
        · cases h
        split at h
        · cases h
        split at h
        · rename_i heq
          exact hover (heq ▸ hresolve)
        repeat' split at h
        all_goals cases h
      exact ⟨fun request h => absurd h (hnone request), fun h => absurd h (hnone _)⟩
  exact ⟨hpolls, hapart, fair_exchanged, by decide +kernel, by decide +kernel, exchanged.detects hpolls hapart⟩

end Run

end TelemetryRouter
