import TelemetryRouter.Proofs.Errands

/-!
# No update is lost on the way to the ring

Every change that is detected after the balancer's mailbox was registered comes to the ring, in the order of detection: it waits to be told,
then in the mailbox, and then the background task publishes its ring. The last list on this way is the one the resolver knows, or there is
none and the ring is the one of that list: when the mailbox is registered the first list is still to be read, and it is read only then. So
once nothing is on its way the ring has the members that the resolver knows.
-/

namespace TelemetryRouter

variable {α : Type}

namespace Balancer

/-- The lists on their way to the balancer: those in its mailbox, and the one that is about to be told to it, if any. -/
def queue (b : Balancer α) (box : MailboxId) : List (List Endpoint) := b.messages box ++ b.pendingFor box

/-- Whether a mailbox is there and is not read from outside. -/
def IsPrivate (b : Balancer α) (box : MailboxId) : Prop := box ∉ b.inboxes ∧ box < b.mailboxes.length

/-- What holds when an errand has come so far. Until the mailbox is registered nothing can be in it. From then on the last list on its way
is known, and once there is a ring for the first list, the last of them with that ring, or the ring that is brought, is. The background
task ends only if there is no time between its regular passes. -/
def OnCourse (b : Balancer α) (t : TaskId) : Errand → Prop
  | .idle => b.background = none ∧ b.resolver.subscriber = none ∧ b.resolver.poller = none
  | .begins => b.background = none ∧ b.resolver.subscriber = none ∧ b.resolver.poller = none
  | .registers box => (b.background = none ∧ b.resolver.subscriber = none ∧ b.resolver.poller = none) ∧ b.IsPrivate box ∧
      b.messages box = []
  | .reads box => b.background = none ∧ b.resolver.subscriber = some box ∧ b.IsPrivate box ∧
      (b.queue box).getLast?.getD b.resolver.known = b.resolver.known
  | .applies box brings launched => b.background = (if launched then some t else none) ∧ b.resolver.subscriber = some box ∧
      b.IsPrivate box ∧ (b.queue box).getLast?.getD (brings.getD b.ring).endpoints = b.resolver.known
  | .ended => b.background ≠ none ∧ b.resolver.subscriber ≠ none ∧ b.options.settings.reconcileInterval.isZero = true

section Course

variable {b b' : Balancer α} {t t' : TaskId} {box : MailboxId} {a : Action α}

/-- A task with works that take lists out of a mailbox keeps the mailbox read. -/
theorem hasReceiver_of_works {w : Work α} (hw : w ∈ b.works t) (hreceives : receives box w = true) : b.hasReceiver box = true := by
  rw [works] at hw
  rcases htask : b.task? t with _ | task
  · rw [htask] at hw
    cases hw
  · rw [htask] at hw
    rw [hasReceiver, Bool.or_eq_true, List.any_eq_true]
    exact .inr ⟨task, List.mem_of_getElem? htask, List.any_eq_true.2 ⟨w, hw, hreceives⟩⟩

/-- From the registration to the end of the background task, its mailbox is read. -/
theorem hasReceiver_of_onErrand {errand : Errand} (h : OnErrand (b.works t) errand)
    (herrand : errand = .reads box ∨ ∃ brings launched, errand = .applies box brings launched) : b.hasReceiver box = true := by
  generalize hws : b.works t = ws at h
  have hof : ∀ w ∈ ws, receives box w = true → b.hasReceiver box = true := fun w hw => hasReceiver_of_works (hws ▸ hw)
  rcases herrand with rfl | ⟨brings, launched, rfl⟩
  · cases h with
    | reads => exact hof (.launchConsumer box) (by simp) (by simp [receives])
  · cases h with
    | first => exact hof (.launchConsumer box) (by simp) (by simp [receives])
    | launches => exact hof (.launchConsumer box) (by simp) (by simp [receives])
    | @pass _ _ ticker isOpen => exact hof (.consume box ticker isOpen) (by simp) (by simp [receives])
    | @consumes _ ticker isOpen => exact hof (.consume box ticker isOpen) (by simp) (by simp [receives])

theorem IsPrivate.mail (h : b.IsPrivate box) (hmail : SameMail b b' a) : b'.IsPrivate box := by
  refine ⟨fun hin => ?_, Nat.lt_of_lt_of_le h.2 hmail.grows⟩
  rcases hmail.inboxes box hin with hin | ⟨heq, _⟩
  · exact h.1 hin
  · exact Nat.lt_irrefl _ (heq ▸ h.2)

/-- A new last list takes the place of what was known before. -/
theorem getLast?_append_toList (lists : List (List Endpoint)) (news : Option (List Endpoint)) (first : List Endpoint) :
    (lists ++ news.toList).getLast?.getD first = news.getD (lists.getLast?.getD first) := by
  cases news with
  | none => rw [Option.toList_none, List.append_nil, Option.getD_none]
  | some es => rw [Option.toList_some, List.getLast?_concat, Option.getD_some, Option.getD_some]

end Course

end Balancer

namespace Run

/-- The list that is applied in a step, if any: the background task publishes its ring. -/
def applied? (r : Run α) (n : Nat) : Option (List Endpoint) :=
  match r.action n with
  | .move t way =>
    if (r.state n).background = some t then ((r.state n).publishes? (.move t way)).map Ring.endpoints else none
  | _ => none

/-- The lists that were applied before a step. -/
def applied (r : Run α) (n : Nat) : List (List Endpoint) := gather r.applied? n

/-- Whether a run is one of a balancer with a polling resolver that is started once at most, whose ring is left to its start and its
background task. -/
structure StartsOnce (r : Run α) : Prop where
  polls : r.Polls
  once : ∀ m n, r.action m = .request .start → r.action n = .request .start → m = n
  leaves : ∀ n, (r.state n).LeavesRing (r.action n)

/-- How far the errand of the balancer is in a state of a run. -/
structure Fed (r : Run α) (n : Nat) (t : TaskId) (errand : Errand) : Prop where
  errands : (r.state n).HasErrand t errand
  course : (r.state n).OnCourse t errand
  inboxes : ∀ x ∈ (r.state n).inboxes, x < (r.state n).mailboxes.length
  sending : ∀ box endpoints, (r.state n).phase? = some (.sending box endpoints) → (r.state n).resolver.subscriber = some box
  requested : errand ≠ .idle → ∃ k < n, r.action k = .request .start
  started : ∀ k < n, r.action k = .request .start → (r.state n).background = none → t = (r.state k).nextTask ∧ errand ≠ .idle
  unapplied : (r.state n).background = none → r.applied n = []
  unasked : (r.state n).stopRequests = []

section Updates

variable {r : Run α} {n : Nat} {t t' : TaskId} {box : MailboxId} {errand errand' : Errand}

/-! ## The way of a list -/

/-- A ring that the background task publishes is applied. -/
theorem applied?_of_publishes {way : Nat} {ring : Ring} (haction : r.action n = .move t way)
    (hbackground : (r.state n).background = some t) (hpublished : (r.state n).publishes? (r.action n) = some ring) :
    r.applied? n = some ring.endpoints := by
  rw [haction] at hpublished
  rw [applied?, haction]
  dsimp only
  rw [if_pos hbackground, hpublished, Option.map_some]

/-- Nothing is applied where no ring is published, and there is no background task before it is launched. -/
theorem applied?_eq_none (h : (r.state n).publishes? (r.action n) = none ∨ (r.state n).background = none) : r.applied? n = none := by
  unfold applied?
  split
  · rename_i t way haction
    rw [haction] at h
    split
    · rename_i hbackground
      rw [h.resolve_right (fun h => by rw [h] at hbackground; cases hbackground)]
      rfl
    · rfl
  · rfl

/-- A private mailbox that is read gets at its end what it is told. -/
theorem messages_of_sameMail (hr : r.Polls) (hbox : box ∉ (r.state n).inboxes) (hread : (r.state n).hasReceiver box = true)
    (hmail : Balancer.SameMail (r.state n) (r.state (n + 1)) (r.action n)) :
    (r.state (n + 1)).messages box = (r.state n).messages box ++ (r.told? box n).toList := by
  have hshift := r.shift hr n
  by_cases hsends : ∃ endpoints, (r.state n).resolving? (r.action n) = some (.sending box endpoints)
  · obtain ⟨endpoints, hresolving⟩ := hsends
    have htold : r.told? box n = some endpoints := by
      rw [told?, sent?, Balancer.sent?, hresolving]
      exact if_pos rfl
    rw [hresolving] at hshift
    cases hshift with
    | lose _ gone _ _ =>
      rw [hread] at gone
      cases gone
    | put _ _ _ _ _ _ messages => rw [messages, if_pos rfl, htold, Option.toList_some]
  · have htold : r.told? box n = none := by
      refine Option.eq_none_iff_forall_ne_some.2 (fun endpoints htold => hsends ⟨endpoints, ?_⟩)
      obtain ⟨⟨box', endpoints'⟩, hsent, heq⟩ := Option.bind_eq_some_iff.1 htold
      obtain ⟨phase, hphase, hsent⟩ := Option.bind_eq_some_iff.1 hsent
      cases phase with
      | sending x es =>
        cases hsent
        dsimp only at heq
        split at heq
        · rename_i hx
          rw [hphase, ← Option.some.inj heq, hx]
        · cases heq
      | _ => cases hsent
    rw [htold, Option.toList_none, List.append_nil]
    exact hmail.messages box hbox (fun endpoints h => hsends ⟨endpoints, h⟩)

theorem news?_of_resolving (h : (r.state n).resolving? (r.action n) = none) : r.news? n = none := by
  rw [news?, answer?, Balancer.answer?, h]
  rfl

/-- What is taken out of the mailbox was the first on its way. -/
theorem queue_of_take (hr : r.Polls) {endpoints : List Endpoint}
    (hkept : (r.state (n + 1)).resolver.subscriber = (r.state n).resolver.subscriber)
    (hmessages : (r.state n).messages box = endpoints :: (r.state (n + 1)).messages box)
    (hresolving : (r.state n).resolving? (r.action n) = none) :
    (r.state n).queue box = endpoints :: (r.state (n + 1)).queue box := by
  have hdetected : r.detected? box n = none := by
    rw [detected?, news?_of_resolving hresolving, ite_self]
  have htold : r.told? box n = none := by
    rw [told?, sent?, Balancer.sent?, hresolving]
    rfl
  have hpending := pendingFor_of_shift box (r.shift hr n) (.inl hkept)
  rw [hdetected, htold, Option.toList_none, List.append_nil, List.nil_append] at hpending
  rw [Balancer.queue, Balancer.queue, hmessages, hpending]
  rfl

/-! ## Steps -/

theorem Fed.not_sending (hr : r.Polls) (hf : r.Fed n t errand) (hnone : (r.state n).resolver.subscriber = none) (box : MailboxId)
    (endpoints : List Endpoint) : (r.state n).resolving? (r.action n) ≠ some (.sending box endpoints) := by
  intro hresolving
  have hsent : r.sent? n = some (box, endpoints) := by
    rw [sent?, Balancer.sent?, hresolving]
    rfl
  have hsome := hf.sending box endpoints (phase?_of_sent? hr hsent)
  rw [hnone] at hsome
  cases hsome

theorem messages_of_le {b : Balancer α} (h : b.mailboxes.length ≤ box) : b.messages box = [] := by
  rw [Balancer.messages, List.getElem?_eq_none h]
  rfl

/-- While the mailbox is read, what is detected comes last on the way to it. -/
theorem Fed.queue_succ (hr : r.Polls) (hf : r.Fed n t errand)
    (herrand : errand = .reads box ∨ ∃ brings launched, errand = .applies box brings launched)
    (hkept : (r.state (n + 1)).resolver.subscriber = (r.state n).resolver.subscriber)
    (hmail : Balancer.SameMail (r.state n) (r.state (n + 1)) (r.action n)) :
    (r.state (n + 1)).queue box = (r.state n).queue box ++ (r.news? n).toList := by
  have hread := Balancer.hasReceiver_of_onErrand hf.errands.self herrand
  have hplaced : (r.state n).resolver.subscriber = some box ∧ (r.state n).IsPrivate box := by
    have hcourse := hf.course
    rcases herrand with rfl | ⟨brings, launched, rfl⟩
    · exact ⟨hcourse.2.1, hcourse.2.2.1⟩
    · exact ⟨hcourse.2.1, hcourse.2.2.1⟩
  have hdetected : r.detected? box n = r.news? n := if_pos hplaced.1
  rw [Balancer.queue, messages_of_sameMail hr hplaced.2.1 hread hmail, List.append_assoc, ← pendingFor_of_shift box (r.shift hr n) (.inl hkept),
    ← List.append_assoc, hdetected]
  rfl

/-- With what is detected, the last list on its way is known again. -/
theorem Fed.current_succ (hr : r.Polls) (hf : r.Fed n t errand)
    (herrand : errand = .reads box ∨ ∃ brings launched, errand = .applies box brings launched)
    (hkept : (r.state (n + 1)).resolver.subscriber = (r.state n).resolver.subscriber)
    (hmail : Balancer.SameMail (r.state n) (r.state (n + 1)) (r.action n)) {first : List Endpoint}
    (hcurrent : ((r.state n).queue box).getLast?.getD first = (r.state n).resolver.known) :
    ((r.state (n + 1)).queue box).getLast?.getD first = (r.state (n + 1)).resolver.known := by
  rw [hf.queue_succ hr herrand hkept hmail, Balancer.getLast?_append_toList, hcurrent, (r.hears hr n).known]

/-- What holds of an errand holds as long as it has come no further. -/
theorem Fed.course_stay (hr : r.Polls) (hf : r.Fed n t errand) (hboard : (r.state (n + 1)).board = (r.state n).board)
    (mail : Balancer.SameMail (r.state n) (r.state (n + 1)) (r.action n)) : (r.state (n + 1)).OnCourse t errand := by
  have hcourse := hf.course
  have hbackground : (r.state (n + 1)).background = (r.state n).background := congrArg Board.background hboard
  have hsubscriber : (r.state (n + 1)).resolver.subscriber = (r.state n).resolver.subscriber := congrArg Board.subscriber hboard
  have hpoller : (r.state (n + 1)).resolver.poller = (r.state n).resolver.poller := congrArg Board.poller hboard
  cases errand with
  | idle => exact ⟨hbackground.trans hcourse.1, hsubscriber.trans hcourse.2.1, hpoller.trans hcourse.2.2⟩
  | begins => exact ⟨hbackground.trans hcourse.1, hsubscriber.trans hcourse.2.1, hpoller.trans hcourse.2.2⟩
  | registers box =>
    obtain ⟨⟨hnone, hunsubscribed, hunpolled⟩, hprivate, hempty⟩ := hcourse
    refine ⟨⟨hbackground.trans hnone, hsubscriber.trans hunsubscribed, hpoller.trans hunpolled⟩, hprivate.mail mail, ?_⟩
    rw [mail.messages box hprivate.1 (hf.not_sending hr hunsubscribed box), hempty]
  | reads box =>
    obtain ⟨hnone, hsubscribed, hprivate, hcurrent⟩ := hcourse
    refine ⟨hbackground.trans hnone, hsubscriber.trans hsubscribed, hprivate.mail mail, ?_⟩
    rw [hf.queue_succ hr (.inl rfl) hsubscriber mail, (r.hears hr n).known, Balancer.getLast?_append_toList]
    cases r.news? n with
    | none => exact hcurrent
    | some es => rfl
  | applies box brings launched =>
    obtain ⟨hback, hsubscribed, hprivate, hcurrent⟩ := hcourse
    refine ⟨hbackground.trans hback, hsubscriber.trans hsubscribed, hprivate.mail mail, ?_⟩
    have hring : (r.state (n + 1)).ring = (r.state n).ring := congrArg Board.ring hboard
    rw [hring]
    exact hf.current_succ hr (.inr ⟨_, _, rfl⟩) hsubscriber mail hcurrent
  | ended =>
    have hoptions : (r.state (n + 1)).options = (r.state n).options := (r.options_state (n + 1)).trans (r.options_state n).symm
    exact ⟨fun h => hcourse.1 (hbackground.symm.trans h), fun h => hcourse.2.1 (hsubscriber.symm.trans h), hoptions ▸ hcourse.2.2⟩

/-- After the registration only a list that is about to be told is on its way, and that is known. -/
theorem Fed.queue_register (hr : r.Polls) (hf : r.Fed n t (.registers box))
    (mail : Balancer.SameMail (r.state n) (r.state (n + 1)) (r.action n)) :
    ((r.state (n + 1)).queue box).getLast?.getD (r.state (n + 1)).resolver.known = (r.state (n + 1)).resolver.known := by
  obtain ⟨⟨_, hunsubscribed, _⟩, hprivate, hempty⟩ := hf.course
  rw [Balancer.queue, mail.messages box hprivate.1 (hf.not_sending hr hunsubscribed box), hempty, List.nil_append]
  rcases hpending : ((r.state (n + 1)).pendingFor box).getLast? with _ | es
  · rfl
  · obtain ⟨phase, hphase, hes⟩ := Balancer.mem_pendingFor (List.mem_of_getLast? hpending)
    exact r.pending_eq hr (n + 1) phase hphase es hes

/-- When a list is taken out of the mailbox, the last list on its way is the known one, or else the one that was taken. -/
theorem queue_take (hr : r.Polls) {endpoints first : List Endpoint}
    (hkept : (r.state (n + 1)).resolver.subscriber = (r.state n).resolver.subscriber)
    (hmessages : (r.state n).messages box = endpoints :: (r.state (n + 1)).messages box)
    (hresolving : (r.state n).resolving? (r.action n) = none)
    (hcurrent : ((r.state n).queue box).getLast?.getD first = (r.state n).resolver.known) :
    ((r.state (n + 1)).queue box).getLast?.getD (Endpoint.normalize endpoints) = (r.state (n + 1)).resolver.known := by
  rw [queue_of_take hr hkept hmessages hresolving] at hcurrent
  rw [(r.hears hr n).known, news?_of_resolving hresolving, Option.getD_none, ← hcurrent]
  rcases hqueue : (r.state (n + 1)).queue box with _ | ⟨next, others⟩
  · rw [hqueue, List.getLast?_singleton, Option.getD_some] at hcurrent
    rw [List.getLast?_nil, List.getLast?_singleton, Option.getD_none, Option.getD_some, hcurrent, r.normalize_known hr n]
  · rw [List.getLast?_cons_cons]
    rfl

theorem Fed.course_succ (hr : r.Polls) (hf : r.Fed n t errand)
    (hc : Balancer.Carries (r.state n) (r.state (n + 1)) (r.action n) t errand t' errand' (r.state (n + 1)).board
      ((r.state n).publishes? (r.action n))) : (r.state (n + 1)).OnCourse t' errand' := by
  have hcourse := hf.course
  generalize hboard : (r.state (n + 1)).board = board at hc
  generalize (r.state n).publishes? (r.action n) = published at hc
  have hdisplay : (r.state (n + 1)).ring = board.ring ∧ (r.state (n + 1)).background = board.background ∧
      (r.state (n + 1)).resolver.subscriber = board.subscriber ∧ (r.state (n + 1)).resolver.poller = board.poller :=
    ⟨congrArg Board.ring hboard, congrArg Board.background hboard, congrArg Board.subscriber hboard, congrArg Board.poller hboard⟩
  obtain ⟨hring, hbackground, hsubscriber, hpoller⟩ := hdisplay
  cases hc with
  | stay mail => exact hf.course_stay hr hboard mail
  | request _ _ => exact ⟨hbackground.trans hcourse.1, hsubscriber.trans hcourse.2.1, hpoller.trans hcourse.2.2⟩
  | opens opened inboxes mail =>
    have hout : (r.state n).nextMailbox ∉ (r.state n).inboxes := fun hin => Nat.lt_irrefl _ (hf.inboxes _ hin)
    refine ⟨⟨hbackground.trans hcourse.1, hsubscriber.trans hcourse.2.1, hpoller.trans hcourse.2.2⟩, ⟨?_, opened⟩, ?_⟩
    · rw [inboxes]
      exact hout
    · rw [mail.messages _ hout (hf.not_sending hr hcourse.2.1 _)]
      exact messages_of_le (Nat.le_refl _)
  | @register box mail =>
    obtain ⟨⟨hnone, _, _⟩, hprivate, _⟩ := hcourse
    exact ⟨hbackground.trans hnone, hsubscriber, hprivate.mail mail, hf.queue_register hr mail⟩
  | @read box mail =>
    obtain ⟨hnone, hsubscribed, hprivate, hcurrent⟩ := hcourse
    refine ⟨hbackground.trans hnone, hsubscriber.trans hsubscribed, hprivate.mail mail, ?_⟩
    show ((r.state (n + 1)).queue box).getLast?.getD (Endpoint.normalize (r.state n).resolver.known) = _
    rw [r.normalize_known hr n]
    exact hf.current_succ hr (.inl rfl) hsubscriber mail hcurrent
  | @publish box ring launched _ mail =>
    obtain ⟨hback, hsubscribed, hprivate, hcurrent⟩ := hcourse
    refine ⟨hbackground.trans hback, hsubscriber.trans hsubscribed, hprivate.mail mail, ?_⟩
    rw [hring]
    exact hf.current_succ hr (.inr ⟨_, _, rfl⟩) hsubscriber mail hcurrent
  | @launch box mail =>
    obtain ⟨_, hsubscribed, hprivate, hcurrent⟩ := hcourse
    refine ⟨hbackground, hsubscriber.trans hsubscribed, hprivate.mail mail, ?_⟩
    rw [hring]
    exact hf.current_succ hr (.inr ⟨_, _, rfl⟩) hsubscriber mail hcurrent
  | @take box endpoints grows inboxes messages resolving =>
    obtain ⟨hback, hsubscribed, hprivate, hcurrent⟩ := hcourse
    exact ⟨hbackground.trans hback, hsubscriber.trans hsubscribed, ⟨inboxes ▸ hprivate.1, Nat.lt_of_lt_of_le hprivate.2 grows⟩,
      queue_take hr hsubscriber messages resolving hcurrent⟩
  | leave why _ =>
    refine ⟨fun h => ?_, fun h => ?_, ?_⟩
    · cases hcourse.1.symm.trans (hbackground.symm.trans h)
    · cases hcourse.2.1.symm.trans (hsubscriber.symm.trans h)
    · have hoptions : (r.state (n + 1)).options = (r.state n).options := (r.options_state (n + 1)).trans (r.options_state n).symm
      rw [hoptions]
      refine why.resolve_right (fun hasked => ?_)
      rw [hf.unasked] at hasked
      cases hasked

theorem Fed.carries (hs : r.StartsOnce) (hf : r.Fed n t errand) : ∃ t' errand',
    (r.state (n + 1)).HasErrand t' errand' ∧
      Balancer.Carries (r.state n) (r.state (n + 1)) (r.action n) t errand t' errand' (r.state (n + 1)).board
        ((r.state n).publishes? (r.action n)) := by
  have hstart : r.action n = .request .start → errand = .idle := by
    intro haction
    by_contra hbusy
    obtain ⟨k, hk, hrequest⟩ := hf.requested hbusy
    exact Nat.ne_of_lt hk (hs.once k n hrequest haction)
  have hready : (r.state n).Ready errand := by
    have hcourse := hf.course
    cases errand with
    | begins => exact hcourse.1
    | registers box => exact hcourse.1.2.2
    | _ => trivial
  exact (r.turn n).carries (r.gated hs.polls n).polling (hs.polls.admits n) (hs.leaves n) hstart hready hf.errands

/-- The task of a start that was just requested has the errand. -/
theorem begins_of_request (hrequest : r.action n = .request .start)
    (herrands : (r.state (n + 1)).HasErrand t errand) :
    t = (r.state n).nextTask ∧ errand ≠ .idle := by
  have hworks : (r.state (n + 1)).works (r.state n).nextTask = [.startBalancer] := by
    rw [state, hrequest]
    show ((r.state n).request .start).1.works _ = _
    rw [Balancer.works_request, if_pos rfl]
    rfl
  have herrand := herrands (r.state n).nextTask
  rw [hworks] at herrand
  split at herrand
  · rename_i heq
    refine ⟨heq.symm, ?_⟩
    rintro rfl
    cases herrand with
    | idle haside => cases haside _ List.mem_cons_self
  · cases herrand with
    | idle haside => cases haside _ List.mem_cons_self

theorem Fed.step (hs : r.StartsOnce) (hf : r.Fed n t errand) : ∃ t' errand', r.Fed (n + 1) t' errand' ∧
    Balancer.Carries (r.state n) (r.state (n + 1)) (r.action n) t errand t' errand' (r.state (n + 1)).board
      ((r.state n).publishes? (r.action n)) := by
  obtain ⟨t', errand', herrands, hc⟩ := hf.carries hs
  have hbackground : (r.state (n + 1)).background = none → (r.state n).background = none := by
    intro hnone
    rcases hc.background with hsame | ⟨_, _, hlaunched⟩
    · exact hsame.symm.trans hnone
    · cases hlaunched.symm.trans hnone
  refine ⟨t', errand', ⟨herrands, hf.course_succ hs.polls hc, ?_, ?_, ?_, ?_, ?_, ?_⟩, hc⟩
  · intro x hx
    exact (hc.mailboxes.2 x hx).elim (fun hold => Nat.lt_of_lt_of_le (hf.inboxes x hold) hc.mailboxes.1) id
  · refine sending_succ hs.polls hf.sending (fun box hsubscribed _ => ?_)
    rcases hc.subscriber with hsame | ⟨box', rfl, _⟩
    · exact hsame.trans hsubscribed
    · cases hsubscribed.symm.trans hf.course.1.2.1
  · intro hbusy
    rcases hc.begun hbusy with hold | haction
    · obtain ⟨k, hk, hrequest⟩ := hf.requested hold
      exact ⟨k, Nat.lt_succ_of_lt hk, hrequest⟩
    · exact ⟨n, Nat.lt_succ_self n, haction⟩
  · intro k hk hrequest hnone
    rcases Nat.lt_or_eq_of_le (Nat.le_of_lt_succ hk) with hk | rfl
    · obtain ⟨rfl, hbusy⟩ := hf.started k hk hrequest (hbackground hnone)
      obtain ⟨hbusy', hsame⟩ := hc.task hbusy
      exact ⟨hsame.resolve_right (fun h => h hnone), hbusy'⟩
    · exact begins_of_request hrequest herrands
  · intro hnone
    rw [applied, gather_succ_of_none (applied?_eq_none (.inr (hbackground hnone)))]
    exact hf.unapplied (hbackground hnone)
  · exact hc.stopRequests.trans hf.unasked

/-- In every state of a run, somebody is on the errand of the balancer. -/
theorem fed (hs : r.StartsOnce) : ∀ n, ∃ t errand, r.Fed n t errand
  | 0 => by
    refine ⟨0, .idle, fun x => ?_, ?_, fun x hx => ?_, fun box endpoints hphase => ?_, fun h => absurd rfl h,
      fun k hk => absurd hk (Nat.not_lt_zero k), fun _ => rfl, rfl⟩
    · rw [ite_self]
      exact .idle (fun w hw => nomatch hw)
    · obtain ⟨source, interval, timeout, heq⟩ := hs.polls.polling
      refine ⟨rfl, ?_, ?_⟩ <;> rw [state, heq] <;> rfl
    · cases hx
    · rw [r.phase?_zero hs.polls] at hphase
      cases hphase
  | n + 1 => by
    obtain ⟨t, errand, hf⟩ := fed hs n
    obtain ⟨t', errand', hf', _⟩ := hf.step hs
    exact ⟨t', errand', hf'⟩

theorem Fed.launched (hf : r.Fed n t errand) (hbackground : (r.state n).background ≠ none) :
    (∃ box brings, errand = .applies box brings true) ∨ errand = .ended := by
  have hcourse := hf.course
  cases errand with
  | idle => exact absurd hcourse.1 hbackground
  | begins => exact absurd hcourse.1 hbackground
  | registers box => exact absurd hcourse.1.1 hbackground
  | reads box => exact absurd hcourse.1 hbackground
  | applies box brings launched =>
    cases launched with
    | false => exact absurd hcourse.1 hbackground
    | true => exact .inl ⟨box, brings, rfl⟩
  | ended => exact .inr rfl

/-- There is a background task only after its mailbox was registered. -/
theorem registered_of_background (hs : r.StartsOnce) (hbackground : (r.state n).background ≠ none) :
    ∃ k box, k < n ∧ (r.state k).resolver.subscriber = none ∧ (r.state (k + 1)).resolver.subscriber = some box := by
  have hsubscribed : (r.state n).resolver.subscriber ≠ none := by
    obtain ⟨t, errand, hf⟩ := fed hs n
    rcases hf.launched hbackground with ⟨box, brings, rfl⟩ | rfl
    · rw [hf.course.2.1]
      exact Option.some_ne_none box
    · exact hf.course.2.1
  clear hbackground
  induction n with
  | zero =>
    obtain ⟨source, interval, timeout, heq⟩ := hs.polls.polling
    rw [state, heq] at hsubscribed
    exact absurd rfl hsubscribed
  | succ n ih =>
    rcases hbefore : (r.state n).resolver.subscriber with _ | box
    · obtain ⟨box, hbox⟩ := Option.ne_none_iff_exists'.1 hsubscribed
      exact ⟨n, box, Nat.lt_succ_self n, hbefore, hbox⟩
    · obtain ⟨k, box', hk, hregistered⟩ := ih (by rw [hbefore]; exact Option.some_ne_none box)
      exact ⟨k, box', Nat.lt_succ_of_lt hk, hregistered⟩

/-! ## The order of the lists -/

/-- Whether the changes that were detected are the earlier ones, those that were applied, and those on their way, in this order. -/
def InLine (r : Run α) (earlier : List (List Endpoint)) (n : Nat) : Errand → Prop
  | .reads box => r.news n = earlier ++ (r.state n).queue box
  | .applies box brings launched => r.news n = earlier ++ r.applied n ++
      ((if launched then brings else none).map Ring.endpoints).toList ++ (r.state n).queue box
  | .ended => ∃ later, r.news n = earlier ++ r.applied n ++ later
  | _ => False

/-- The next change that is detected comes last, and the next ring that is published is the one for the first list on its way. -/
theorem InLine.succ (hr : r.Polls) {earlier : List (List Endpoint)} (hf : r.Fed n t errand) (hf' : r.Fed (n + 1) t' errand')
    (hline : r.InLine earlier n errand)
    (hc : Balancer.Carries (r.state n) (r.state (n + 1)) (r.action n) t errand t' errand' (r.state (n + 1)).board
      ((r.state n).publishes? (r.action n))) : r.InLine earlier (n + 1) errand' := by
  have hnews : r.news (n + 1) = r.news n ++ (r.news? n).toList := gather_succ _ n
  have happlied : (r.state n).publishes? (r.action n) = none → r.applied (n + 1) = r.applied n := fun hnone =>
    gather_succ_of_none (applied?_eq_none (.inl hnone))
  have hcourse := hf.course
  generalize hboard : (r.state (n + 1)).board = board at hc
  generalize hpublished : (r.state n).publishes? (r.action n) = published at hc happlied
  have hsubscriber : (r.state (n + 1)).resolver.subscriber = board.subscriber := congrArg Board.subscriber hboard
  have hbackground : (r.state (n + 1)).background = board.background := congrArg Board.background hboard
  cases hc with
  | stay mail =>
    cases errand with
    | idle => exact hline
    | begins => exact hline
    | registers box => exact hline
    | reads box =>
      rw [InLine, hnews, hline, hf.queue_succ hr (.inl rfl) hsubscriber mail, List.append_assoc]
    | applies box brings launched =>
      rw [InLine, hnews, hline, happlied rfl, hf.queue_succ hr (.inr ⟨_, _, rfl⟩) hsubscriber mail,
        List.append_assoc _ _ (Option.toList _)]
    | ended =>
      obtain ⟨later, hlater⟩ := hline
      exact ⟨later ++ (r.news? n).toList, by rw [hnews, hlater, happlied rfl, List.append_assoc]⟩
  | request _ _ => exact hline.elim
  | opens _ _ _ => exact hline.elim
  | register _ => exact hline.elim
  | @read box mail =>
    have hnone : (r.state n).background = none := hcourse.1
    rw [InLine, hnews, hline, hf.queue_succ hr (.inl rfl) hsubscriber mail, hf'.unapplied (hbackground.trans hnone)]
    simp
  | @publish box ring launched action mail =>
    obtain ⟨way, haction⟩ := action
    rw [InLine, hnews, hline, hf.queue_succ hr (.inr ⟨_, _, rfl⟩) hsubscriber mail]
    cases launched with
    | false =>
      have hnone : (r.state n).background = none := hcourse.1
      rw [hf.unapplied hnone, hf'.unapplied (hbackground.trans hnone)]
      simp
    | true =>
      have hring : r.applied? n = some ring.endpoints := applied?_of_publishes haction hcourse.1 hpublished
      rw [applied, applied, gather_succ_of_some hring]
      simp
  | @launch box mail =>
    rw [InLine, hnews, hline, happlied rfl, hf.queue_succ hr (.inr ⟨_, _, rfl⟩) hsubscriber mail]
    simp
  | @take box endpoints grows inboxes messages resolving =>
    have hqueue := queue_of_take hr hsubscriber messages resolving
    have hmem : endpoints ∈ r.news n := by
      rw [hline, hqueue]
      simp
    have hring : (Ring.build endpoints (r.state n).options.settings.virtualNodes).endpoints = endpoints := normalize_of_mem_news hmem
    rw [InLine, hnews, news?_of_resolving resolving, hline, happlied rfl, hqueue]
    simp [hring]
  | @leave box why mail =>
    exact ⟨(r.state n).queue box ++ (r.news? n).toList, by rw [hnews, hline, happlied rfl]; simp⟩

/-- When the mailbox is registered, what was detected before is not on its way to it, and all that is detected later is. -/
theorem inLine_of_registered (hs : r.StartsOnce) (hnone : (r.state n).resolver.subscriber = none)
    (hsome : (r.state (n + 1)).resolver.subscriber = some box) :
    ∃ earlier, r.news (n + 1) = earlier ++ (r.state (n + 1)).pendingFor box ∧
      ∃ t, r.Fed (n + 1) t (.reads box) ∧ r.InLine earlier (n + 1) (.reads box) := by
  have hearlier : ∃ earlier, r.news (n + 1) = earlier ++ (r.state (n + 1)).pendingFor box := by
    rcases hpending : (r.state (n + 1)).pendingFor box with _ | ⟨es, others⟩
    · exact ⟨r.news (n + 1), (List.append_nil _).symm⟩
    · obtain ⟨phase, hphase, hes⟩ := Balancer.mem_pendingFor (hpending ▸ List.mem_cons_self)
      obtain ⟨earlier, hnews⟩ := r.pending_of_news hs.polls (n + 1) phase hphase es hes
      have hfew := (r.state (n + 1)).length_pendingFor_le box
      rw [hpending, List.length_cons] at hfew
      obtain rfl : others = [] := List.eq_nil_of_length_eq_zero (by omega)
      exact ⟨earlier, hnews⟩
  obtain ⟨earlier, hnews⟩ := hearlier
  obtain ⟨t, errand, hf⟩ := fed hs n
  obtain ⟨t', errand', hf', hc⟩ := hf.step hs
  rcases hc.subscriber with hsame | ⟨box', rfl, rfl, rfl, hregistered, mail⟩
  · cases hnone.symm.trans (hsame.symm.trans hsome)
  · obtain rfl := Option.some.inj (hregistered.symm.trans hsome)
    refine ⟨earlier, hnews, _, hf', ?_⟩
    obtain ⟨⟨_, hunsubscribed, _⟩, hprivate, hempty⟩ := hf.course
    rw [InLine, Balancer.queue, mail.messages _ hprivate.1 (hf.not_sending hs.polls hunsubscribed _), hempty, List.nil_append, hnews]

theorem inLine (hs : r.StartsOnce) {k : Nat} {earlier : List (List Endpoint)} (hf : r.Fed k t (.reads box))
    (hline : r.InLine earlier k (.reads box)) (hkn : k ≤ n) : ∃ t errand, r.Fed n t errand ∧ r.InLine earlier n errand := by
  induction n, hkn using Nat.le_induction with
  | base => exact ⟨t, _, hf, hline⟩
  | succ n _ ih =>
    obtain ⟨t, errand, hf, hline⟩ := ih
    obtain ⟨t', errand', hf', hc⟩ := hf.step hs
    exact ⟨t', errand', hf', hline.succ hs.polls hf hf' hc⟩

theorem Fed.of_applies (hf : r.Fed n t errand) {c : TaskId} {brings : Option Ring}
    (h : OnErrand ((r.state n).works c) (.applies box brings true)) : c = t ∧ errand = .applies box brings true := by
  have herrand := h.eq_of_applies (hf.errands c)
  split at herrand
  · rename_i heq
    exact ⟨heq, herrand⟩
  · cases herrand

/-- The last list that is not applied yet is the known one. -/
theorem newest (hs : r.StartsOnce) {c : TaskId} {brings : Option Ring}
    (herrand : OnErrand ((r.state n).works c) (.applies box brings true)) :
    ((r.state n).messages box ++ (r.state n).pendingFor box).getLast?.getD (brings.getD (r.state n).ring).endpoints =
      (r.state n).resolver.known := by
  obtain ⟨t, errand, hf⟩ := fed hs n
  obtain ⟨rfl, rfl⟩ := hf.of_applies herrand
  exact hf.course.2.2.2

end Updates

/-! ## The whole run -/

/-- How the ring follows what the resolver detects, in a run of a balancer that is started once. -/
structure Follows (r : Run α) : Prop where
  /-- When the start of the balancer has returned, its background task is launched. -/
  launched : ∀ n m, r.action n = .request .start → n < m → (r.state m).outcome? (r.state n).nextTask ≠ none →
    (r.state m).background ≠ none
  /-- The background task goes on, if there is time between its regular passes. -/
  lasting : ∀ n c, (r.state n).background = some c → r.options.settings.reconcileInterval.isZero = false →
    ∃ box brings, OnErrand ((r.state n).works c) (.applies box brings true)
  /-- Its mailbox was registered before. -/
  registered : ∀ n, (r.state n).background ≠ none →
    ∃ k box, k < n ∧ (r.state k).resolver.subscriber = none ∧ (r.state (k + 1)).resolver.subscriber = some box
  /-- The ring is another after a step only if it is published in it. -/
  published : ∀ n, (r.state (n + 1)).ring = ((r.state n).publishes? (r.action n)).getD (r.state n).ring
  /-- The changes that are detected once a mailbox is registered for the subscriber are applied in the order in which they are detected,
  none left out. So is the one that is about to be told right then. What is not applied yet is the list whose ring the background task
  brings, then those in the mailbox, and then the one that is about to be told. -/
  ordered : ∀ k box, (r.state k).resolver.subscriber = none → (r.state (k + 1)).resolver.subscriber = some box →
    ∃ earlier, r.news (k + 1) = earlier ++ (r.state (k + 1)).pendingFor box ∧
      ∀ n, k < n → ∃ later, r.news n = earlier ++ r.applied n ++ later ∧
        ∀ c brings, (r.state n).background = some c → OnErrand ((r.state n).works c) (.applies box brings true) →
          later = (brings.map Ring.endpoints).toList ++ (r.state n).messages box ++ (r.state n).pendingFor box
  /-- The last list that is not applied yet is the one that the resolver knows; if there is none, the ring is one of the members that the
  resolver knows. -/
  newest : ∀ n c box brings, (r.state n).background = some c → OnErrand ((r.state n).works c) (.applies box brings true) →
    ((r.state n).messages box ++ (r.state n).pendingFor box).getLast?.getD (brings.getD (r.state n).ring).endpoints =
      (r.state n).resolver.known
  /-- Where the background task waits for the next list, its mailbox is empty and no resolution is under way, the ring is one of the members
  that the resolver knows. -/
  current : ∀ n c box ticker isOpen, (r.state n).background = some c → (r.state n).works c = [.consume box ticker isOpen] →
    (r.state n).messages box = [] → (r.state n).phase? = none → (r.state n).ring.endpoints = (r.state n).resolver.known

/-- A balancer that is started once loses no change on the way from its resolver to its ring. -/
theorem follows (r : Run α) (hs : r.StartsOnce) : r.Follows where
  launched := fun n m hrequest hnm houtcome hnone => by
    obtain ⟨t, errand, hf⟩ := fed hs m
    obtain ⟨rfl, hbusy⟩ := hf.started n hnm hrequest hnone
    have herrand := hf.errands.self
    obtain ⟨outcome, houtcome⟩ := Option.ne_none_iff_exists'.1 houtcome
    rw [Balancer.works_of_task? (task?_of_outcome? houtcome)] at herrand
    have hcourse := hf.course
    cases herrand with
    | idle _ => exact hbusy rfl
    | ended _ => exact hcourse.1 hnone
  lasting := fun n c hbackground hinterval => by
    obtain ⟨t, errand, hf⟩ := fed hs n
    rcases hf.launched (by rw [hbackground]; exact Option.some_ne_none c) with ⟨box, brings, rfl⟩ | rfl
    · obtain rfl := Option.some.inj (hbackground.symm.trans hf.course.1)
      exact ⟨box, brings, hf.errands.self⟩
    · have hzero := hf.course.2.2
      rw [r.options_state n, hinterval] at hzero
      cases hzero
  registered := fun _ => registered_of_background hs
  published := fun n => by
    obtain ⟨t, errand, hf⟩ := fed hs n
    obtain ⟨t', errand', _, hc⟩ := hf.step hs
    exact hc.ring
  ordered := fun k box hnone hsome => by
    obtain ⟨earlier, hearlier, t, hf, hline⟩ := inLine_of_registered hs hnone hsome
    refine ⟨earlier, hearlier, fun n hkn => ?_⟩
    obtain ⟨t', errand, hf', hline'⟩ := inLine hs hf hline hkn
    have hlater : ∃ later, r.news n = earlier ++ r.applied n ++ later := by
      have hcourse := hf'.course
      cases errand with
      | idle => exact hline'.elim
      | begins => exact hline'.elim
      | registers box => exact hline'.elim
      | reads box =>
        refine ⟨(r.state n).queue box, ?_⟩
        rw [hf'.unapplied hcourse.1, List.append_nil]
        exact hline'
      | applies box brings launched => exact ⟨_, hline'.trans (List.append_assoc _ _ _)⟩
      | ended => exact hline'
    obtain ⟨later, hnews⟩ := hlater
    refine ⟨later, hnews, fun c brings _ herrand => ?_⟩
    obtain ⟨rfl, rfl⟩ := hf'.of_applies herrand
    have hline' : r.news n = earlier ++ r.applied n ++ (brings.map Ring.endpoints).toList ++ (r.state n).queue box := hline'
    rw [hnews, List.append_assoc, List.append_assoc, List.append_assoc] at hline'
    rw [List.append_cancel_left (List.append_cancel_left hline'), Balancer.queue, List.append_assoc]
  newest := fun _ _ _ _ _ => newest hs
  current := fun n c box ticker isOpen _ hworks hempty hfree => by
    have herrand : OnErrand ((r.state n).works c) (.applies box none true) := by
      rw [hworks]
      exact .consumes
    have hnewest := newest hs herrand
    rw [hempty, Balancer.pendingFor_of_free hfree] at hnewest
    exact hnewest

/-- A run of a balancer whose resolver is asked for a resolution while the balancer starts. The resolution finds another endpoint than the
one for which the first ring is being brought. -/
def overtaken : Run Unit where
  options := ⟨⟨1, .ofSeconds 30, .ofSeconds 30⟩, none, none⟩
  adapter := ⟨.logs, fun _ _ => none⟩
  resolver := .polling (.listing "list" [.immediate (.ok [⟨"a"⟩]), .immediate (.ok [⟨"b"⟩])]) (.ofSeconds 60) (.ofSeconds 1)
  backends := ⟨[]⟩
  action := fun n =>
    if n = 0 then .request .start
    else if n < 9 then .move 0 0
    else if n = 9 then .request .resolve
    else if n < 15 then .move 2 0
    else if n < 22 then .move 0 0
    else if n = 23 then .move 3 1
    else .move 3 0

/-- That balancer is started at first, and never again. -/
theorem eq_zero_of_start_overtaken {n : Nat} (h : overtaken.action n = .request .start) : n = 0 := by
  unfold overtaken at h
  dsimp only at h
  split at h
  · assumption
  · repeat' split at h
    all_goals cases h

/-- In that run the first ring is out of date when the start returns. The list that makes it so is in the mailbox by then, and in the end it
is applied. -/
theorem follows_overtaken : overtaken.StartsOnce ∧ (overtaken.state 22).ring.endpoints = [⟨"a"⟩] ∧
    (overtaken.state 22).resolver.known = [⟨"b"⟩] ∧ (overtaken.state 22).messages 0 = [[⟨"b"⟩]] ∧
    overtaken.applied 33 = [[⟨"b"⟩]] ∧ (overtaken.state 33).ring.endpoints = [⟨"b"⟩] ∧ overtaken.Follows := by
  have hstarts : overtaken.StartsOnce := by
    refine ⟨⟨⟨_, _, _, rfl⟩, fun n => ?_⟩, fun m n hm hn => ?_, fun n => ?_⟩
    · generalize haction : overtaken.action n = a
      unfold overtaken at haction
      dsimp only at haction
      repeat' split at haction
      all_goals
        subst haction
        trivial
    · rw [eq_zero_of_start_overtaken hm, eq_zero_of_start_overtaken hn]
    · generalize haction : overtaken.action n = a
      unfold overtaken at haction
      dsimp only at haction
      repeat' split at haction
      all_goals
        subst haction
        trivial
  exact ⟨hstarts, by decide +kernel, by decide +kernel, by decide +kernel, by decide +kernel, by decide +kernel,
    overtaken.follows hstarts⟩

end Run

end TelemetryRouter
