import TelemetryRouter.Proofs.Accounts
import TelemetryRouter.Proofs.Errands
import TelemetryRouter.Proofs.Posts
import TelemetryRouter.Proofs.Readings

/-!
# A fixed list

A fixed resolver knows its list from the start, and no other list ever comes from it: no source is asked, and nothing is put into a
mailbox. So a balancer that was started with it has the ring of that list, and keeps it until a request brings another ring: to stop
the balancer, or to apply a list (`Run.ring_of_started`).
-/

namespace TelemetryRouter

variable {α : Type}

namespace Balancer

/-! ## Where works come from -/

/-- Whether a step of an inert work may bring another work to its task. -/
def Begets (b : Balancer α) (w : Work α) : Work α → Prop
  | .pass p => (w = .applyBaseline ∧ p = b.applyPass b.resolver.known) ∨ (w = .clear ∧ p = b.applyPass []) ∨ p = Pass.refresh ∨
      ∃ (box : MailboxId) (endpoints : List Endpoint) (mailbox : Mailbox (List Endpoint)), (b.mailboxes[box]?).bind Mailbox.take? =
        some (endpoints, mailbox)
  | .resolution _ => (∃ phase, w = .resolution phase) ∨ b.resolver.kind.isPolling = true
  | .send _ _ => ∃ endpoints, w = .push endpoints
  | .push _ => False
  | .clear => False
  | _ => True

/-- Where a work comes from that a task has after an action. -/
inductive Origin (b : Balancer α) (a : Action α) (x : TaskId) : Work α → Prop
  | stays {y : Work α} (mem : y ∈ b.works x) : Origin b a x y
  | begets {w y : Work α} (mem : w ∈ b.works x) (begets : b.Begets w y) : Origin b a x y
  | passes {p p' : Pass} (mem : .pass p ∈ b.works x) (publish : p'.publish = p.publish) : Origin b a x (.pass p')
  | exports {y : Work α} (duty : y.isInert = false) (noPass : ∀ p, y ≠ .pass p) : Origin b a x y
  | polls : Origin b a x (.poll none)
  | consumes {box : MailboxId} : Origin b a x (.consume box none true)
  | request {r : Request α} {y : Work α} (action : a = .request r) (fresh : x = b.nextTask) (mem : y ∈ b.begun r) : Origin b a x y

section Origins

variable {b b' : Balancer α} {t : TaskId} {rest ws started : List (Work α)} {way : Nat} {w : Work α}

/-- The works of a task after a step of an inert work were under it, or are such as it may bring. -/
theorem InertStep.begets (h : InertStep b t rest way w ws started b') : ∀ y ∈ ws, y ∈ rest ∨ b.Begets w y := by
  have hrest : ∀ y ∈ rest, y ∈ rest ∨ b.Begets w y := fun _ hy => .inl hy
  have hcons : ∀ {x : Work α} {xs : List (Work α)}, b.Begets w x → (∀ y ∈ xs, y ∈ rest ∨ b.Begets w y) →
      ∀ y ∈ x :: xs, y ∈ rest ∨ b.Begets w y := fun hx hxs => List.forall_mem_cons.2 ⟨.inr hx, hxs⟩
  cases h with
  | resolution step =>
    cases step with
    | conclude => exact hrest
    | ask _ _ _ works_eq => exact works_eq ▸ hcons (.inl ⟨_, rfl⟩) hrest
    | _ => exact hcons (.inl ⟨_, rfl⟩) hrest
  | startResolver kind _ => exact hcons (.inr kind) (hcons trivial hrest)
  | refuseResolver _ => exact fun _ hy => nomatch hy
  | stopPolls _ _ => exact hcons trivial (hcons trivial hrest)
  | stopUnpolled _ _ => exact hcons trivial hrest
  | refuseBalancer _ => exact fun _ hy => nomatch hy
  | startBalancer _ => exact hcons trivial (hcons trivial (hcons trivial hrest))
  | applyBaseline => exact hcons (.inl ⟨rfl, rfl⟩) hrest
  | stopConsumer _ => exact hcons trivial hrest
  | clear => exact hcons (.inr (.inl ⟨rfl, rfl⟩)) hrest
  | dispatch => exact hcons trivial hrest
  | pushTo _ => exact hcons ⟨_, rfl⟩ hrest
  | poll step =>
    cases step with
    | stop _ => exact hrest
    | poll kind _ works_eq => exact works_eq ▸ hcons (.inr kind) (hcons trivial hrest)
    | _ => exact hcons trivial hrest
  | consume step =>
    cases step with
    | stop _ => exact hrest
    | take found => exact hcons (.inr (.inr (.inr ⟨_, _, _, found⟩))) (hcons trivial hrest)
    | refresh _ => exact hcons (.inr (.inr (.inl rfl))) (hcons trivial hrest)
    | _ => exact hcons trivial hrest
  | _ => exact hrest

/-- A step of an inert work starts a task that polls, or one that applies updates, if any. -/
theorem InertStep.origin_started (h : InertStep b t rest way w ws started b') (a : Action α) (x : TaskId) :
    ∀ y ∈ started, b.Origin a x y := by
  intro y hy
  cases h with
  | registerPoller => exact List.mem_singleton.1 hy ▸ .polls
  | launchConsumer => exact List.mem_singleton.1 hy ▸ .consumes
  | _ => exact nomatch hy

/-- Every work that a task has after an action comes from somewhere. -/
theorem Turn.origin {a : Action α} (h : Turn b a b') {x : TaskId} {y : Work α} (hy : y ∈ b'.works x) : b.Origin a x y := by
  have htail : ∀ {t : TaskId} {w : Work α} {rest : List (Work α)}, b.works t = w :: rest → x = t → y ∈ rest → b.Origin a x y :=
    fun hworks heq hmem => .stays (heq ▸ hworks ▸ List.mem_cons_of_mem _ hmem)
  cases h with
  | @inert t way w rest ws started _ works _ _ step _ =>
    rw [step.leaves (lt_of_works works) x] at hy
    split at hy
    · rename_i heq
      rcases step.begets y hy with hmem | hbegets
      · exact htail works heq hmem
      · exact .begets (heq ▸ works ▸ List.mem_cons_self) hbegets
    · split at hy
      · exact step.origin_started _ x y hy
      · exact .stays hy
  | @pass t way p rest _ works _ step =>
    obtain ⟨ws, hleaves, hws⟩ := step.leaves works
    rw [hleaves x] at hy
    split at hy
    · rename_i heq
      rcases hws with rfl | ⟨p', rfl, _, hpublish⟩
      · exact htail works heq hy
      · rcases List.mem_cons.1 hy with rfl | hy
        · exact .passes (heq ▸ works ▸ List.mem_cons_self) hpublish
        · exact htail works heq hy
    · split at hy
      · cases hy
      · exact .stays hy
  | @exports t way w rest ws _ works _ _ _ exporting =>
    rw [exporting.leaves x] at hy
    split at hy
    · rename_i heq
      rcases exporting.goes with rfl | ⟨w', rfl, hduty, hnoPass⟩
      · exact htail works heq hy
      · rcases List.mem_cons.1 hy with rfl | hy
        · exact .exports hduty hnoPass
        · exact htail works heq hy
    · split at hy
      · cases hy
      · exact .stays hy
  | @request r _ =>
    rw [works_request] at hy
    split at hy
    · rename_i heq
      exact .request rfl heq hy
    · exact .stays hy
  | @abandon t =>
    rw [works_abandon] at hy
    split at hy
    · cases hy
    · exact .stays hy
  | @receive box => cases box <;> exact .stays hy
  | still _ works _ _ => exact .stays (works x ▸ hy)
  | _ => exact .stays hy

end Origins

end Balancer

/-! ## No other lists -/

/-- Whether a work is about a list that comes in later: a source is asked for it, or it is on its way to a mailbox. -/
def Work.isNews : Work α → Bool
  | .resolution _ => true
  | .push _ => true
  | .send _ _ => true
  | _ => false

/-- Whether a work that comes to publish a ring publishes a given one. The last pass of a balancer publishes the empty ring. -/
def Work.KeepsTo (ring : Ring) : Work α → Prop
  | .pass p => p.publish = none ∨ p.publish = some ring
  | .clear => False
  | _ => True

/-- Whether an action asks for another ring than that of the resolver: the balancer is to be stopped, or a list to be applied. -/
def Action.bringsRing : Action α → Bool
  | .request .shutdown => true
  | .request (.update _) => true
  | _ => false

namespace Balancer

/-- Whether the resolver is fixed and knows a list, and no other list is on its way. -/
structure Holds (b : Balancer α) (es : List Endpoint) : Prop where
  kind : b.resolver.kind = .fixed
  known : b.resolver.known = es
  mail : ∀ box, b.messages box = []
  quiet : ∀ t, ∀ w ∈ b.works t, w.isNews = false

section Steps

variable {b b' : Balancer α} {t : TaskId} {rest ws started : List (Work α)} {way : Nat} {w : Work α} {es : List Endpoint} {ring : Ring}
  {a : Action α}

theorem Holds.isPolling_eq_false (hb : b.Holds es) : b.resolver.kind.isPolling = false := by
  rw [hb.kind]
  rfl

theorem Holds.not_isPolling (hb : b.Holds es) : ¬ b.resolver.kind.isPolling = true := by
  rw [hb.isPolling_eq_false]
  exact Bool.false_ne_true

theorem Holds.not_take (hb : b.Holds es) {box : MailboxId} {endpoints : List Endpoint} {mailbox : Mailbox (List Endpoint)} :
    (b.mailboxes[box]?).bind Mailbox.take? ≠ some (endpoints, mailbox) := by
  intro found
  have hmessages := messages_of_take? found
  rw [hb.mail] at hmessages
  cases hmessages

/-- No task comes to a work that is about another list, unless a list is set from outside. -/
theorem Holds.quiet_of_origin (hb : b.Holds es) (hpush : ∀ endpoints, a ≠ .request (.push endpoints)) {x : TaskId} {y : Work α}
    (h : b.Origin a x y) : y.isNews = false := by
  cases h with
  | stays mem => exact hb.quiet x y mem
  | @begets w _ mem begets =>
    have hw := hb.quiet x w mem
    cases y with
    | resolution phase =>
      rcases begets with ⟨phase', rfl⟩ | hpolling
      · cases hw
      · exact absurd hpolling hb.not_isPolling
    | send box endpoints =>
      obtain ⟨endpoints', rfl⟩ := begets
      cases hw
    | push endpoints => exact begets.elim
    | _ => rfl
  | passes _ _ => rfl
  | exports duty _ => cases y <;> first | rfl | cases duty
  | polls => rfl
  | consumes => rfl
  | @request r _ action _ mem =>
    cases r with
    | resolve =>
      rw [begun, hb.isPolling_eq_false] at mem
      cases mem
    | push endpoints => exact absurd action (hpush endpoints)
    | shutdown =>
      simp only [begun, List.mem_cons, List.not_mem_nil, or_false] at mem
      rcases mem with rfl | rfl | rfl | rfl <;> rfl
    | _ =>
      rw [List.mem_singleton.1 mem]
      rfl

/-- A step of an inert work leaves the resolver its list, and the mailboxes empty. -/
theorem InertStep.held (hb : b.Holds es) (hw : w.isNews = false) (h : InertStep b t rest way w ws started b') :
    b'.resolver.kind = .fixed ∧ b'.resolver.known = es ∧ ∀ box, b'.messages box = [] := by
  cases h with
  | resolution _ => cases hw
  | push _ => cases hw
  | pushTo _ => cases hw
  | send => cases hw
  | startResolver kind _ => exact absurd kind hb.not_isPolling
  | stopPolls kind _ => exact absurd kind hb.not_isPolling
  | stopUnpolled kind _ => exact absurd kind hb.not_isPolling
  | startBalancer _ => exact ⟨hb.kind, hb.known, fun box => (messages_openMailbox b updateCapacity box).trans (hb.mail box)⟩
  | poll step =>
    cases step with
    | poll kind _ _ => exact absurd kind hb.not_isPolling
    | _ => exact ⟨hb.kind, hb.known, hb.mail⟩
  | consume step =>
    cases step with
    | take found => exact absurd found hb.not_take
    | _ => exact ⟨hb.kind, hb.known, hb.mail⟩
  | _ => exact ⟨hb.kind, hb.known, hb.mail⟩

/-- An action leaves the resolver its list, and the mailboxes empty. -/
theorem Turn.held (h : Turn b a b') (hb : b.Holds es) :
    b'.resolver.kind = .fixed ∧ b'.resolver.known = es ∧ ∀ box, b'.messages box = [] := by
  have hfeed : b'.feed = b.feed → b'.resolver.kind = .fixed ∧ b'.resolver.known = es ∧ ∀ box, b'.messages box = [] := fun hsame =>
    ⟨(congrArg (fun f : Feed => f.resolver.kind) hsame).trans hb.kind,
      (congrArg (fun f : Feed => f.resolver.known) hsame).trans hb.known,
      fun box => (messages_congr (congrArg Feed.mailboxes hsame) box).trans (hb.mail box)⟩
  cases h with
  | @inert t _ w _ _ _ _ works _ _ step _ => exact step.held hb (hb.quiet t w (works ▸ List.mem_cons_self))
  | pass _ _ step => exact hfeed step.feed
  | exports _ _ _ _ exporting => exact hfeed exporting.feed
  | @request r _ =>
    by_cases hr : r = .resolve
    · subst hr
      obtain ⟨metrics, heq⟩ := beginResolution_of_not_isPolling (b := b.spawn []) hb.isPolling_eq_false b.nextTask []
      show ((b.spawn []).beginResolution b.nextTask []).resolver.kind = _ ∧ _
      have hstate : (b.request .resolve).1 = (b.spawn []).beginResolution b.nextTask [] := rfl
      rw [hstate, heq]
      exact ⟨hb.kind, hb.known, hb.mail⟩
    · exact hfeed (feed_request b hr)
  | @abandon t =>
    refine hfeed (feed_abandon b (fun w hw => ?_))
    have hnews := hb.quiet t w hw
    cases w <;> first | rfl | cases hnews
  | @answer answers =>
    have hsame : b.extendScript answers = b := by
      rw [extendScript, Resolver.extendScript, hb.kind]
    rw [hsame]
    exact ⟨hb.kind, hb.known, hb.mail⟩
  | @openInbox capacity => exact ⟨hb.kind, hb.known, fun box => (messages_openMailbox b capacity box).trans (hb.mail box)⟩
  | @receive box =>
    cases box with
    | none => exact ⟨hb.kind, hb.known, hb.mail⟩
    | some box =>
      refine ⟨hb.kind, hb.known, fun x => ?_⟩
      show (b.changeMailbox box (fun m => m.takeAll.2)).messages x = []
      rw [messages_changeMailbox]
      split
      · cases b.mailboxes[box]? <;> rfl
      · exact hb.mail x
  | still _ _ feed _ => exact hfeed feed
  | _ => exact ⟨hb.kind, hb.known, hb.mail⟩

/-- The list stays with the resolver, whatever happens, unless another one is set from outside. -/
theorem Turn.holds (h : Turn b a b') (hb : b.Holds es) (hpush : ∀ endpoints, a ≠ .request (.push endpoints)) : b'.Holds es := by
  obtain ⟨hkind, hknown, hmail⟩ := h.held hb
  exact ⟨hkind, hknown, hmail, fun x y hy => hb.quiet_of_origin hpush (h.origin hy)⟩

/-- The works of a task keep to the ring of the list, unless it is the task of a request that brings a ring of its own. -/
theorem Holds.keepsTo_of_origin (hb : b.Holds es) (hring : ring = Ring.build es b.options.settings.virtualNodes) {x : TaskId}
    (hx : ∀ w ∈ b.works x, w.KeepsTo ring) (hnew : x = b.nextTask → a.bringsRing = false) {y : Work α} (h : b.Origin a x y) :
    y.KeepsTo ring := by
  cases h with
  | stays mem => exact hx y mem
  | @begets w _ mem begets =>
    cases y with
    | pass p =>
      rcases begets with ⟨_, rfl⟩ | ⟨rfl, _⟩ | rfl | ⟨box, endpoints, mailbox, found⟩
      · refine .inr ?_
        rw [hb.known, hring]
        rfl
      · exact (hx _ mem).elim
      · exact .inl rfl
      · exact absurd found hb.not_take
    | clear => exact begets.elim
    | _ => trivial
  | @passes p p' mem publish =>
    show p'.publish = none ∨ p'.publish = some ring
    rw [publish]
    exact hx _ mem
  | exports duty noPass =>
    cases y with
    | pass p => exact absurd rfl (noPass p)
    | clear => cases duty
    | _ => trivial
  | polls => trivial
  | consumes => trivial
  | @request r _ action fresh mem =>
    have hbrings := hnew fresh
    rw [action] at hbrings
    cases r with
    | shutdown => cases hbrings
    | update endpoints => cases hbrings
    | resolve =>
      rw [begun, hb.isPolling_eq_false] at mem
      cases mem
    | reconcile endpoints => exact List.mem_singleton.1 mem ▸ .inl rfl
    | reconcileToRing => exact List.mem_singleton.1 mem ▸ .inl rfl
    | retireAll => exact List.mem_singleton.1 mem ▸ .inl rfl
    | _ =>
      rw [List.mem_singleton.1 mem]
      trivial

/-! ## The ring of the list -/

/-- As long as all works keep to a ring, no other one is published. -/
theorem Change.ring_of_keepsTo (hb : b.Grounded) (h : Change b a b') (hall : ∀ x, ∀ w ∈ b.works x, w.KeepsTo ring) :
    b'.ring = b.ring ∨ b'.ring = ring := by
  rcases h.sameRings_or_pass hb with hsame | ⟨t, p, rest, hworks, _, hstep⟩
  · exact .inl hsame.ring
  · obtain ⟨ws, _, hbrought, _⟩ := hstep.brought hworks 0
    have hp : (Work.pass p : Work α).KeepsTo ring := hall t _ (hworks ▸ List.mem_cons_self)
    generalize hboard : b'.board = board at hbrought
    generalize b.publishes? _ = published at hbrought
    cases hbrought with
    | on _ _ => exact .inl (congrArg Board.ring hboard)
    | publish _ _ _ =>
      have hring : b'.ring = p.publish.getD b.ring := congrArg Board.ring hboard
      rcases hp with hp | hp
      · exact .inl (by rw [hring, hp]; rfl)
      · exact .inr (by rw [hring, hp]; rfl)
    | done _ => exact .inl (congrArg Board.ring hboard)

/-- How far the start of a balancer is towards a ring: the works of its task are those of a start, the ring is published or on its way
once the list has been read, and it is published when the start has ended with success. -/
inductive AtStart (b : Balancer α) (ring : Ring) (t : TaskId) : List (Work α) → Prop
  | begins : AtStart b ring t [.startBalancer]
  | resolver {box : MailboxId} : AtStart b ring t [.startResolver box, .applyBaseline, .launchConsumer box]
  | reads {box : MailboxId} : AtStart b ring t [.applyBaseline, .launchConsumer box]
  | first {p : Pass} {box : MailboxId} (brings : p.coming?.getD b.ring = ring) : AtStart b ring t [.pass p, .launchConsumer box]
  | launches {box : MailboxId} (published : b.ring = ring) : AtStart b ring t [.launchConsumer box]
  | ended (published : b.outcome? t = some .done → b.ring = ring) : AtStart b ring t []

/-- A start stays where it is when its task does and no other ring is published. -/
theorem AtStart.congr (h : b.AtStart ring t ws) (hring : b'.ring = b.ring ∨ b'.ring = ring)
    (houtcome : b'.outcome? t = b.outcome? t) : b'.AtStart ring t ws := by
  have hpublished : b.ring = ring → b'.ring = ring := fun heq => hring.elim (fun hsame => hsame.trans heq) id
  cases h with
  | begins => exact .begins
  | resolver => exact .resolver
  | reads => exact .reads
  | @first p box brings =>
    refine .first ?_
    rcases hcoming : p.coming? with _ | coming
    · rw [hcoming] at brings
      exact hpublished brings
    · rw [hcoming] at brings
      exact brings
  | launches published => exact .launches (hpublished published)
  | ended published => exact .ended (fun hdone => hpublished (published (houtcome ▸ hdone)))

/-- The step of a work of a start other than its pass brings it on. -/
theorem AtStart.inert {w : Work α} {rest started : List (Work α)} (hb : b.Holds es)
    (hring : ring = Ring.build es b.options.settings.virtualNodes) (h : b.AtStart ring t (w :: rest)) (hw : b.works t = w :: rest)
    (hstep : InertStep b t rest way w ws started b') (hsame : b'.ring = b.ring) : b'.AtStart ring t ws := by
  have ht := lt_of_works hw
  cases h with
  | begins =>
    cases hstep with
    | refuseBalancer _ => exact .ended (fun hdone => by cases (outcome?_finish ht _).symm.trans hdone)
    | startBalancer _ => exact .resolver
  | resolver =>
    cases hstep with
    | startFixed _ => exact .reads
    | startManual _ => exact .reads
    | refuseResolver _ => exact .ended (fun hdone => by cases (outcome?_finish ht _).symm.trans hdone)
    | startResolver kind _ => exact absurd kind hb.not_isPolling
  | reads =>
    cases hstep with
    | applyBaseline =>
      refine .first ?_
      rw [hb.known, hring]
      rfl
  | first _ => cases hstep
  | launches published =>
    cases hstep with
    | launchConsumer => exact .ended (fun _ => hsame.trans published)

/-- The step of the pass of a start brings it on: the ring is on its way until it is published. -/
theorem AtStart.pass {p : Pass} {rest : List (Work α)} (h : b.AtStart ring t (.pass p :: rest)) (hw : b.works t = .pass p :: rest)
    (hstep : PassStep b t rest p b') : b'.AtStart ring t (b'.works t) := by
  obtain ⟨ws, hleaves, hbrought, _⟩ := hstep.brought hw 0
  rw [hleaves t, if_pos rfl]
  generalize hboard : b'.board = board at hbrought
  generalize b.publishes? _ = published at hbrought
  cases h with
  | first brings =>
    cases hbrought with
    | @on p' _ coming =>
      have hsame : b'.ring = b.ring := congrArg Board.ring hboard
      exact .first (by rw [coming, hsame]; exact brings)
    | @publish p' _ before after =>
      have hpublished : b'.ring = p.publish.getD b.ring := congrArg Board.ring hboard
      exact .first (by rw [after, Option.getD_none, hpublished, ← before]; exact brings)
    | done gone =>
      have hsame : b'.ring = b.ring := congrArg Board.ring hboard
      rw [gone] at brings
      exact .launches (hsame.trans brings)

theorem AtStart.step (hb : b.Holds es) (hring : ring = Ring.build es b.options.settings.virtualNodes)
    (h : b.AtStart ring t (b.works t)) (hworking : b.works t ≠ []) (hturn : Turn b (.move t way) b') :
    b'.AtStart ring t (b'.works t) := by
  cases hturn with
  | inert works _ _ step core =>
    have hleaves := step.leaves (lt_of_works works) t
    rw [if_pos rfl] at hleaves
    exact hleaves ▸ (works ▸ h).inert hb hring works step (congrArg Core.ring core)
  | pass works _ step => exact (works ▸ h).pass works step
  | exports works duty noPass _ _ =>
    rw [works] at h
    cases h with
    | first _ => exact absurd rfl (noPass _)
    | _ => cases duty
  | still _ works _ ring_eq =>
    rw [works t]
    generalize hws : b.works t = ws at h
    cases h with
    | ended _ => exact absurd hws hworking
    | first brings => exact .first (ring_eq ▸ brings)
    | launches published => exact .launches (ring_eq.trans published)
    | begins => exact .begins
    | resolver => exact .resolver
    | reads => exact .reads

end Steps

end Balancer

/-! ## Along a run -/

namespace Run

/-- Whether no list is set from outside. Only a manual resolver lets one. -/
def KeepsList (r : Run α) : Prop := ∀ n es, r.action n ≠ .request (.push es)

/-- The ring of the list that the resolver knows at first. -/
def listRing (r : Run α) : Ring := Ring.build r.resolver.known r.options.settings.virtualNodes

/-- Whether the balancer was started: a start was asked for in a step, was not given up, and has ended with success by a later state. -/
structure Started (r : Run α) (k n : Nat) : Prop where
  request : r.action k = .request .start
  later : k < n
  kept : ∀ i, k < i → i < n → r.action i ≠ .abandon (r.state k).nextTask
  done : (r.state n).outcome? (r.state k).nextTask = some .done

/-- Whether, between two states, nobody asks to stop the balancer or to apply a list, and whoever asked before has the answer by the
first of them. -/
def LeftAlone (r : Run α) (k m : Nat) : Prop :=
  ∀ j < m, (r.action j).bringsRing = true → j < k ∧ (r.state k).outcome? (r.state j).nextTask ≠ none

section FixedLists

variable {r : Run α} {k n m : Nat}

/-- In every state of a run with a fixed resolver, the resolver knows the list that it knew at first, and no other is on its way. -/
theorem holds (r : Run α) (hfixed : r.resolver.kind = .fixed) (hlist : r.KeepsList) : ∀ n, (r.state n).Holds r.resolver.known
  | 0 => ⟨hfixed, rfl, fun _ => rfl, fun _ _ hw => nomatch hw⟩
  | n + 1 => (r.turn n).holds (r.holds hfixed hlist n) (hlist n)

/-- In every state, the works of a task keep to the ring of the list, unless it is the task of a request that brings a ring of its own. -/
theorem keepsTo (r : Run α) (hfixed : r.resolver.kind = .fixed) (hlist : r.KeepsList) (n : Nat) (x : TaskId) :
    (∀ w ∈ (r.state n).works x, w.KeepsTo r.listRing) ∨ ∃ j < n, (r.action j).bringsRing = true ∧ x = (r.state j).nextTask := by
  induction n with
  | zero => exact .inl (fun _ hw => nomatch hw)
  | succ n ih =>
    rcases ih with hx | ⟨j, hj, hbrings, heq⟩
    · by_cases hnew : x = (r.state n).nextTask ∧ (r.action n).bringsRing = true
      · exact .inr ⟨n, Nat.lt_succ_self n, hnew.2, hnew.1⟩
      · have hring : r.listRing = Ring.build r.resolver.known (r.state n).options.settings.virtualNodes := by
          rw [r.options_state n, listRing]
        exact .inl (fun w hw => (r.holds hfixed hlist n).keepsTo_of_origin hring hx
          (fun heq => Bool.eq_false_iff.2 (fun hbrings => hnew ⟨heq, hbrings⟩)) ((r.turn n).origin hw))
    · exact .inr ⟨j, Nat.lt_succ_of_lt hj, hbrings, heq⟩

/-- In a state of a run that is left alone, all works keep to the ring of the list. -/
theorem LeftAlone.keepsTo (halone : r.LeftAlone k m) (hfixed : r.resolver.kind = .fixed) (hlist : r.KeepsList) {i : Nat} (hki : k ≤ i)
    (him : i ≤ m) (x : TaskId) : ∀ w ∈ (r.state i).works x, w.KeepsTo r.listRing := by
  rcases r.keepsTo hfixed hlist i x with hx | ⟨j, hj, hbrings, rfl⟩
  · exact hx
  · obtain ⟨_, hended⟩ := halone j (Nat.lt_of_lt_of_le hj him) hbrings
    obtain ⟨outcome, houtcome⟩ := Option.ne_none_iff_exists'.1 hended
    have htask := task?_of_outcome? (outcome?_of_le hki houtcome)
    intro w hw
    rw [Balancer.works_of_task? htask] at hw
    cases hw

/-- A step of a run that is left alone publishes the ring of the list or none. -/
theorem LeftAlone.ring_succ (halone : r.LeftAlone k m) (hfixed : r.resolver.kind = .fixed) (hlist : r.KeepsList) {i : Nat}
    (hki : k ≤ i) (him : i ≤ m) : (r.state (i + 1)).ring = (r.state i).ring ∨ (r.state (i + 1)).ring = r.listRing :=
  (r.change i).ring_of_keepsTo (r.grounded i) (halone.keepsTo hfixed hlist hki him)

/-- The start of a balancer that is left alone goes its way. -/
theorem Started.atStart (hs : r.Started k n) (halone : r.LeftAlone k n) (hfixed : r.resolver.kind = .fixed) (hlist : r.KeepsList)
    {i : Nat} (hki : k < i) (hin : i ≤ n) :
    (r.state i).AtStart r.listRing (r.state k).nextTask ((r.state i).works (r.state k).nextTask) := by
  induction i, hki using Nat.le_induction with
  | base =>
    have hworks : (r.state (k + 1)).works (r.state k).nextTask = [.startBalancer] := by
      rw [state, hs.request]
      show ((r.state k).request .start).1.works _ = _
      rw [Balancer.works_request, if_pos rfl]
      rfl
    rw [hworks]
    exact .begins
  | succ i hki ih =>
    have hat := ih (Nat.le_of_succ_le hin)
    have hring := halone.ring_succ hfixed hlist (Nat.le_of_succ_le hki) (Nat.le_of_succ_le hin)
    have hlt : (r.state k).nextTask < (r.state i).tasks.length := r.nextTask_lt_of_request hs.request (fun h => by cases h) hki
    have hrests : (r.state (i + 1)).task? (r.state k).nextTask = (r.state i).task? (r.state k).nextTask →
        (r.state (i + 1)).AtStart r.listRing (r.state k).nextTask ((r.state (i + 1)).works (r.state k).nextTask) := by
      intro hsame
      have hworks : (r.state (i + 1)).works (r.state k).nextTask = (r.state i).works (r.state k).nextTask := by
        rw [Balancer.works, Balancer.works, hsame]
      rw [hworks]
      exact hat.congr hring (by rw [Balancer.outcome?, Balancer.outcome?, hsame])
    by_cases hmove : ∃ way, r.action i = .move (r.state k).nextTask way
    · obtain ⟨way, haction⟩ := hmove
      by_cases hworking : (r.state i).works (r.state k).nextTask = []
      · have hblocked : (r.state i).move (r.state k).nextTask way = none := by
          rw [Balancer.move, hworking]
        exact hrests (by rw [state_succ_of_blocked haction hblocked])
      · refine hat.step (r.holds hfixed hlist i) ?_ hworking (haction ▸ r.turn i)
        rw [r.options_state i, listRing]
    · exact hrests (r.task?_succ hlt (fun way haction => hmove ⟨way, haction⟩) (hs.kept i hki hin))

/-- A balancer with a fixed resolver that was started has the ring of the list, as long as it is left alone. -/
theorem ring_of_started (hs : r.Started k n) (hnm : n ≤ m) (halone : r.LeftAlone k m) (hfixed : r.resolver.kind = .fixed)
    (hlist : r.KeepsList) : (r.state m).ring = r.listRing := by
  induction m, hnm using Nat.le_induction with
  | base =>
    have hat := hs.atStart halone hfixed hlist hs.later (Nat.le_refl n)
    rw [Balancer.works_of_task? (task?_of_outcome? hs.done)] at hat
    cases hat with
    | ended published => exact published hs.done
  | succ m hnm ih =>
    have hkm : k ≤ m := Nat.le_trans (Nat.le_of_lt hs.later) hnm
    have hring := ih (fun j hj => halone j (Nat.lt_succ_of_lt hj))
    rcases halone.ring_succ hfixed hlist hkm (Nat.le_succ m) with hsame | hlisted
    · exact hsame.trans hring
    · exact hlisted

/-- A dispatch that failed for lack of endpoints has begun on a ring without any, and had its result in the next state. -/
theorem begins_of_unrouted {j : Nat} {batch : Batch α} {context : DispatchContext}
    (hrequest : r.action j = .request (.dispatch batch context)) (hjm : j < m)
    (houtcome : (r.state m).outcome? (r.state j).nextTask = some (.dispatched (.failed (.routing .noEndpoints)))) :
    ∃ i < m, (r.state i).ring.endpoints = [] ∧
      (r.state (i + 1)).outcome? (r.state j).nextTask = some (.dispatched (.failed (.routing .noEndpoints))) := by
  obtain ⟨task, htask, hstage⟩ := r.stage_of_lt hrequest hjm
  rw [task?_of_outcome? houtcome] at htask
  obtain rfl := Option.some.inj htask
  cases hstage with
  | ended answers =>
    generalize hresult : (DispatchResult.failed (.routing .noEndpoints) : DispatchResult α) = result at answers
    cases answers with
    | empty _ _ => cases hresult
    | overflow _ _ _ _ _ _ _ => cases hresult
    | delivered _ _ _ => exact absurd hresult.symm (result_ne _).1
    | @unrouted i lt before begins items members _ =>
      obtain ⟨way, hmove, hworks⟩ := begins
      refine ⟨i, before, members, ?_⟩
      have hstep : r.state (i + 1) = (r.state i).beginDispatch (r.state j).nextTask [] batch context := by
        rw [state, hmove, Balancer.perform, Balancer.move, hworks]
        rfl
      have hbegin := Balancer.beginDispatch_cases (r.published i).ring (r.state j).nextTask [] batch context
      rw [← hstep] at hbegin
      generalize hnext : r.state (i + 1) = next at hbegin ⊢
      cases hbegin with
      | empty empty => cases items.symm.trans empty
      | unrouted _ _ => exact Balancer.outcome?_finish (Balancer.lt_of_works hworks) _
      | overflow _ occupied _ => exact absurd members occupied
      | deliver _ occupied _ _ _ => exact absurd members occupied

end FixedLists

end Run

end TelemetryRouter
