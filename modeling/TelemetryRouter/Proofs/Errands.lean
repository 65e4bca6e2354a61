import TelemetryRouter.Proofs.Detection

/-!
# The errand from the resolver to the ring

When the balancer is started once and its ring is left to its start and its background task, one task at a time has to do with the ring: the
one that starts the balancer, and then the background task, which that one launches. It opens a mailbox, registers it with the resolver,
reads the list that the resolver knows, and from then on publishes one ring after the other, each for a list that it took out of the
mailbox. All other tasks bring nothing to the ring.
-/

namespace TelemetryRouter

variable {α : Type}

/-- Whether a work has nothing to do with the mailbox of the balancer or its ring. -/
def Work.isAside : Work α → Bool
  | .pass p => p.publish.isNone
  | .resolution _ => true
  | .poll _ => true
  | .awaitEnd _ => true
  | .dispatch _ _ => true
  | .deliver _ _ _ _ => true
  | .exportLeased _ _ _ => true
  | .pause _ => true
  | .succeed => true
  | _ => false

/-- The ring that a pass has still to publish, if any. -/
def Pass.coming? (p : Pass) : Option Ring :=
  match p.phase with
  | .retiring _ _ _ => none
  | _ => p.publish

/-- What a task does for the ring. -/
inductive Errand where
  | idle
  | begins
  | registers (box : MailboxId)
  | reads (box : MailboxId)
  | applies (box : MailboxId) (brings : Option Ring) (launched : Bool)
  | ended

/-- The works of a task with an errand. -/
inductive OnErrand : List (Work α) → Errand → Prop
  | idle {ws : List (Work α)} (h : ∀ w ∈ ws, w.isAside = true) : OnErrand ws .idle
  | begins : OnErrand [.startBalancer] .begins
  | startResolver {box : MailboxId} : OnErrand [.startResolver box, .applyBaseline, .launchConsumer box] (.registers box)
  | baseline {phase : ResolutionPhase} {box : MailboxId} :
    OnErrand [.resolution phase, .registerPoller box, .applyBaseline, .launchConsumer box] (.registers box)
  | register {box : MailboxId} : OnErrand [.registerPoller box, .applyBaseline, .launchConsumer box] (.registers box)
  | reads {box : MailboxId} : OnErrand [.applyBaseline, .launchConsumer box] (.reads box)
  | first {p : Pass} {box : MailboxId} : OnErrand [.pass p, .launchConsumer box] (.applies box p.coming? false)
  | launches {box : MailboxId} : OnErrand [.launchConsumer box] (.applies box none false)
  | pass {p : Pass} {box : MailboxId} {ticker : Option Ticker} {isOpen : Bool} :
    OnErrand [.pass p, .consume box ticker isOpen] (.applies box p.coming? true)
  | consumes {box : MailboxId} {ticker : Option Ticker} {isOpen : Bool} :
    OnErrand [.consume box ticker isOpen] (.applies box none true)
  | ended {ws : List (Work α)} (h : ∀ w ∈ ws, w.isAside = true) : OnErrand ws .ended

/-- A task with an errand that has nothing to do with the ring is idle, or its errand is over. -/
theorem OnErrand.of_isAside {ws : List (Work α)} {errand : Errand} (h : OnErrand ws errand) (hws : ∀ w ∈ ws, w.isAside = true) :
    ∀ ws' : List (Work α), (∀ w ∈ ws', w.isAside = true) → OnErrand ws' errand := by
  intro ws' hws'
  cases h with
  | idle _ => exact .idle hws'
  | ended _ => exact .ended hws'
  | begins => cases hws _ List.mem_cons_self
  | startResolver => cases hws _ List.mem_cons_self
  | baseline => cases hws _ (List.mem_cons_of_mem _ List.mem_cons_self)
  | register => cases hws _ List.mem_cons_self
  | reads => cases hws _ List.mem_cons_self
  | first => cases hws _ (List.mem_cons_of_mem _ List.mem_cons_self)
  | launches => cases hws _ List.mem_cons_self
  | pass => cases hws _ (List.mem_cons_of_mem _ List.mem_cons_self)
  | consumes => cases hws _ List.mem_cons_self

theorem OnErrand.eq_of_applies {ws : List (Work α)} {errand : Errand} {box : MailboxId} {brings : Option Ring}
    (h : OnErrand ws (.applies box brings true)) (h' : OnErrand ws errand) : errand = .applies box brings true := by
  cases h with
  | pass =>
    cases h' with
    | idle haside => cases haside _ (List.mem_cons_of_mem _ List.mem_cons_self)
    | ended haside => cases haside _ (List.mem_cons_of_mem _ List.mem_cons_self)
    | pass => rfl
  | consumes =>
    cases h' with
    | idle haside => cases haside _ List.mem_cons_self
    | ended haside => cases haside _ List.mem_cons_self
    | consumes => rfl

/-- What the balancer has on display: its ring, its background task, the tasks that were asked to end, and the mailbox of its resolver's
subscriber with the task that polls. -/
structure Board where
  ring : Ring
  background : Option TaskId
  stopRequests : List TaskId
  subscriber : Option MailboxId
  poller : Option TaskId

namespace Balancer

/-- What the balancer has on display. -/
def board (b : Balancer α) : Board := ⟨b.ring, b.background, b.stopRequests, b.resolver.subscriber, b.resolver.poller⟩

/-- The ring that is published in an action, if any: a pass publishes the ring that it brings once all its starts are over. -/
def publishes? (b : Balancer α) : Action α → Option Ring
  | .move t _ => match b.works t with
    | .pass p :: _ => match p.phase with
      | .adding _ attempts => if attempts.all Attempt.isOver then p.publish else none
      | _ => none
    | _ => none
  | _ => none

/-- Whether an action leaves the ring to the start of the balancer and its background task, and their mailbox to them. -/
def LeavesRing (b : Balancer α) : Action α → Prop
  | .request .shutdown => False
  | .request (.update _) => False
  | .request (.startResolver _) => False
  | .request .stopResolver => False
  | .abandon t => ∀ w ∈ b.works t, w.isAside = true
  | .receive (some box) => box ∈ b.inboxes
  | _ => True

/-- Whether a task is on an errand, and all others on none. -/
def HasErrand (b : Balancer α) (t : TaskId) (errand : Errand) : Prop :=
  ∀ x, OnErrand (b.works x) (if x = t then errand else .idle)

/-- Mailboxes stay, and those that are not read from outside keep their lists, unless a resolution is about to send one. -/
structure SameMail (b b' : Balancer α) (a : Action α) : Prop where
  grows : b.mailboxes.length ≤ b'.mailboxes.length
  inboxes : ∀ x ∈ b'.inboxes, x ∈ b.inboxes ∨ (x = b.nextMailbox ∧ x < b'.mailboxes.length)
  messages : ∀ x, x ∉ b.inboxes → (∀ endpoints, b.resolving? a ≠ some (.sending x endpoints)) → b'.messages x = b.messages x

/-- How the errand goes on, and by which task, with what is on display afterwards and the ring that is published, if any. -/
inductive Carries (b b' : Balancer α) (a : Action α) : TaskId → Errand → TaskId → Errand → Board → Option Ring → Prop
  | stay {t : TaskId} {errand : Errand} (mail : SameMail b b' a) : Carries b b' a t errand t errand b.board none
  | request {t : TaskId} (action : a = .request .start) (mail : SameMail b b' a) :
    Carries b b' a t .idle b.nextTask .begins b.board none
  | opens {t : TaskId} (opened : b.nextMailbox < b'.mailboxes.length) (inboxes : b'.inboxes = b.inboxes) (mail : SameMail b b' a) :
    Carries b b' a t .begins t (.registers b.nextMailbox) b.board none
  | register {t : TaskId} {box : MailboxId} (mail : SameMail b b' a) :
    Carries b b' a t (.registers box) t (.reads box) { b.board with subscriber := some box, poller := some b.nextTask } none
  | read {t : TaskId} {box : MailboxId} (mail : SameMail b b' a) :
    Carries b b' a t (.reads box) t
      (.applies box (some (Ring.build b.resolver.known b.options.settings.virtualNodes)) false) b.board none
  | publish {t : TaskId} {box : MailboxId} {ring : Ring} {launched : Bool} (action : ∃ way, a = .move t way) (mail : SameMail b b' a) :
    Carries b b' a t (.applies box (some ring) launched) t (.applies box none launched) { b.board with ring := ring } (some ring)
  | launch {t : TaskId} {box : MailboxId} (mail : SameMail b b' a) :
    Carries b b' a t (.applies box none false) b.nextTask (.applies box none true)
      { b.board with background := some b.nextTask } none
  | take {t : TaskId} {box : MailboxId} {endpoints : List Endpoint} (grows : b.mailboxes.length ≤ b'.mailboxes.length)
    (inboxes : b'.inboxes = b.inboxes) (messages : b.messages box = endpoints :: b'.messages box) (resolving : b.resolving? a = none) :
    Carries b b' a t (.applies box none true) t
      (.applies box (some (Ring.build endpoints b.options.settings.virtualNodes)) true) b.board none
  | leave {t : TaskId} {box : MailboxId} (why : b.options.settings.reconcileInterval.isZero = true ∨ t ∈ b.stopRequests)
    (mail : SameMail b b' a) :
    Carries b b' a t (.applies box none true) t .ended b.board none

namespace Carries

variable {b b' : Balancer α} {a : Action α} {t t' : TaskId} {errand errand' : Errand} {board : Board} {ring? : Option Ring}

theorem ring (h : Carries b b' a t errand t' errand' board ring?) : board.ring = ring?.getD b.ring := by
  cases h <;> rfl

/-- A background task stays known, and only a launch makes one known. -/
theorem background (h : Carries b b' a t errand t' errand' board ring?) : board.background = b.background ∨
    ∃ box, errand = .applies box none false ∧ board.background = some t' := by
  cases h with
  | launch mail => exact .inr ⟨_, rfl, rfl⟩
  | _ => exact .inl rfl

/-- Only a registration makes a subscriber known, and the task with the errand reads the list that the resolver knows next. -/
theorem subscriber (h : Carries b b' a t errand t' errand' board ring?) : board.subscriber = b.resolver.subscriber ∨
    ∃ box, errand = .registers box ∧ errand' = .reads box ∧ t' = t ∧ board.subscriber = some box ∧ SameMail b b' a := by
  cases h with
  | register mail => exact .inr ⟨_, rfl, rfl, rfl, rfl, mail⟩
  | _ => exact .inl rfl

theorem stopRequests (h : Carries b b' a t errand t' errand' board ring?) : board.stopRequests = b.stopRequests := by
  cases h <;> rfl

/-- Mailboxes stay, and only new ones are read from outside. -/
theorem mailboxes (h : Carries b b' a t errand t' errand' board ring?) : b.mailboxes.length ≤ b'.mailboxes.length ∧
    ∀ x ∈ b'.inboxes, x ∈ b.inboxes ∨ x < b'.mailboxes.length := by
  have hof : SameMail b b' a → b.mailboxes.length ≤ b'.mailboxes.length ∧
      ∀ x ∈ b'.inboxes, x ∈ b.inboxes ∨ x < b'.mailboxes.length :=
    fun mail => ⟨mail.grows, fun x hx => (mail.inboxes x hx).imp_right And.right⟩
  cases h with
  | take grows inboxes _ _ => exact ⟨grows, fun x hx => .inl (inboxes ▸ hx)⟩
  | opens _ _ mail => exact hof mail
  | leave _ mail => exact hof mail
  | publish _ mail => exact hof mail
  | request _ mail => exact hof mail
  | stay mail => exact hof mail
  | register mail => exact hof mail
  | read mail => exact hof mail
  | launch mail => exact hof mail

/-- An errand is begun by a request for the start of the balancer only. -/
theorem begun (h : Carries b b' a t errand t' errand' board ring?) (hnew : errand' ≠ .idle) :
    errand ≠ .idle ∨ a = .request .start := by
  cases h with
  | stay _ => exact .inl hnew
  | request action _ => exact .inr action
  | _ => exact .inl (fun h => nomatch h)

/-- Until the background task is launched, the errand stays with its task. -/
theorem task (h : Carries b b' a t errand t' errand' board ring?) (hold : errand ≠ .idle) : errand' ≠ .idle ∧
    (t' = t ∨ board.background ≠ none) := by
  cases h with
  | stay _ => exact ⟨hold, .inl rfl⟩
  | request _ _ => exact absurd rfl hold
  | launch _ => exact ⟨(fun h => nomatch h), .inr (Option.some_ne_none _)⟩
  | _ => exact ⟨(fun h => nomatch h), .inl rfl⟩

end Carries

section Errands

variable {b b' : Balancer α} {t x : TaskId} {rest ws started : List (Work α)} {way : Nat} {a : Action α} {errand : Errand}

/-! ## What stays -/

theorem board_of_feed (hfeed : b'.feed = b.feed) (hring : b'.ring = b.ring) : b'.board = b.board := by
  have hresolver : b'.resolver = b.resolver := congrArg Feed.resolver hfeed
  have hbackground : b'.background = b.background := congrArg Feed.background hfeed
  have hasked : b'.stopRequests = b.stopRequests := congrArg Feed.stopRequests hfeed
  rw [board, board, hresolver, hbackground, hasked, hring]

theorem SameMail.of_eq (hmailboxes : b'.mailboxes = b.mailboxes) (hinboxes : b'.inboxes = b.inboxes) : SameMail b b' a where
  grows := Nat.le_of_eq (congrArg List.length hmailboxes.symm)
  inboxes := fun _ hx => .inl (hinboxes ▸ hx)
  messages := fun x _ _ => messages_congr hmailboxes x

theorem SameMail.of_feed (hfeed : b'.feed = b.feed) : SameMail b b' a :=
  .of_eq (congrArg Feed.mailboxes hfeed) (congrArg Feed.inboxes hfeed)

theorem SameMail.of_messages {c : Balancer α} (hlength : c.mailboxes.length = b.mailboxes.length) (hinboxes : c.inboxes = b.inboxes)
    (hmessages : ∀ x, (∀ endpoints, b.resolving? a ≠ some (.sending x endpoints)) → c.messages x = b.messages x) :
    SameMail b c a where
  grows := Nat.le_of_eq hlength.symm
  inboxes := fun _ hx => .inl (hinboxes ▸ hx)
  messages := fun x _ hnot => hmessages x hnot

theorem ResolutionStep.board {phase : ResolutionPhase} (h : ResolutionStep b t rest phase ws b') : b'.board = b.board := by
  have hresolver := h.subscriber_eq
  have hother : b'.ring = b.ring ∧ b'.background = b.background ∧ b'.stopRequests = b.stopRequests := by
    cases h <;> exact ⟨rfl, rfl, rfl⟩
  rw [Balancer.board, Balancer.board, hresolver.1, hresolver.2, hother.1, hother.2.1, hother.2.2]

/-- A step of a resolution leaves the mail, unless it is about to send a list. -/
theorem ResolutionStep.mail {phase : ResolutionPhase} (h : ResolutionStep b t rest phase ws b') (ha : b.resolving? a = some phase) :
    SameMail b b' a := by
  cases h with
  | tell _ => exact .of_messages (List.length_modify _ _ _) rfl (fun x _ => messages_join b _ x t)
  | lose _ => exact .of_messages (List.length_modify _ _ _) rfl (fun x _ => messages_leave b _ x t)
  | @put box endpoints _ ready =>
    refine .of_messages (List.length_modify _ _ _) rfl (fun x hnot => ?_)
    have hne : x ≠ box := by
      rintro rfl
      exact hnot endpoints ha
    exact (messages_put ready endpoints x).trans (if_neg hne)
  | _ => exact .of_eq rfl rfl

/-! ## Tasks that are aside -/

/-- A step of a work that is aside leaves works that are. -/
theorem InertStep.isAside {w : Work α} (hw : w.isAside = true) (hrest : ∀ y ∈ rest, y.isAside = true)
    (h : InertStep b t rest way w ws started b') : (∀ y ∈ ws, y.isAside = true) ∧ started = [] := by
  have hcons : ∀ {y : Work α}, y.isAside = true → ∀ z ∈ y :: rest, z.isAside = true := by
    intro y hy z hz
    rcases List.mem_cons.1 hz with rfl | hz
    · exact hy
    · exact hrest z hz
  cases h with
  | resolution step =>
    refine ⟨?_, rfl⟩
    rcases step.goes with ⟨_, phase', rfl, _⟩ | ⟨_, rfl⟩
    · exact hcons rfl
    · exact hrest
  | poll step =>
    refine ⟨?_, rfl⟩
    cases step with
    | start => exact hcons rfl
    | stop _ => exact hrest
    | poll _ _ works_eq =>
      rw [works_eq]
      intro z hz
      rcases List.mem_cons.1 hz with rfl | hz
      · rfl
      · exact hcons rfl z hz
    | pollOther _ => exact hcons rfl
  | awaitEnd _ => exact ⟨hrest, rfl⟩
  | answer => exact ⟨hrest, rfl⟩
  | dispatch => exact ⟨hcons rfl, rfl⟩
  | pause _ => exact ⟨hrest, rfl⟩
  | succeed => exact ⟨hrest, rfl⟩
  | _ => cases hw

/-- A step of a work that is aside leaves what is on display, and the mail. -/
theorem InertStep.board_and_mail {w : Work α} (hw : w.isAside = true) (hworks : b.works t = w :: rest)
    (hmoves : b.move t way = some b') (h : InertStep b t rest way w ws started b') :
    b'.board = b.board ∧ SameMail b b' (.move t way) := by
  cases h with
  | resolution step =>
    have hresolving := resolving?_of_move hworks hmoves
    exact ⟨step.board, step.mail hresolving⟩
  | poll step => cases step <;> exact ⟨rfl, .of_eq rfl rfl⟩
  | awaitEnd _ => exact ⟨rfl, .of_eq rfl rfl⟩
  | answer => exact ⟨rfl, .of_eq rfl rfl⟩
  | dispatch => exact ⟨rfl, .of_eq rfl rfl⟩
  | pause _ => exact ⟨rfl, .of_eq rfl rfl⟩
  | succeed => exact ⟨rfl, .of_eq rfl rfl⟩
  | _ => cases hw

/-! ## Passes -/

/-- How a step of a pass brings its ring on: what is on display afterwards, the ring that is published, and the works of the task. -/
inductive Brought (b : Balancer α) (p : Pass) (rest : List (Work α)) : Board → Option Ring → List (Work α) → Prop
  | on {p' : Pass} (publish : p'.publish = p.publish) (coming : p'.coming? = p.coming?) :
    Brought b p rest b.board none (.pass p' :: rest)
  | publish {p' : Pass} (publish : p'.publish = p.publish) (before : p.coming? = p.publish) (after : p'.coming? = none) :
    Brought b p rest { b.board with ring := p.publish.getD b.ring } p.publish (.pass p' :: rest)
  | done (gone : p.coming? = none) : Brought b p rest b.board none rest

theorem PassStep.brought {p : Pass} (hw : b.works t = .pass p :: rest) (h : PassStep b t rest p b') (way : Nat) :
    ∃ ws, Leaves b b' t ws [] ∧ Brought b p rest b'.board (b.publishes? (.move t way)) ws ∧ SameMail b b' (.move t way) := by
  have hfeed := h.feed
  have hmail : SameMail b b' (.move t way) := .of_feed hfeed
  have hpublishes : b.publishes? (.move t way) = match p.phase with
      | .adding _ attempts => if attempts.all Attempt.isOver then p.publish else none
      | _ => none := by
    rw [publishes?, hw]
  have ht := lt_of_works hw
  cases h with
  | enter phase _ _ _ =>
    rw [phase] at hpublishes
    refine ⟨_, leaves_withWorks ht rfl _, ?_, hmail⟩
    rw [hpublishes, board_of_feed hfeed rfl]
    exact .on rfl (by rw [Pass.coming?, Pass.coming?, phase])
  | @attempt wanted attempts at_way a a' c phase found _ frame step =>
    have hrunning : attempts.all Attempt.isOver = false := by
      refine Bool.eq_false_iff.2 (fun hall => ?_)
      have hover := List.all_eq_true.1 hall a (List.mem_of_getElem? found)
      rw [Attempt.isOver] at hover
      generalize a.phase = phase at hover step
      generalize a'.phase = phase' at step
      cases step <;> cases hover
    rw [phase] at hpublishes
    refine ⟨_, leaves_withWorks ht frame.tasks _, ?_, hmail⟩
    rw [hpublishes, board_of_feed hfeed frame.ring]
    dsimp only
    rw [hrunning]
    exact .on rfl (by rw [Pass.coming?, Pass.coming?, phase])
  | @publish wanted attempts phase ended =>
    rw [phase] at hpublishes
    refine ⟨_, leaves_withWorks ht rfl _, ?_, hmail⟩
    rw [hpublishes]
    dsimp only
    rw [if_pos ended]
    exact .publish rfl (by rw [Pass.coming?, phase]) rfl
  | retire phase _ _ frame _ _ =>
    rw [phase] at hpublishes
    refine ⟨_, leaves_withWorks ht frame.tasks _, ?_, hmail⟩
    rw [hpublishes, board_of_feed hfeed frame.ring]
    exact .on rfl (by rw [Pass.coming?, Pass.coming?, phase])
  | @conclude added failed retirements phase _ =>
    obtain ⟨metrics, heq⟩ := concludePass_eq b t rest (b.passOutcome added failed retirements)
    rw [phase] at hpublishes
    have hring : (b.concludePass t rest (b.passOutcome added failed retirements)).ring = b.ring := by rw [heq]; rfl
    refine ⟨rest, ?_, ?_, hmail⟩
    · rw [heq]
      exact leaves_finish ht rfl _ _
    · rw [hpublishes, board_of_feed hfeed hring]
      exact .done (by rw [Pass.coming?, phase])

theorem publishes?_of_ne {w : Work α} (hw : b.works t = w :: rest) (hne : ∀ p, w ≠ .pass p) : b.publishes? (.move t way) = none := by
  rw [publishes?, hw]
  cases w with
  | pass p => exact absurd rfl (hne p)
  | _ => rfl

theorem publishes?_of_blocked (hblocked : ∀ t way, a = .move t way → b.move t way = none) : b.publishes? a = none := by
  unfold publishes?
  split
  · rename_i t way
    have hmove := hblocked t way rfl
    split
    · rename_i p rest hw
      split
      · rename_i wanted attempts hphase
        split
        · rename_i hover
          rw [move, hw] at hmove
          simp [step, stepPass, hphase, hover] at hmove
        · rfl
      · rfl
    · rfl
  · rfl

theorem ring_abandon (b : Balancer α) (t : TaskId) : (b.abandon t).ring = b.ring := by
  have hwork : ∀ (w : Work α) (c : Balancer α), (dropWork t c w).ring = c.ring := by
    intro w c
    cases w with
    | resolution phase => cases phase <;> rfl
    | deliver started deadline token parcels => exact (frame_foldl_dropParcel parcels c).ring
    | exportLeased lease batch wake =>
      obtain ⟨d, heq, hframe⟩ := frame_dropWork_exportLeased t c lease batch wake
      rw [heq, (resettles_useLease d lease (· - 1)).ring, hframe.ring]
    | _ => rfl
  exact foldl_dropWork_congr Balancer.ring (fun w _ => hwork w) b

/-! ## All tasks -/

/-- What the start of the balancer relies on: it is the first, and so is that of the resolver. -/
def Ready (b : Balancer α) : Errand → Prop
  | .begins => b.background = none
  | .registers _ => b.resolver.poller = none
  | _ => True

theorem HasErrand.self (h : b.HasErrand t errand) : OnErrand (b.works t) errand := by
  have hself := h t
  rw [if_pos rfl] at hself
  exact hself

theorem HasErrand.other (h : b.HasErrand t errand) (hne : x ≠ t) : ∀ w ∈ b.works x, w.isAside = true := by
  have hother := h x
  rw [if_neg hne] at hother
  generalize b.works x = ws at hother
  cases hother with
  | idle haside => exact haside

theorem HasErrand.of_works (h : b.HasErrand t errand) (hworks : ∀ x, b'.works x = b.works x) : b'.HasErrand t errand := by
  intro x
  rw [hworks x]
  exact h x

/-- A task that is aside stays aside, and the errand stays. -/
theorem HasErrand.of_isAside (h : b.HasErrand t errand) {t₀ : TaskId} (hold : ∀ w ∈ b.works t₀, w.isAside = true)
    (hleaves : Leaves b b' t₀ ws []) (hnew : ∀ w ∈ ws, w.isAside = true) : b'.HasErrand t errand := by
  intro x
  rw [hleaves x]
  split
  · rename_i heq
    exact (h x).of_isAside (heq ▸ hold) ws hnew
  · split
    · refine (h x).of_isAside (fun w hw => ?_) [] (fun _ hw => nomatch hw)
      rename_i heq
      rw [heq, works_nextTask] at hw
      cases hw
    · exact h x

theorem HasErrand.of_leaves (h : b.HasErrand t errand) {errand' : Errand} (hleaves : Leaves b b' t ws started)
    (hnew : OnErrand ws errand') (hstarted : ∀ w ∈ started, w.isAside = true) : b'.HasErrand t errand' := by
  intro x
  rw [hleaves x]
  split
  · exact hnew
  · rename_i hne
    split
    · exact .idle hstarted
    · exact .idle (h.other hne)

/-- The task with the errand hands it to the task that it starts. -/
theorem HasErrand.of_started (h : b.HasErrand t errand) {errand' : Errand} (hne : t ≠ b.nextTask) (hleaves : Leaves b b' t ws started)
    (hnew : ∀ w ∈ ws, w.isAside = true) (hstarted : OnErrand started errand') : b'.HasErrand b.nextTask errand' := by
  intro x
  rw [hleaves x]
  split
  · rename_i heq
    rw [heq, if_neg hne]
    exact .idle hnew
  · split
    · exact hstarted
    · rename_i hother _
      exact .idle (h.other hother)

/-- The background task makes a step between two passes. -/
theorem ConsumeStep.carries {box : MailboxId} {ticker : Option Ticker} {isOpen : Bool}
    (herrands : b.HasErrand t (.applies box none true)) (hw : b.works t = [.consume box ticker isOpen])
    (h : ConsumeStep b t [] box ticker isOpen way ws b') : ∃ errand', b'.HasErrand t errand' ∧
      Carries b b' (.move t way) t (.applies box none true) t errand' b'.board none := by
  have hleaves := (InertStep.consume h).leaves (lt_of_works hw)
  have hnil : ∀ y ∈ ([] : List (Work α)), y.isAside = true := List.forall_mem_nil _
  cases h with
  | start => exact ⟨_, herrands.of_leaves hleaves .consumes hnil, .stay (.of_eq rfl rfl)⟩
  | stop why =>
    exact ⟨_, herrands.of_leaves hleaves (.ended hnil) hnil, .leave (why.imp_right List.contains_iff_mem.1) (.of_eq rfl rfl)⟩
  | @take ticker endpoints mailbox found =>
    have hgrows : b.mailboxes.length ≤ (b.changeMailbox box (fun _ => mailbox)).mailboxes.length :=
      Nat.le_of_eq (List.length_modify _ _ _).symm
    exact ⟨_, herrands.of_leaves hleaves .pass hnil,
      .take hgrows rfl (messages_of_take? found) (resolving?_of_ne hw (fun _ h => nomatch h))⟩
  | close _ _ => exact ⟨_, herrands.of_leaves hleaves .consumes hnil, .stay (.of_eq rfl rfl)⟩
  | refresh _ => exact ⟨_, herrands.of_leaves hleaves .pass hnil, .stay (.of_eq rfl rfl)⟩

/-- The task with the errand makes a step of an inert work. -/
theorem InertStep.carries (hkind : b.resolver.kind.isPolling = true) (hready : b.Ready errand)
    (herrands : b.HasErrand t errand) {w : Work α} (hw : b.works t = w :: rest)
    (haside : ¬∀ y ∈ w :: rest, y.isAside = true) (hmoves : b.move t way = some b')
    (h : InertStep b t rest way w ws started b') :
    ∃ t' errand', b'.HasErrand t' errand' ∧
      Carries b b' (.move t way) t errand t' errand' b'.board (b.publishes? (.move t way)) := by
  have hleaves := h.leaves (lt_of_works hw)
  have hnil : ∀ y ∈ ([] : List (Work α)), y.isAside = true := List.forall_mem_nil _
  have hkinds : ∀ {q : Prop}, b.resolver.kind.isPolling = false → q := fun h => by
    rw [hkind] at h
    cases h
  have herrand := herrands.self
  rw [hw] at herrand
  rw [publishes?_of_ne hw (fun p hp => by
    subst hp
    cases h)]
  cases herrand with
  | idle hall => exact absurd hall haside
  | ended hall => exact absurd hall haside
  | begins =>
    cases h with
    | refuseBalancer known =>
      rw [show b.background = none from hready] at known
      cases known
    | startBalancer _ =>
      have hgrows := b.lt_length_openMailbox updateCapacity
      have hmessages := b.messages_openMailbox updateCapacity
      exact ⟨t, _, herrands.of_leaves hleaves .startResolver hnil,
        .opens hgrows rfl ⟨Nat.le_of_lt hgrows, fun _ hx => .inl hx, fun x _ _ => hmessages x⟩⟩
  | startResolver =>
    cases h with
    | startFixed kind => exact hkinds kind
    | startManual kind => exact hkinds kind
    | refuseResolver why =>
      have hpolled := (why hkind).1
      rw [show b.resolver.poller = none from hready] at hpolled
      cases hpolled
    | startResolver _ _ =>
      exact ⟨t, _, herrands.of_leaves hleaves .baseline hnil, .stay (.of_eq rfl rfl)⟩
  | baseline =>
    cases h with
    | resolution step =>
      have hmail := step.mail (resolving?_of_move hw hmoves)
      rw [step.board]
      rcases step.goes with ⟨_, phase', rfl, _⟩ | ⟨_, rfl⟩
      · exact ⟨t, _, herrands.of_leaves hleaves .baseline hnil, .stay hmail⟩
      · exact ⟨t, _, herrands.of_leaves hleaves .register hnil, .stay hmail⟩
  | register =>
    cases h with
    | registerPoller =>
      exact ⟨t, _, herrands.of_leaves hleaves .reads (List.forall_mem_singleton.2 rfl), .register (.of_eq rfl rfl)⟩
  | reads =>
    cases h with
    | applyBaseline => exact ⟨t, _, herrands.of_leaves hleaves .first hnil, .read (.of_eq rfl rfl)⟩
  | first => cases h
  | launches =>
    cases h with
    | launchConsumer =>
      exact ⟨b.nextTask, _, herrands.of_started (Nat.ne_of_lt (lt_of_works hw)) hleaves hnil .consumes, .launch (.of_eq rfl rfl)⟩
  | pass => cases h
  | consumes =>
    cases h with
    | consume step => exact ⟨t, step.carries herrands hw⟩

theorem PassStep.carries (herrands : b.HasErrand t errand) {p : Pass}
    (hw : b.works t = .pass p :: rest) (haside : ¬∀ y ∈ Work.pass p :: rest, y.isAside = true)
    (h : PassStep b t rest p b') (way : Nat) :
    ∃ errand', b'.HasErrand t errand' ∧
      Carries b b' (.move t way) t errand t errand' b'.board (b.publishes? (.move t way)) := by
  obtain ⟨ws, hleaves, hbrought, hmail⟩ := h.brought hw way
  have hnil : ∀ y ∈ ([] : List (Work α)), y.isAside = true := List.forall_mem_nil _
  have herrand := herrands.self
  rw [hw] at herrand
  -- Whatever stands under the pass, the errand is to bring the ring of the pass, and goes on with what stands under it.
  have hgoes : ∀ {box : MailboxId} {launched : Bool}, errand = .applies box p.coming? launched →
      (∀ q : Pass, OnErrand (.pass q :: rest) (.applies box q.coming? launched)) → OnErrand rest (.applies box none launched) →
      ∃ errand', b'.HasErrand t errand' ∧
        Carries b b' (.move t way) t errand t errand' b'.board (b.publishes? (.move t way)) := by
    intro box launched herrand hpass hrest
    subst herrand
    generalize b'.board = board at hbrought ⊢
    generalize b.publishes? (.move t way) = published at hbrought ⊢
    cases hbrought with
    | @on p' _ coming =>
      refine ⟨_, herrands.of_leaves hleaves (hpass p') hnil, ?_⟩
      rw [coming]
      exact .stay hmail
    | @publish p' _ before after =>
      have hnew := hpass p'
      rw [after] at hnew
      refine ⟨_, herrands.of_leaves hleaves hnew hnil, ?_⟩
      rw [before]
      cases p.publish with
      | none => exact .stay hmail
      | some ring => exact .publish ⟨way, rfl⟩ hmail
    | done gone =>
      refine ⟨_, herrands.of_leaves hleaves hrest hnil, ?_⟩
      rw [gone]
      exact .stay hmail
  cases herrand with
  | idle hall => exact absurd hall haside
  | ended hall => exact absurd hall haside
  | first => exact hgoes rfl (fun _ => .first) .launches
  | pass => exact hgoes rfl (fun _ => .pass) .consumes

/-! ## Actions that have nothing to do with the ring -/

/-- An action that leaves what is on display, publishes nothing, and leaves every task on its errand. -/
structure Unrelated (b b' : Balancer α) (a : Action α) : Prop where
  errands : ∀ {t : TaskId} {errand : Errand}, b.HasErrand t errand → b'.HasErrand t errand
  board : b'.board = b.board
  published : b.publishes? a = none
  mail : SameMail b b' a

namespace Unrelated

theorem carries (h : Unrelated b b' a) (herrands : b.HasErrand t errand) : b'.HasErrand t errand ∧
    Carries b b' a t errand t errand b'.board (b.publishes? a) := by
  rw [h.board, h.published]
  exact ⟨h.errands herrands, .stay h.mail⟩

/-- A step of a work is unrelated if all works of the task are aside. -/
theorem of_inert {w : Work α} (hw : b.works t = w :: rest) (haside : ∀ y ∈ w :: rest, y.isAside = true)
    (hmoves : b.move t way = some b') (h : InertStep b t rest way w ws started b') : Unrelated b b' (.move t way) := by
  have hself := haside w List.mem_cons_self
  obtain ⟨hnew, rfl⟩ := h.isAside hself (fun y hy => haside y (List.mem_cons_of_mem _ hy))
  obtain ⟨hboard, hmail⟩ := h.board_and_mail hself hw hmoves
  refine ⟨fun herrands => ?_, hboard, publishes?_of_ne hw (fun p hp => ?_), hmail⟩
  · exact herrands.of_isAside (hw ▸ haside) (h.leaves (lt_of_works hw)) hnew
  · subst hp
    cases h

/-- A step of a pass is unrelated if the pass brings no ring. -/
theorem of_pass {p : Pass} (hw : b.works t = .pass p :: rest) (haside : ∀ y ∈ Work.pass p :: rest, y.isAside = true)
    (h : PassStep b t rest p b') (way : Nat) : Unrelated b b' (.move t way) := by
  obtain ⟨ws, hleaves, hbrought, hmail⟩ := h.brought hw way
  have hrest : ∀ y ∈ rest, y.isAside = true := fun y hy => haside y (List.mem_cons_of_mem _ hy)
  have hnone : p.publish = none := Option.isNone_iff_eq_none.1 (haside _ List.mem_cons_self)
  have hcons : ∀ {p' : Pass}, p'.publish = p.publish → ∀ y ∈ Work.pass p' :: rest, y.isAside = true := by
    intro p' hp' y hy
    rcases List.mem_cons.1 hy with rfl | hy
    · exact Option.isNone_iff_eq_none.2 (hp'.trans hnone)
    · exact hrest y hy
  have hgoes : (∀ y ∈ ws, y.isAside = true) ∧ b'.board = b.board ∧ b.publishes? (.move t way) = none := by
    generalize b'.board = board at hbrought
    generalize b.publishes? (.move t way) = published at hbrought
    cases hbrought with
    | on publish _ => exact ⟨hcons publish, rfl, rfl⟩
    | publish publish _ _ => exact ⟨hcons publish, by rw [hnone]; rfl, hnone⟩
    | done _ => exact ⟨hrest, rfl, rfl⟩
  exact ⟨fun herrands => herrands.of_isAside (hw ▸ haside) hleaves hgoes.1, hgoes.2.1, hgoes.2.2, hmail⟩

theorem of_exports {w : Work α} (hw : b.works t = w :: rest) (haside : ∀ y ∈ w :: rest, y.isAside = true)
    (hnoPass : ∀ p, w ≠ .pass p) (h : Exporting b b' t rest ws) : Unrelated b b' (.move t way) := by
  have hrest : ∀ y ∈ rest, y.isAside = true := fun y hy => haside y (List.mem_cons_of_mem _ hy)
  have hnew : ∀ y ∈ ws, y.isAside = true := by
    rcases h.goes with rfl | ⟨w', rfl, hduty, hnoPass'⟩
    · exact hrest
    · intro y hy
      rcases List.mem_cons.1 hy with rfl | hy
      · cases y with
        | pass p => exact absurd rfl (hnoPass' p)
        | deliver _ _ _ _ => rfl
        | exportLeased _ _ _ => rfl
        | _ => cases hduty
      · exact hrest y hy
  exact ⟨fun herrands => herrands.of_isAside (hw ▸ haside) h.leaves hnew, board_of_feed h.feed h.ring, publishes?_of_ne hw hnoPass,
    .of_feed h.feed⟩

/-- Giving a task up is unrelated if its works are aside. -/
theorem of_abandon (hadmits : b.Admits (.abandon t)) (haside : ∀ w ∈ b.works t, w.isAside = true) :
    Unrelated b (b.abandon t) (.abandon t) := by
  have hfeed := feed_abandon b (t := t) (fun w hw => not_isAwaited_of_isApart (hadmits w hw))
  refine ⟨fun herrands x => ?_, board_of_feed hfeed (ring_abandon b t), rfl, .of_feed hfeed⟩
  rw [works_abandon]
  split
  · rename_i heq
    exact (herrands x).of_isAside (heq ▸ haside) [] (fun _ hw => nomatch hw)
  · exact herrands x

theorem of_answer (answers : List SourceAnswer) : Unrelated b (b.extendScript answers) (.answer answers) := by
  refine ⟨fun herrands => herrands.of_works (fun _ => rfl), ?_, rfl, .of_eq rfl rfl⟩
  have hdesk := desk_extendScript b answers
  rw [Balancer.board, Balancer.board]
  exact congrArg (fun desk : Desk => Board.mk b.ring b.background b.stopRequests desk.subscriber desk.poller) hdesk

theorem of_openInbox (capacity : Nat) : Unrelated b (b.openInbox capacity).1 (.openInbox capacity) := by
  have hgrows : b.mailboxes.length < (b.openInbox capacity).1.mailboxes.length := b.lt_length_openMailbox capacity
  refine ⟨fun herrands => herrands.of_works (fun _ => rfl), rfl, rfl, Nat.le_of_lt hgrows, fun x hx => ?_, ?_⟩
  · rcases List.mem_append.1 (show x ∈ b.inboxes ++ [b.nextMailbox] from hx) with hx | hx
    · exact .inl hx
    · refine .inr ⟨List.mem_singleton.1 hx, ?_⟩
      rw [List.mem_singleton.1 hx]
      exact hgrows
  · exact fun x _ _ => messages_openMailbox b capacity x

theorem of_receive {box : Option MailboxId} (hinbox : b.LeavesRing (.receive box)) :
    Unrelated b (b.receive box).2.2 (.receive box) := by
  cases box with
  | none => exact ⟨fun herrands => herrands.of_works (fun _ => rfl), rfl, rfl, .of_eq rfl rfl⟩
  | some box =>
    refine ⟨fun herrands => herrands.of_works (fun _ => rfl), rfl, rfl, ?_, fun x hx => .inl hx, fun x hx _ => ?_⟩
    · exact Nat.le_of_eq (List.length_modify _ _ _).symm
    · have hne : x ≠ box := fun heq => hx (heq ▸ hinbox)
      exact (messages_changeMailbox b box _ x).trans (if_neg hne)

end Unrelated

/-! ## Requests -/

/-- The works with which a request begins that leaves the ring alone are aside, unless it starts the balancer. -/
theorem isAside_begun {r : Request α} (hadmits : b.Admits (.request r)) (hleaves : b.LeavesRing (.request r)) (hr : r ≠ .start) :
    ∀ w ∈ b.begun r, w.isAside = true := by
  intro w hw
  cases r with
  | start => exact absurd rfl hr
  | shutdown => exact absurd hleaves id
  | update endpoints => exact absurd hleaves id
  | startResolver box => exact absurd hleaves id
  | stopResolver => exact absurd hleaves id
  | push endpoints => exact absurd hadmits id
  | resolve =>
    rw [begun] at hw
    split at hw
    · rw [List.mem_singleton.1 hw]
      rfl
    · cases hw
  | _ =>
    rw [List.mem_singleton.1 hw]
    rfl

theorem board_and_mail_request (hkind : b.resolver.kind.isPolling = true) (r : Request α) :
    (b.request r).1.board = b.board ∧ SameMail b (b.request r).1 (.request r) := by
  have hring := ring_request b r
  by_cases hr : r = .resolve
  · subst hr
    have hfeed := feed_request_resolve b hkind
    refine ⟨?_, .of_eq (congrArg Feed.mailboxes hfeed) (congrArg Feed.inboxes hfeed)⟩
    rw [board, board, hring]
    show Board.mk _ (b.request .resolve).1.feed.background (b.request .resolve).1.feed.stopRequests
      (b.request .resolve).1.feed.resolver.subscriber (b.request .resolve).1.feed.resolver.poller = _
    rw [hfeed]
    rfl
  · have hfeed := feed_request b hr
    exact ⟨board_of_feed hfeed hring, .of_feed hfeed⟩

/-- A request is unrelated if it leaves the ring alone and does not start the balancer. -/
theorem Unrelated.of_request (hkind : b.resolver.kind.isPolling = true) {r : Request α} (hadmits : b.Admits (.request r))
    (hleaves : b.LeavesRing (.request r)) (hr : r ≠ .start) : Unrelated b (b.request r).1 (.request r) := by
  obtain ⟨hboard, hmail⟩ := board_and_mail_request hkind r
  refine ⟨fun herrands x => ?_, hboard, rfl, hmail⟩
  rw [works_request b r x]
  split
  · rename_i heq
    refine (herrands x).of_isAside (fun w hw => ?_) _ (isAside_begun hadmits hleaves hr)
    rw [heq, works_nextTask] at hw
    cases hw
  · exact herrands x

theorem carries_start (hkind : b.resolver.kind.isPolling = true) (herrands : b.HasErrand t .idle) :
    (b.request .start).1.HasErrand b.nextTask .begins ∧
      Carries b (b.request .start).1 (.request .start) t .idle b.nextTask .begins (b.request .start).1.board none := by
  obtain ⟨hboard, hmail⟩ := board_and_mail_request hkind (.start : Request α)
  refine ⟨fun x => ?_, ?_⟩
  · rw [works_request b .start x]
    split
    · exact .begins
    · have hx := herrands x
      rw [ite_self] at hx
      exact hx
  · rw [hboard]
    exact .request rfl hmail

/-! ## All actions -/

theorem Turn.carries (hkind : b.resolver.kind.isPolling = true) (hadmits : b.Admits a) (hring : b.LeavesRing a)
    (hstart : a = .request .start → errand = .idle) (hready : b.Ready errand) (herrands : b.HasErrand t errand) (h : Turn b a b') :
    ∃ t' errand', b'.HasErrand t' errand' ∧ Carries b b' a t errand t' errand' b'.board (b.publishes? a) := by
  have hstay : Unrelated b b' a →
      ∃ t' errand', b'.HasErrand t' errand' ∧ Carries b b' a t errand t' errand' b'.board (b.publishes? a) :=
    fun hunrelated => ⟨t, errand, hunrelated.carries herrands⟩
  have hself : ∀ {t₀ : TaskId} {ws : List (Work α)}, b.works t₀ = ws → (¬∀ y ∈ ws, y.isAside = true) → t₀ = t := by
    intro t₀ ws hw haside
    by_contra hne
    exact haside (hw ▸ herrands.other hne)
  cases h with
  | @inert t₀ way w rest ws started _ works _ moves step _ =>
    by_cases haside : ∀ y ∈ w :: rest, y.isAside = true
    · exact hstay (.of_inert works haside moves step)
    · obtain rfl := hself works haside
      exact step.carries hkind hready herrands works haside moves
  | @pass t₀ way p rest _ works _ step =>
    by_cases haside : ∀ y ∈ Work.pass p :: rest, y.isAside = true
    · exact hstay (.of_pass works haside step way)
    · obtain rfl := hself works haside
      exact ⟨t₀, step.carries herrands works haside way⟩
  | @exports t₀ way w rest ws _ works duty noPass _ exporting =>
    refine hstay (.of_exports works ?_ noPass exporting)
    by_contra haside
    obtain rfl := hself works haside
    have herrand := herrands.self
    rw [works] at herrand
    cases herrand with
    | idle hall => exact haside hall
    | ended hall => exact haside hall
    | first => exact noPass _ rfl
    | pass => exact noPass _ rfl
    | _ => cases duty
  | @request r _ =>
    by_cases hr : r = .start
    · subst hr
      obtain rfl := hstart rfl
      exact ⟨_, _, carries_start hkind herrands⟩
    · exact hstay (.of_request hkind hadmits hring hr)
  | abandon => exact hstay (.of_abandon hadmits hring)
  | @answer answers => exact hstay (.of_answer answers)
  | unsubscribe => exact absurd hadmits id
  | @openInbox capacity => exact hstay (.of_openInbox capacity)
  | @keepInboxes keep =>
    exact hstay ⟨fun herrands => herrands.of_works (fun _ => rfl), rfl, rfl, Nat.le_refl _,
      fun x hx => .inl (List.mem_filter.1 hx).1, fun _ _ _ => rfl⟩
  | receive => exact hstay (.of_receive hring)
  | still blocked works feed ring =>
    exact hstay ⟨fun herrands => herrands.of_works works, board_of_feed feed ring, publishes?_of_blocked blocked, .of_feed feed⟩

end Errands

end Balancer

end TelemetryRouter
