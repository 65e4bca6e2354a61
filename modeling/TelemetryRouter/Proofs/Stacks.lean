import TelemetryRouter.Proofs.Turns

/-!
# The stacks of discovery

When the resolver polls, is driven by starts, stops and resolutions only, and none of these is given up half way, the works of a task
that have to do with it form one of a few stacks. So an action either makes a step of a resolution, or rearranges one such
stack: then no answer comes in, no list gets into a mailbox, and what the resolver knows stays the same.
-/

namespace TelemetryRouter

variable {α : Type}

/-- Whether a work has nothing to do with the resolver. -/
def Work.isApart : Work α → Bool
  | .resolution _ => false
  | .startResolver _ => false
  | .registerPoller _ => false
  | .stopResolver => false
  | .forgetSubscriber => false
  | .startBalancer => false
  | .poll _ => false
  | .push _ => false
  | .send _ _ => false
  | _ => true

/-- The works that a task can have in a run of a polling resolver. -/
inductive Stack : List (Work α) → Prop
  | apart {ws : List (Work α)} (h : ∀ w ∈ ws, w.isApart = true) : Stack ws
  | resolve {phase : ResolutionPhase} : Stack [.resolution phase]
  | polls {ticker : Option Ticker} : Stack [.poll ticker]
  | poll {phase : ResolutionPhase} {ticker : Ticker} : Stack [.resolution phase, .poll (some ticker)]
  | startBalancer : Stack [.startBalancer]
  | startResolver {box : MailboxId} {rest : List (Work α)} (h : ∀ w ∈ rest, w.isApart = true) : Stack (.startResolver box :: rest)
  | baseline {phase : ResolutionPhase} {box : MailboxId} {rest : List (Work α)} (h : ∀ w ∈ rest, w.isApart = true) :
    Stack (.resolution phase :: .registerPoller box :: rest)
  | register {box : MailboxId} {rest : List (Work α)} (h : ∀ w ∈ rest, w.isApart = true) : Stack (.registerPoller box :: rest)
  | stopResolver {rest : List (Work α)} (h : ∀ w ∈ rest, w.isApart = true) : Stack (.stopResolver :: rest)
  | awaitPolls {task : TaskId} {rest : List (Work α)} (h : ∀ w ∈ rest, w.isApart = true) :
    Stack (.awaitEnd task :: .forgetSubscriber :: rest)
  | forget {rest : List (Work α)} (h : ∀ w ∈ rest, w.isApart = true) : Stack (.forgetSubscriber :: rest)

/-- Under a work that has nothing to do with the resolver there is no other, unless the end of the polls is waited for. -/
theorem Stack.apart_or_awaitPolls {w : Work α} {rest : List (Work α)} (h : Stack (w :: rest)) (hw : w.isApart = true) :
    (∀ x ∈ rest, x.isApart = true) ∨ ∃ task rest', w = .awaitEnd task ∧ rest = .forgetSubscriber :: rest' ∧
      ∀ x ∈ rest', x.isApart = true := by
  cases h with
  | apart h => exact .inl (fun x hx => h x (List.mem_cons_of_mem _ hx))
  | awaitPolls h => exact .inr ⟨_, _, rfl, rfl, h⟩
  | _ => cases hw

/-- Works that are not about the resolver stand on no others that are, unless the first waits for the end of the polls. -/
theorem Stack.apart_rest {w : Work α} {rest : List (Work α)} (h : Stack (w :: rest)) (hw : w.isApart = true)
    (hne : ∀ task, w ≠ .awaitEnd task) : ∀ x ∈ rest, x.isApart = true := by
  rcases h.apart_or_awaitPolls hw with hrest | ⟨task, _, heq, _⟩
  · exact hrest
  · exact absurd heq (hne task)

/-- What the resolver has for others: the mailbox of its subscriber, the task that polls, and the gate for resolutions. -/
structure Desk where
  subscriber : Option MailboxId
  poller : Option TaskId
  gate : Gate

/-- Whether a request starts or stops the resolver, alone or with the balancer. -/
def Request.isLifecycle : Request α → Bool
  | .start => true
  | .shutdown => true
  | .startResolver _ => true
  | .stopResolver => true
  | _ => false

namespace Balancer

/-- What the resolver has for others. -/
def desk (b : Balancer α) : Desk := ⟨b.resolver.subscriber, b.resolver.poller, b.resolver.gate⟩

/-- The lists in a mailbox, the first that was put first. -/
def messages (b : Balancer α) (box : MailboxId) : List (List Endpoint) := ((b.mailboxes[box]?).map Mailbox.messages).getD []

/-- Whether an action leaves the resolver to its starts, stops and resolutions, and gives none of these up. -/
def Admits (b : Balancer α) : Action α → Prop
  | .request (.push _) => False
  | .unsubscribe => False
  | .abandon t => ∀ w ∈ b.works t, w.isApart = true
  | _ => True

/-- The resolution that an action brings on, if any: its phase before. -/
def resolving? (b : Balancer α) : Action α → Option ResolutionPhase
  | .move t way => match b.works t with
    | .resolution phase :: _ => if (b.move t way).isSome then some phase else none
    | _ => none
  | _ => none

/-- No answer comes in, and no list is put into a mailbox. -/
structure Hushed (b b' : Balancer α) : Prop where
  known : b'.resolver.known = b.resolver.known
  name : b'.resolver.name = b.resolver.name
  polling : b'.resolver.kind.isPolling = b.resolver.kind.isPolling
  resolutions : b'.metrics.resolutions = b.metrics.resolutions
  messages : ∀ box, ∃ k, b'.messages box = (b.messages box).drop k

/-- How an action other than a step of a resolution rearranges the works of a task, with the works of a task that it starts and what
the resolver has for others then. -/
inductive Rearranges (b : Balancer α) (t : TaskId) : Action α → List (Work α) → List (Work α) → List (Work α) → Desk → Prop
  | apart {a : Action α} {old new started : List (Work α)} (before : ∀ w ∈ old, w.isApart = true)
    (after : ∀ w ∈ new, w.isApart = true) (beside : ∀ w ∈ started, w.isApart = true) : Rearranges b t a old new started b.desk
  | resolve (fresh : t = b.nextTask) :
    Rearranges b t (.request .resolve) [] [.resolution .queued] [] { b.desk with gate := b.desk.gate.join t }
  | lifecycle {r : Request α} {new : List (Work α)} (fresh : t = b.nextTask) (lifecycle : r.isLifecycle = true)
    (begins : new = [.startBalancer] ∨ (∃ box, new = [.startResolver box]) ∨
      ∃ rest, (∀ w ∈ rest, w.isApart = true) ∧ new = .stopResolver :: rest) :
    Rearranges b t (.request r) [] new [] b.desk
  | startBalancer {way : Nat} {box : MailboxId} {rest : List (Work α)} (h : ∀ w ∈ rest, w.isApart = true) :
    Rearranges b t (.move t way) [.startBalancer] (.startResolver box :: rest) [] b.desk
  | refuse {way : Nat} {w : Work α} {rest : List (Work α)} (refused : w = .startBalancer ∨ ∃ box, w = .startResolver box) :
    Rearranges b t (.move t way) (w :: rest) [] [] b.desk
  | startResolver {way : Nat} {box : MailboxId} {rest : List (Work α)} (h : ∀ w ∈ rest, w.isApart = true)
    (unpolled : b.desk.poller = none) :
    Rearranges b t (.move t way) (.startResolver box :: rest) (.resolution .queued :: .registerPoller box :: rest) []
      { b.desk with gate := b.desk.gate.join t }
  | register {way : Nat} {box : MailboxId} {rest : List (Work α)} (h : ∀ w ∈ rest, w.isApart = true) :
    Rearranges b t (.move t way) (.registerPoller box :: rest) rest [.poll none]
      { b.desk with subscriber := some box, poller := some b.nextTask }
  | stopPolls {way : Nat} {task : TaskId} {rest : List (Work α)} (h : ∀ w ∈ rest, w.isApart = true)
    (polled : b.desk.poller = some task) :
    Rearranges b t (.move t way) (.stopResolver :: rest) (.awaitEnd task :: .forgetSubscriber :: rest) []
      { b.desk with poller := none }
  | stopUnpolled {way : Nat} {rest : List (Work α)} (h : ∀ w ∈ rest, w.isApart = true) (unpolled : b.desk.poller = none) :
    Rearranges b t (.move t way) (.stopResolver :: rest) (.forgetSubscriber :: rest) [] b.desk
  | awaitPolls {way : Nat} {task : TaskId} {rest : List (Work α)} (h : ∀ w ∈ rest, w.isApart = true)
    (ended : b.hasEnded task = true) :
    Rearranges b t (.move t way) (.awaitEnd task :: .forgetSubscriber :: rest) (.forgetSubscriber :: rest) [] b.desk
  | forget {way : Nat} {rest : List (Work α)} (h : ∀ w ∈ rest, w.isApart = true) :
    Rearranges b t (.move t way) (.forgetSubscriber :: rest) rest [] { b.desk with subscriber := none }
  | beginPolls {way : Nat} {ticker : Ticker} : Rearranges b t (.move t way) [.poll none] [.poll (some ticker)] [] b.desk
  | endPolls {way : Nat} {ticker : Option Ticker} : Rearranges b t (.move t way) [.poll ticker] [] [] b.desk
  | poll {way : Nat} {ticker ticker' : Ticker} :
    Rearranges b t (.move t way) [.poll (some ticker)] [.resolution .queued, .poll (some ticker')] []
      { b.desk with gate := b.desk.gate.join t }

/-- What an action does to a polling resolver. -/
inductive Stir (b : Balancer α) : Action α → Balancer α → Prop
  | resolution {t : TaskId} {way : Nat} {phase : ResolutionPhase} {rest ws : List (Work α)} {b' : Balancer α}
    (works : b.works t = .resolution phase :: rest) (resolving : b.resolving? (.move t way) = some phase)
    (step : ResolutionStep b t rest phase ws b') : Stir b (.move t way) b'
  | rearrange {a : Action α} {t : TaskId} {old new started : List (Work α)} {b' : Balancer α}
    (resolving : b.resolving? a = none) (works : b.works t = old) (leaves : Leaves b b' t new started) (hushed : Hushed b b')
    (rearranges : Rearranges b t a old new started b'.desk) : Stir b a b'

/-! ## Hushed changes -/

section Stacks

variable {b b' : Balancer α} {t : TaskId} {rest : List (Work α)} {way : Nat}

theorem messages_of_getElem? {box : MailboxId} {m : Mailbox (List Endpoint)} (h : b.mailboxes[box]? = some m) :
    b.messages box = m.messages := by
  rw [messages, h]
  rfl

theorem lt_length_openMailbox (b : Balancer α) (capacity : Nat) :
    b.mailboxes.length < (b.openMailbox capacity).mailboxes.length := by
  rw [openMailbox, List.length_append]
  exact Nat.lt_succ_self _

/-- A new mailbox is empty, and the others are as before. -/
theorem messages_openMailbox (b : Balancer α) (capacity : Nat) (box : MailboxId) :
    (b.openMailbox capacity).messages box = b.messages box := by
  rw [messages, messages, openMailbox]
  rcases Nat.lt_trichotomy box b.mailboxes.length with hlt | heq | hgt
  · rw [List.getElem?_append_left hlt]
  · rw [heq, List.getElem?_append_right (Nat.le_refl _), Nat.sub_self, List.getElem?_eq_none (Nat.le_refl _)]
    rfl
  · rw [List.getElem?_eq_none (Nat.le_of_lt hgt), List.getElem?_eq_none]
    rw [List.length_append, List.length_singleton]
    exact hgt

/-- The messages of a mailbox after one mailbox was changed. -/
theorem messages_changeMailbox (b : Balancer α) (box : MailboxId) (f : Mailbox (List Endpoint) → Mailbox (List Endpoint))
    (box' : MailboxId) : (b.changeMailbox box f).messages box' =
      if box' = box then ((b.mailboxes[box]?).map (fun m => (f m).messages)).getD [] else b.messages box' := by
  rw [messages, messages, changeMailbox, List.getElem?_modify]
  by_cases heq : box' = box
  · subst heq
    cases b.mailboxes[box']? <;> simp
  · simp [heq, Ne.symm heq]

/-- The messages of all mailboxes are as before as long as the mailboxes are. -/
theorem messages_congr (h : b'.mailboxes = b.mailboxes) (box : MailboxId) : b'.messages box = b.messages box := by
  rw [messages, messages, h]

/-- The feed tells that no answer comes in and that no list is put into a mailbox. -/
theorem Hushed.of_feed (h : b'.feed = b.feed) : Hushed b b' := by
  have hresolver : b'.resolver = b.resolver := congrArg Feed.resolver h
  exact ⟨congrArg Resolver.known hresolver, congrArg Resolver.name hresolver,
    congrArg (fun r => r.kind.isPolling) hresolver, congrArg Feed.resolutions h,
    fun box => ⟨0, messages_congr (congrArg Feed.mailboxes h) box⟩⟩

/-- The same from the parts of the state, if the messages are all there. -/
theorem Hushed.of_eq (hknown : b'.resolver.known = b.resolver.known) (hkind : b'.resolver.kind = b.resolver.kind)
    (hmetrics : b'.metrics = b.metrics) (hmessages : ∀ box, ∃ k, b'.messages box = (b.messages box).drop k) : Hushed b b' where
  known := hknown
  name := by rw [Resolver.name, Resolver.name, hkind]
  polling := by rw [hkind]
  resolutions := by rw [hmetrics]
  messages := hmessages

theorem hushed_extendScript (b : Balancer α) (answers : List SourceAnswer) : Hushed b (b.extendScript answers) := by
  have hresolver : ∀ r : Resolver, (r.extendScript answers).known = r.known ∧ (r.extendScript answers).name = r.name ∧
      (r.extendScript answers).kind.isPolling = r.kind.isPolling := by
    intro r
    unfold Resolver.extendScript
    split
    · rename_i source interval timeout hkind
      refine ⟨rfl, ?_, ?_⟩
      · rw [Resolver.name, Resolver.name, hkind]
      · rw [hkind]
        rfl
    · exact ⟨rfl, rfl, rfl⟩
  obtain ⟨hknown, hname, hpolling⟩ := hresolver b.resolver
  exact ⟨hknown, hname, hpolling, rfl, fun box => ⟨0, rfl⟩⟩

theorem desk_extendScript (b : Balancer α) (answers : List SourceAnswer) : (b.extendScript answers).desk = b.desk := by
  unfold desk extendScript Resolver.extendScript
  dsimp only
  split <;> rfl

/-- Emptying a mailbox from outside puts nothing into one. -/
theorem hushed_receive (b : Balancer α) (box : Option MailboxId) : Hushed b (b.receive box).2.2 := by
  cases box with
  | none => exact .of_feed rfl
  | some box =>
    refine .of_eq rfl rfl rfl (fun box' => ?_)
    show ∃ k, (b.changeMailbox box (fun m => m.takeAll.2)).messages box' = (b.messages box').drop k
    rw [messages_changeMailbox]
    split
    · refine ⟨(b.messages box').length, ?_⟩
      rw [List.drop_length]
      cases b.mailboxes[box]? <;> rfl
    · exact ⟨0, rfl⟩

theorem messages_of_take? {box : MailboxId} {endpoints : List Endpoint} {mailbox : Mailbox (List Endpoint)}
    (found : (b.mailboxes[box]?).bind Mailbox.take? = some (endpoints, mailbox)) :
    b.messages box = endpoints :: (b.changeMailbox box (fun _ => mailbox)).messages box := by
  obtain ⟨m, hm, htake⟩ := Option.bind_eq_some_iff.1 found
  rw [messages_changeMailbox, if_pos rfl, hm, messages_of_getElem? hm]
  unfold Mailbox.take? at htake
  split at htake
  · cases htake
  · rename_i message others hmessages
    cases htake
    exact hmessages

/-- Taking a list out of a mailbox puts nothing into one. -/
theorem hushed_take {box : MailboxId} {endpoints : List Endpoint} {mailbox : Mailbox (List Endpoint)} {p : Pass}
    (found : (b.mailboxes[box]?).bind Mailbox.take? = some (endpoints, mailbox)) :
    Hushed b ((b.changeMailbox box (fun _ => mailbox)).beginPass t rest p) := by
  refine .of_eq rfl rfl rfl (fun box' => ?_)
  show ∃ k, (b.changeMailbox box (fun _ => mailbox)).messages box' = (b.messages box').drop k
  by_cases heq : box' = box
  · subst heq
    refine ⟨1, ?_⟩
    rw [messages_of_take? found]
    rfl
  · refine ⟨0, ?_⟩
    rw [messages_changeMailbox, if_neg heq]
    rfl

/-! ## Every action is one of these -/

theorem isApart_of_duty {w : Work α} (h : w.isInert = false) : w.isApart = true := by
  cases w <;> first | rfl | cases h

/-- A work that stands at the resolver's gate or at a mailbox has to do with the resolver. -/
theorem not_isAwaited_of_isApart {w : Work α} (h : w.isApart = true) : w.isAwaited = false := by
  cases w <;> first | rfl | cases h

/-- The move of a task with another topmost work brings no resolution on. -/
theorem resolving?_of_ne {w : Work α} (hw : b.works t = w :: rest) (hne : ∀ phase, w ≠ .resolution phase) :
    b.resolving? (.move t way) = none := by
  rw [resolving?, hw]
  split
  · rename_i phase _ heq
    injection heq with heq
    exact absurd heq (hne phase)
  · rfl

/-- The works of a request that is neither a resolution nor a start or a stop have nothing to do with the resolver. -/
theorem isApart_begun {r : Request α} (hr : r ≠ .resolve) (hl : r.isLifecycle = false) (hp : ∀ es, r ≠ .push es) :
    ∀ w ∈ b.begun r, w.isApart = true := by
  intro w hw
  cases r with
  | resolve => exact absurd rfl hr
  | push es => exact absurd rfl (hp es)
  | start => cases hl
  | shutdown => cases hl
  | startResolver box => cases hl
  | stopResolver => cases hl
  | _ =>
    rw [List.mem_singleton.1 hw]
    rfl

theorem works_nextTask (b : Balancer α) : b.works b.nextTask = [] := works_of_le (Nat.le_refl _)

theorem leaves_of_works (h : ∀ x, b'.works x = b.works x) : Leaves b b' b.nextTask [] [] :=
  leaves_nil_iff.2 fun x => by
    rw [h]
    split
    · rename_i heq
      rw [heq, works_nextTask]
    · rfl

/-- A request to a polling resolver, or to its balancer, rearranges the works of the task that it starts. -/
theorem stir_request (hkind : b.resolver.kind.isPolling = true) {r : Request α} (ha : b.Admits (.request r)) :
    Stir b (.request r) (b.request r).1 := by
  have hleaves := leaves_request b r
  by_cases hr : r = .resolve
  · subst hr
    have hfeed := feed_request_resolve b hkind
    have hresolver : (b.request .resolve).1.resolver = { b.resolver with gate := b.resolver.gate.join b.nextTask } :=
      congrArg Feed.resolver hfeed
    have hmailboxes : (b.request .resolve).1.mailboxes = b.mailboxes := congrArg Feed.mailboxes hfeed
    have hbegun : b.begun .resolve = [.resolution .queued] := if_pos hkind
    rw [hbegun] at hleaves
    refine .rearrange rfl (works_nextTask b) hleaves ⟨by rw [hresolver], by rw [hresolver]; rfl, by rw [hresolver],
      congrArg Feed.resolutions hfeed, fun box => ⟨0, messages_congr hmailboxes box⟩⟩ ?_
    have hdesk : (b.request .resolve).1.desk = { b.desk with gate := b.desk.gate.join b.nextTask } := by
      rw [desk, hresolver]
      rfl
    rw [hdesk]
    exact .resolve rfl
  · have hfeed := feed_request b hr
    have hdesk : (b.request r).1.desk = b.desk :=
      congrArg (fun f => (⟨f.resolver.subscriber, f.resolver.poller, f.resolver.gate⟩ : Desk)) hfeed
    refine .rearrange rfl (works_nextTask b) hleaves (.of_feed hfeed) ?_
    rw [hdesk]
    have hnil : ∀ w ∈ ([] : List (Work α)), w.isApart = true := List.forall_mem_nil _
    cases hl : r.isLifecycle with
    | false =>
      refine .apart hnil (isApart_begun hr hl (fun es heq => ?_)) hnil
      subst heq
      exact ha
    | true =>
      refine .lifecycle rfl hl ?_
      cases r with
      | start => exact .inl rfl
      | shutdown =>
        refine .inr (.inr ⟨[.stopConsumer, .clear, .succeed], fun w hw => ?_, rfl⟩)
        simp only [List.mem_cons, List.not_mem_nil, or_false] at hw
        rcases hw with rfl | rfl | rfl <;> rfl
      | startResolver box => exact .inr (.inl ⟨box, rfl⟩)
      | stopResolver => exact .inr (.inr ⟨[], hnil, rfl⟩)
      | _ => cases hl

section Inert

variable {w : Work α} {ws started : List (Work α)}

/-- A step of a work other than a resolution rearranges the works of its task, if it is hushed. -/
theorem InertStep.stir_of_ne (h : InertStep b t rest way w ws started b') (hw : b.works t = w :: rest)
    (hne : ∀ phase, w ≠ .resolution phase) (hhushed : Hushed b b')
    (hrearranges : Rearranges b t (.move t way) (w :: rest) ws started b'.desk) : Stir b (.move t way) b' :=
  .rearrange (resolving?_of_ne hw hne) hw (h.leaves (lt_of_works hw)) hhushed hrearranges

/-- A step of a work that is not about the resolver is such a rearrangement, if it puts only others like it upon the rest and gives no
other to a task that it starts. -/
theorem InertStep.stir_of_isApart (h : InertStep b t rest way w ws started b') (hw : b.works t = w :: rest) (hstack : Stack (w :: rest))
    (happ : w.isApart = true) (hne : ∀ task, w ≠ .awaitEnd task) (hhushed : Hushed b b') (hdesk : b'.desk = b.desk)
    (new : List (Work α)) (hws : ws = new ++ rest) (hnew : new.all Work.isApart = true)
    (hstarted : started.all Work.isApart = true) : Stir b (.move t way) b' := by
  have hrest := hstack.apart_rest happ hne
  subst hws
  refine h.stir_of_ne hw (fun phase heq => ?_) hhushed ?_
  · subst heq
    cases happ
  · rw [hdesk]
    refine .apart (List.forall_mem_cons.2 ⟨happ, hrest⟩) (fun x hx => ?_) (List.all_eq_true.1 hstarted)
    rcases List.mem_append.1 hx with hx | hx
    · exact List.all_eq_true.1 hnew x hx
    · exact hrest x hx

/-- A step of the polls of a polling resolver begins or ends them, or brings them to the gate. -/
theorem PollStep.stir {ticker : Option Ticker} (hkind : b.resolver.kind.isPolling = true) (hstack : Stack (.poll ticker :: rest))
    (hw : b.works t = .poll ticker :: rest) (h : PollStep b t rest ticker ws b') : Stir b (.move t way) b' := by
  have hstep : InertStep b t rest way (.poll ticker) ws [] b' := .poll h
  have hstir := hstep.stir_of_ne hw (fun _ h => nomatch h)
  cases hstack with
  | apart h => cases h _ List.mem_cons_self
  | polls =>
    cases h with
    | start => exact hstir (.of_feed rfl) .beginPolls
    | stop _ => exact hstir (.of_feed rfl) .endPolls
    | poll _ _ works_eq =>
      subst works_eq
      exact hstir (.of_eq rfl rfl rfl (fun box => ⟨0, rfl⟩)) .poll
    | pollOther kind =>
      rw [hkind] at kind
      cases kind

theorem ConsumeStep.stir {box : MailboxId} {ticker : Option Ticker} {isOpen : Bool} (hstack : Stack (.consume box ticker isOpen :: rest))
    (hw : b.works t = .consume box ticker isOpen :: rest) (h : ConsumeStep b t rest box ticker isOpen way ws b') :
    Stir b (.move t way) b' := by
  have hstir := (InertStep.consume h).stir_of_isApart hw hstack rfl (fun _ h => nomatch h)
  cases h with
  | start => exact hstir (.of_feed rfl) rfl [.consume _ _ _] rfl rfl rfl
  | stop _ => exact hstir (.of_feed rfl) rfl [] rfl rfl rfl
  | take found => exact hstir (hushed_take found) rfl [.pass _, .consume _ _ _] rfl rfl rfl
  | close _ _ => exact hstir (.of_feed rfl) rfl [.consume _ _ _] rfl rfl rfl
  | refresh _ => exact hstir (.of_feed rfl) rfl [.pass _, .consume _ _ _] rfl rfl rfl

/-- A step of an inert work is one of a resolution, or rearranges the works of its task. -/
theorem stir_inert (hkind : b.resolver.kind.isPolling = true) (hstack : Stack (w :: rest)) (hw : b.works t = w :: rest)
    (hmove : b.move t way = some b') (h : InertStep b t rest way w ws started b') : Stir b (.move t way) b' := by
  have hnot : b.resolver.kind.isPolling = false → Stir b (.move t way) b' := fun hnot => by
    rw [hkind] at hnot
    cases hnot
  have hstir := h.stir_of_ne hw
  have hapart := h.stir_of_isApart hw hstack
  cases h with
  | resolution step => exact .resolution hw (by rw [resolving?, hw, hmove]; rfl) step
  | startFixed kind => exact hnot kind
  | startManual kind => exact hnot kind
  | refuseResolver _ => exact hstir (fun _ h => nomatch h) (.of_feed rfl) (.refuse (.inr ⟨_, rfl⟩))
  | startResolver kind unpolled =>
    cases hstack with
    | apart h => cases h _ List.mem_cons_self
    | startResolver h =>
      exact hstir (fun _ h => nomatch h) (.of_eq rfl rfl rfl (fun box => ⟨0, rfl⟩)) (.startResolver h unpolled)
  | registerPoller =>
    cases hstack with
    | apart h => cases h _ List.mem_cons_self
    | register h => exact hstir (fun _ h => nomatch h) (.of_eq rfl rfl rfl (fun box => ⟨0, rfl⟩)) (.register h)
  | stopFixed kind => exact hnot kind
  | stopManual kind => exact hnot kind
  | stopPolls kind polled =>
    cases hstack with
    | apart h => cases h _ List.mem_cons_self
    | stopResolver h => exact hstir (fun _ h => nomatch h) (.of_eq rfl rfl rfl (fun box => ⟨0, rfl⟩)) (.stopPolls h polled)
  | stopUnpolled kind unpolled =>
    cases hstack with
    | apart h => cases h _ List.mem_cons_self
    | stopResolver h =>
      refine hstir (fun _ h => nomatch h) (.of_eq rfl rfl rfl (fun box => ⟨0, rfl⟩)) ?_
      have hdesk : ({ b with resolver := { b.resolver with poller := none } } : Balancer α).desk = b.desk := by
        rw [desk, desk, unpolled]
      exact hdesk ▸ .stopUnpolled h unpolled
  | @awaitEnd task ended =>
    rcases hstack.apart_or_awaitPolls rfl with hrest | ⟨task', rest', heq, hrest, h⟩
    · exact hstir (fun _ h => nomatch h) (.of_feed rfl)
        (.apart (List.forall_mem_cons.2 ⟨rfl, hrest⟩) hrest (List.forall_mem_nil _))
    · subst hrest
      exact hstir (fun _ h => nomatch h) (.of_feed rfl) (.awaitPolls h ended)
  | forgetSubscriber =>
    cases hstack with
    | apart h => cases h _ List.mem_cons_self
    | forget h => exact hstir (fun _ h => nomatch h) (.of_eq rfl rfl rfl (fun box => ⟨0, rfl⟩)) (.forget h)
  | refuseBalancer _ => exact hstir (fun _ h => nomatch h) (.of_feed rfl) (.refuse (.inl rfl))
  | startBalancer _ =>
    cases hstack with
    | apart h => cases h _ List.mem_cons_self
    | startBalancer =>
      have hhushed := messages_openMailbox b updateCapacity
      refine hstir (fun _ h => nomatch h) (.of_eq rfl rfl rfl (fun box => ⟨0, hhushed box⟩)) (.startBalancer (fun x hx => ?_))
      simp only [List.mem_cons, List.not_mem_nil, or_false] at hx
      rcases hx with rfl | rfl <;> rfl
  | applyBaseline => exact hapart rfl (fun _ h => nomatch h) (.of_feed rfl) rfl [.pass _] rfl rfl rfl
  | launchConsumer => exact hapart rfl (fun _ h => nomatch h) (.of_eq rfl rfl rfl (fun box => ⟨0, rfl⟩)) rfl [] rfl rfl rfl
  | stopConsumer _ =>
    exact hapart rfl (fun _ h => nomatch h) (.of_eq rfl rfl rfl (fun box => ⟨0, rfl⟩)) rfl [.awaitEnd _] rfl rfl rfl
  | stopNothing _ => exact hapart rfl (fun _ h => nomatch h) (.of_eq rfl rfl rfl (fun box => ⟨0, rfl⟩)) rfl [] rfl rfl rfl
  | clear => exact hapart rfl (fun _ h => nomatch h) (.of_feed rfl) rfl [.pass _] rfl rfl rfl
  | poll step => exact step.stir hkind hstack hw
  | consume step => exact step.stir hstack hw
  | answer => exact hapart rfl (fun _ h => nomatch h) (.of_feed rfl) rfl [] rfl rfl rfl
  | dispatch => exact hapart rfl (fun _ h => nomatch h) (.of_feed rfl) rfl [.deliver _ _ _ _] rfl rfl rfl
  | push _ =>
    cases hstack with
    | apart h => cases h _ List.mem_cons_self
  | pushTo _ =>
    cases hstack with
    | apart h => cases h _ List.mem_cons_self
  | send =>
    cases hstack with
    | apart h => cases h _ List.mem_cons_self
  | pause _ => exact hapart rfl (fun _ h => nomatch h) (.of_feed rfl) rfl [] rfl rfl rfl
  | succeed => exact hapart rfl (fun _ h => nomatch h) (.of_feed rfl) rfl [] rfl rfl rfl

end Inert

/-- What an action does to a polling resolver is a step of a resolution, or a rearrangement of the works of one task. -/
theorem Turn.stir (hkind : b.resolver.kind.isPolling = true) (hstacks : ∀ x, Stack (b.works x)) {a : Action α}
    (ha : b.Admits a) (h : Turn b a b') : Stir b a b' := by
  have hnil : ∀ w ∈ ([] : List (Work α)), w.isApart = true := List.forall_mem_nil _
  have hstill : b.resolving? a = none → (∀ x, b'.works x = b.works x) → Hushed b b' → b'.desk = b.desk → Stir b a b' :=
    fun hnone hworks hhushed hdesk =>
      .rearrange hnone (works_nextTask b) (leaves_of_works hworks) hhushed (hdesk ▸ .apart hnil hnil hnil)
  have hdesk : b'.feed = b.feed → b'.desk = b.desk := fun hfeed =>
    congrArg (fun f => (⟨f.resolver.subscriber, f.resolver.poller, f.resolver.gate⟩ : Desk)) hfeed
  cases h with
  | @inert t way w rest ws started _ works rest_inert moves step _ => exact stir_inert hkind (works ▸ hstacks t) works moves step
  | @pass t way p rest _ works rest_inert step =>
    obtain ⟨ws, hleaves, hws⟩ := step.leaves works
    have hrest := (works ▸ hstacks t : Stack (.pass p :: rest)).apart_rest rfl (fun _ h => nomatch h)
    have hafter : ∀ w ∈ ws, w.isApart = true := by
      rcases hws with rfl | ⟨p', rfl, _, _⟩
      · exact hrest
      · exact List.forall_mem_cons.2 ⟨rfl, hrest⟩
    exact .rearrange (resolving?_of_ne works fun _ h => nomatch h) works hleaves (.of_feed step.feed)
      (hdesk step.feed ▸ .apart (List.forall_mem_cons.2 ⟨rfl, hrest⟩) hafter hnil)
  | @exports t way w rest ws _ works duty noPass rest_inert exporting =>
    have hw := isApart_of_duty duty
    have hrest := (works ▸ hstacks t : Stack (w :: rest)).apart_rest hw (fun task heq => by subst heq; cases duty)
    have hafter : ∀ x ∈ ws, x.isApart = true := by
      rcases exporting.goes with rfl | ⟨w', rfl, hduty, _⟩
      · exact hrest
      · exact List.forall_mem_cons.2 ⟨isApart_of_duty hduty, hrest⟩
    exact .rearrange (resolving?_of_ne works fun phase heq => by subst heq; cases duty) works exporting.leaves (.of_feed exporting.feed)
      (hdesk exporting.feed ▸ .apart (List.forall_mem_cons.2 ⟨hw, hrest⟩) hafter hnil)
  | @request r _ => exact stir_request hkind ha
  | @abandon t =>
    have happ : ∀ w ∈ b.works t, w.isApart = true := ha
    have hfeed := feed_abandon b (fun w hw => not_isAwaited_of_isApart (happ w hw))
    exact .rearrange rfl rfl (leaves_abandon b t) (.of_feed hfeed) (hdesk hfeed ▸ .apart happ hnil hnil)
  | @answer answers => exact hstill rfl (fun _ => rfl) (hushed_extendScript b answers) (desk_extendScript b answers)
  | unsubscribe => exact ha.elim
  | @openInbox capacity =>
    exact hstill rfl (fun _ => rfl) (.of_eq rfl rfl rfl (fun box => ⟨0, messages_openMailbox b capacity box⟩)) rfl
  | keepInboxes => exact hstill rfl (fun _ => rfl) (.of_eq rfl rfl rfl (fun box => ⟨0, rfl⟩)) rfl
  | @receive box => exact hstill rfl (fun _ => by cases box <;> rfl) (hushed_receive b box) (by cases box <;> rfl)
  | still blocked works feed _ =>
    refine hstill ?_ works (.of_feed feed) (hdesk feed)
    unfold resolving?
    split
    · rename_i t way
      split
      · rw [blocked t way rfl]
        rfl
      · rfl
    · rfl

/-! ## Stacks stay stacks -/

/-- A step of a resolution leaves its task with a resolution that was let in, or without it if that is the last step. -/
theorem ResolutionStep.goes {phase : ResolutionPhase} {ws : List (Work α)} (h : ResolutionStep b t rest phase ws b') :
    (phase ≠ .ending ∧ ∃ phase', ws = .resolution phase' :: rest ∧ phase' ≠ .queued) ∨ (phase = .ending ∧ ws = rest) := by
  have hgo : ∀ {phase phase' : ResolutionPhase} {ws : List (Work α)}, phase ≠ .ending → ws = .resolution phase' :: rest →
      phase' ≠ .queued → (phase ≠ .ending ∧ ∃ phase', ws = .resolution phase' :: rest ∧ phase' ≠ .queued) ∨
        (phase = .ending ∧ ws = rest) :=
    fun hphase hws hphase' => .inl ⟨hphase, _, hws, hphase'⟩
  cases h with
  | ask _ _ _ works_eq => exact hgo (fun h => nomatch h) works_eq (fun h => nomatch h)
  | skip _ _ => exact hgo (fun h => nomatch h) rfl (fun h => nomatch h)
  | hear _ =>
    refine hgo (fun h => nomatch h) rfl ?_
    unfold ResolutionPhase.after
    split <;> exact fun h => nomatch h
  | tell _ => exact hgo (fun h => nomatch h) rfl (fun h => nomatch h)
  | keep _ => exact hgo (fun h => nomatch h) rfl (fun h => nomatch h)
  | lose _ => exact hgo (fun h => nomatch h) rfl (fun h => nomatch h)
  | put _ _ => exact hgo (fun h => nomatch h) rfl (fun h => nomatch h)
  | conclude => exact .inr ⟨rfl, rfl⟩

theorem ResolutionStep.leaves {phase : ResolutionPhase} {ws : List (Work α)} (ht : t < b.tasks.length)
    (h : ResolutionStep b t rest phase ws b') : Leaves b b' t ws [] :=
  (InertStep.resolution h : InertStep b t rest 0 (.resolution phase) ws [] b').leaves ht

/-- A resolution on a stack may be in any phase, and may have ended. -/
theorem stack_of_resolution {phase : ResolutionPhase} (h : Stack (.resolution phase :: rest)) :
    (∀ phase', Stack (.resolution phase' :: rest : List (Work α))) ∧ Stack rest := by
  cases h with
  | apart h => cases h _ List.mem_cons_self
  | resolve => exact ⟨fun _ => .resolve, .apart (fun w hw => nomatch hw)⟩
  | poll => exact ⟨fun _ => .poll, .polls⟩
  | baseline h => exact ⟨fun _ => .baseline h, .register h⟩

theorem Rearranges.stacked {a : Action α} {old new started : List (Work α)} {desk : Desk}
    (h : Rearranges b t a old new started desk) : Stack new ∧ Stack started := by
  have hnil : Stack ([] : List (Work α)) := .apart (fun w hw => nomatch hw)
  cases h with
  | apart _ after beside => exact ⟨.apart after, .apart beside⟩
  | resolve _ => exact ⟨.resolve, hnil⟩
  | lifecycle _ _ begins =>
    rcases begins with rfl | ⟨box, rfl⟩ | ⟨rest, h, rfl⟩
    · exact ⟨.startBalancer, hnil⟩
    · exact ⟨.startResolver (fun w hw => nomatch hw), hnil⟩
    · exact ⟨.stopResolver h, hnil⟩
  | startBalancer h => exact ⟨.startResolver h, hnil⟩
  | refuse _ => exact ⟨hnil, hnil⟩
  | startResolver h _ => exact ⟨.baseline h, hnil⟩
  | register h => exact ⟨.apart h, .polls⟩
  | stopPolls h _ => exact ⟨.awaitPolls h, hnil⟩
  | stopUnpolled h _ => exact ⟨.forget h, hnil⟩
  | awaitPolls h _ => exact ⟨.forget h, hnil⟩
  | forget h => exact ⟨.apart h, hnil⟩
  | beginPolls => exact ⟨.polls, hnil⟩
  | endPolls => exact ⟨hnil, hnil⟩
  | poll => exact ⟨.poll, hnil⟩

/-- The works of every task still form a stack after an action. -/
theorem Stir.stacked (hstacks : ∀ x, Stack (b.works x)) {a : Action α} (h : Stir b a b') (x : TaskId) : Stack (b'.works x) := by
  cases h with
  | @resolution t way phase rest ws _ works _ step =>
    have hx := step.leaves (lt_of_works works) x
    split at hx
    · rw [hx]
      obtain ⟨hphases, hrest⟩ := stack_of_resolution (works ▸ hstacks t : Stack (.resolution phase :: rest))
      rcases step.goes with ⟨_, phase', rfl, _⟩ | ⟨_, rfl⟩
      · exact hphases phase'
      · exact hrest
    · split at hx
      · exact hx ▸ .apart (fun w hw => nomatch hw)
      · exact hx ▸ hstacks x
  | rearrange _ works leaves _ rearranges =>
    obtain ⟨hnew, hstarted⟩ := rearranges.stacked
    have hx := leaves x
    split at hx
    · exact hx ▸ hnew
    · split at hx
      · exact hx ▸ hstarted
      · exact hx ▸ hstacks x

end Stacks

end Balancer

end TelemetryRouter
