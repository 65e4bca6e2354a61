import TelemetryRouter.Proofs.Gatekeeping
import TelemetryRouter.Proofs.Rings

/-!
# The posts of tasks

Whatever resolver a balancer has and whatever else happens, a task that starts or stops the balancer or its resolver has works that
follow one of a few scripts. How far it is on its script is the task's post. This module says which posts there are and how an action
changes them, together with the two things that starts leave behind: the task that applies updates and the task that polls.
-/

namespace TelemetryRouter

variable {α : Type}

/-! ## Posts -/

/-- What a task is there for, as far as starts, stops and passes go. -/
inductive Post where
  | over
  | other
  | reconciles
  | opens
  | resolves (balancer : Bool)
  | registers (balancer : Bool)
  | launches
  | polls
  | consumes
  | stops (balancer : Bool)
  | awaitsPolls (task : TaskId) (balancer : Bool)
  | forgets (balancer : Bool)
  | disbands
  | awaitsConsumer (task : TaskId)
  | clears
  | empties
  deriving DecidableEq, Repr

namespace Post

/-- The post of a task whose start of the resolver is over. -/
def afterStart : Bool → Post
  | true => .launches
  | false => .over

/-- The post of a task whose stop of the resolver is over. -/
def afterStop : Bool → Post
  | true => .disbands
  | false => .over

/-- The post that works give to their task. -/
def ofWorks : List (Work α) → Post
  | [] => .over
  | .startBalancer :: _ => .opens
  | .startResolver _ :: rest => .resolves !rest.isEmpty
  | .resolution _ :: .registerPoller _ :: rest => .registers !rest.isEmpty
  | .registerPoller _ :: rest => .registers !rest.isEmpty
  | .applyBaseline :: _ => .launches
  | .pass _ :: .launchConsumer _ :: _ => .launches
  | .launchConsumer _ :: _ => .launches
  | .resolution _ :: .poll _ :: _ => .polls
  | .poll _ :: _ => .polls
  | .pass _ :: .consume _ _ _ :: _ => .consumes
  | .consume _ _ _ :: _ => .consumes
  | .stopResolver :: rest => .stops !rest.isEmpty
  | .awaitEnd task :: .forgetSubscriber :: rest => .awaitsPolls task !rest.isEmpty
  | .forgetSubscriber :: rest => .forgets !rest.isEmpty
  | .stopConsumer :: _ => .disbands
  | .awaitEnd task :: .clear :: _ => .awaitsConsumer task
  | .clear :: _ => .clears
  | .pass _ :: .succeed :: _ => .empties
  | .pass _ :: _ => .reconciles
  | _ => .other

end Post

/-- The post in which a request begins. -/
def Request.post : Request α → Post
  | .start => .opens
  | .shutdown => .stops true
  | .update _ => .reconciles
  | .reconcile _ => .reconciles
  | .reconcileToRing => .reconciles
  | .retireAll => .reconciles
  | .startResolver _ => .resolves false
  | .stopResolver => .stops false
  | _ => .other

/-- Whether a request starts the balancer or its resolver. -/
def Request.isStart : Request α → Bool
  | .start => true
  | .startResolver _ => true
  | _ => false

/-- Whether a post is that of a start. -/
def Post.isStart : Post → Bool
  | .opens => true
  | .resolves _ => true
  | .registers _ => true
  | .launches => true
  | _ => false

/-- A request begins in the post of a start exactly when it starts something. -/
theorem Request.isStart_post (r : Request α) : r.post.isStart = r.isStart := by
  cases r <;> rfl

theorem Request.post_ne_other {r : Request α} (h : r.isStart = true) : r.post ≠ .other := by
  intro heq
  rw [← r.isStart_post, heq] at h
  cases h

/-! ## Scripts -/

/-- Whether a work is no part of a start, of a stop or of what they leave behind. -/
def Work.isPlain : Work α → Bool
  | .resolution _ => true
  | .dispatch _ _ => true
  | .deliver _ _ _ _ => true
  | .exportLeased _ _ _ => true
  | .push _ => true
  | .send _ _ => true
  | .pause _ => true
  | .succeed => true
  | _ => false

/-- Whether a pass empties the ring and the pool. -/
def Pass.Empties (p : Pass) : Prop := p.target = .members [] ∧ ∃ ring, p.publish = some ring ∧ ring.endpoints = []

/-- Whether nothing is left of a pass but to tell what it has done. -/
def Pass.IsDone (p : Pass) : Prop :=
  ∃ added failed retirements, p.phase = .retiring added failed retirements ∧ retirements.all Retirement.isOver = true

/-- What is left of the start of a balancer, if any, once its resolver has started. -/
def startTail : Option MailboxId → List (Work α)
  | some box => [.applyBaseline, .launchConsumer box]
  | none => []

/-- What is left of the stop of a balancer, if any, once its resolver has stopped. -/
def stopTail : Bool → List (Work α)
  | true => [.stopConsumer, .clear, .succeed]
  | false => []

/-- The works that a task can have, and its post. -/
inductive Script : List (Work α) → Post → Prop
  | nil : Script [] .over
  | plain {w : Work α} {rest : List (Work α)} (h : ∀ x ∈ w :: rest, x.isPlain = true) : Script (w :: rest) .other
  | reconcile {p : Pass} : Script [.pass p] .reconciles
  | startBalancer : Script [.startBalancer] .opens
  | startResolver {box : MailboxId} {tail : Option MailboxId} : Script (.startResolver box :: startTail tail) (.resolves tail.isSome)
  | baseline {phase : ResolutionPhase} {box : MailboxId} {tail : Option MailboxId} :
    Script (.resolution phase :: .registerPoller box :: startTail tail) (.registers tail.isSome)
  | register {box : MailboxId} {tail : Option MailboxId} : Script (.registerPoller box :: startTail tail) (.registers tail.isSome)
  | applyBaseline {box : MailboxId} : Script [.applyBaseline, .launchConsumer box] .launches
  | firstPass {p : Pass} {box : MailboxId} : Script [.pass p, .launchConsumer box] .launches
  | launch {box : MailboxId} : Script [.launchConsumer box] .launches
  | polls {ticker : Option Ticker} : Script [.poll ticker] .polls
  | poll {phase : ResolutionPhase} {ticker : Option Ticker} : Script [.resolution phase, .poll ticker] .polls
  | consume {box : MailboxId} {ticker : Option Ticker} {isOpen : Bool} : Script [.consume box ticker isOpen] .consumes
  | apply {p : Pass} {box : MailboxId} {ticker : Option Ticker} {isOpen : Bool} :
    Script [.pass p, .consume box ticker isOpen] .consumes
  | stopResolver {balancer : Bool} : Script (.stopResolver :: stopTail balancer) (.stops balancer)
  | awaitPolls {task : TaskId} {balancer : Bool} :
    Script (.awaitEnd task :: .forgetSubscriber :: stopTail balancer) (.awaitsPolls task balancer)
  | forget {balancer : Bool} : Script (.forgetSubscriber :: stopTail balancer) (.forgets balancer)
  | stopConsumer : Script [.stopConsumer, .clear, .succeed] .disbands
  | awaitConsumer {task : TaskId} : Script [.awaitEnd task, .clear, .succeed] (.awaitsConsumer task)
  | clear : Script [.clear, .succeed] .clears
  | lastPass {p : Pass} (h : p.Empties) : Script [.pass p, .succeed] .empties

theorem script_startTail : ∀ tail : Option MailboxId, Script (startTail tail : List (Work α)) (.afterStart tail.isSome)
  | some _ => .applyBaseline
  | none => .nil

theorem script_stopTail : ∀ balancer : Bool, Script (stopTail balancer : List (Work α)) (.afterStop balancer)
  | true => .stopConsumer
  | false => .nil

namespace Script

variable {rest : List (Work α)} {post : Post}

theorem ofWorks_eq {ws : List (Work α)} (h : Script ws post) : Post.ofWorks ws = post := by
  cases h with
  | @plain w rest h =>
    have hw := h w List.mem_cons_self
    cases w with
    | resolution phase =>
      cases rest with
      | nil => rfl
      | cons x rest =>
        have hx := h x (List.mem_cons_of_mem _ List.mem_cons_self)
        cases x <;> first | rfl | cases hx
    | _ => first | rfl | cases hw
  | @startResolver box tail => cases tail <;> rfl
  | @baseline phase box tail => cases tail <;> rfl
  | @register box tail => cases tail <;> rfl
  | @stopResolver balancer => cases balancer <;> rfl
  | @awaitPolls task balancer => cases balancer <;> rfl
  | @forget balancer => cases balancer <;> rfl
  | _ => rfl

/-- A plain work lies on plain works only, unless it is a resolution. -/
theorem plain_of_isPlain {w : Work α} (h : Script (w :: rest) post) (hw : w.isPlain = true)
    (hne : ∀ phase, w ≠ .resolution phase) : post = .other ∧ ∀ x ∈ w :: rest, x.isPlain = true := by
  cases h with
  | plain h => exact ⟨rfl, h⟩
  | baseline => exact absurd rfl (hne _)
  | poll => exact absurd rfl (hne _)
  | _ => cases hw

theorem of_resolution {phase : ResolutionPhase} (h : Script (.resolution phase :: rest) post) (phase' : ResolutionPhase) :
    Script (.resolution phase' :: rest : List (Work α)) post := by
  cases h with
  | plain h => exact .plain (List.forall_mem_cons.2 ⟨rfl, fun x hx => h x (List.mem_cons_of_mem _ hx)⟩)
  | baseline => exact .baseline
  | poll => exact .poll

theorem of_isPlain {ws : List (Work α)} (h : ∀ x ∈ ws, x.isPlain = true) : Script ws .over ∨ Script ws .other := by
  cases ws with
  | nil => exact .inl .nil
  | cons w rest => exact .inr (.plain h)

end Script

namespace Balancer

/-- The post of a task. -/
def post (b : Balancer α) (t : TaskId) : Post := .ofWorks (b.works t)

/-! ## Changes -/

/-- How an action changes the post of a task, with the post of a task that it starts, the known task that applies updates and the
known task that polls. -/
inductive Proceeds (b b' : Balancer α) (a : Action α) (t : TaskId) : Post → Post → Post → Option TaskId → Option TaskId → Prop
  | stay {post : Post} : Proceeds b b' a t post post .over b.background b.resolver.poller
  | request {r : Request α} (action : a = .request r) (fresh : t = b.nextTask) :
    Proceeds b b' a t .over r.post .over b.background b.resolver.poller
  | abandon {post : Post} (action : a = .abandon t) : Proceeds b b' a t post .over .over b.background b.resolver.poller
  | finish {post : Post} (from_post : post = .other ∨ post = .reconciles) :
    Proceeds b b' a t post .over .over b.background b.resolver.poller
  | refuseBalancer (known : b.background.isSome = true)
    (answer : b'.outcome? t = some (.failed (.configuration "load balancer already started"))) :
    Proceeds b b' a t .opens .over .over b.background b.resolver.poller
  | startBalancer {way : Nat} (action : a = .move t way) (unknown : b.background = none) :
    Proceeds b b' a t .opens (.resolves true) .over b.background b.resolver.poller
  | refuseResolver {balancer : Bool} {e : RouterError} (answer : b'.outcome? t = some (.failed e))
    (why : b.resolver.kind.isPolling = true → b.resolver.poller.isSome = true ∧
      e = .configuration (b.resolver.name ++ " resolver already started")) :
    Proceeds b b' a t (.resolves balancer) .over .over b.background b.resolver.poller
  | startOther {balancer : Bool} (kind : b.resolver.kind.isPolling = false) :
    Proceeds b b' a t (.resolves balancer) (.afterStart balancer) .over b.background b.resolver.poller
  | startResolver {way : Nat} {balancer : Bool} (action : a = .move t way) (kind : b.resolver.kind.isPolling = true)
    (unpolled : b.resolver.poller = none) :
    Proceeds b b' a t (.resolves balancer) (.registers balancer) .over b.background b.resolver.poller
  | register {way : Nat} {balancer : Bool} (action : a = .move t way)
    (answer : balancer = false → b'.outcome? t = some .done) :
    Proceeds b b' a t (.registers balancer) (.afterStart balancer) .polls b.background (some b.nextTask)
  | launch {way : Nat} (action : a = .move t way) (answer : b'.outcome? t = some .done) :
    Proceeds b b' a t .launches .over .consumes (some b.nextTask) b.resolver.poller
  | endPolls : Proceeds b b' a t .polls .over .over b.background b.resolver.poller
  | endUpdates : Proceeds b b' a t .consumes .over .over b.background b.resolver.poller
  | stopOther {balancer : Bool} (kind : b.resolver.kind.isPolling = false) :
    Proceeds b b' a t (.stops balancer) (.afterStop balancer) .over b.background b.resolver.poller
  | stopPolls {balancer : Bool} {task : TaskId} (polled : b.resolver.poller = some task) :
    Proceeds b b' a t (.stops balancer) (.awaitsPolls task balancer) .over b.background none
  | stopUnpolled {balancer : Bool} (unpolled : b.resolver.poller = none) :
    Proceeds b b' a t (.stops balancer) (.forgets balancer) .over b.background b.resolver.poller
  | awaitPolls {task : TaskId} {balancer : Bool} (ended : b.post task = .over) :
    Proceeds b b' a t (.awaitsPolls task balancer) (.forgets balancer) .over b.background b.resolver.poller
  | forget {balancer : Bool} :
    Proceeds b b' a t (.forgets balancer) (.afterStop balancer) .over b.background b.resolver.poller
  | stopConsumer {task : TaskId} (known : b.background = some task) :
    Proceeds b b' a t .disbands (.awaitsConsumer task) .over none b.resolver.poller
  | stopNothing (unknown : b.background = none) : Proceeds b b' a t .disbands .clears .over b.background b.resolver.poller
  | awaitConsumer {task : TaskId} (ended : b.post task = .over) :
    Proceeds b b' a t (.awaitsConsumer task) .clears .over b.background b.resolver.poller
  | clear : Proceeds b b' a t .clears .empties .over b.background b.resolver.poller
  | cleared (done : ∀ p rest, b.works t = .pass p :: rest → p.IsDone) :
    Proceeds b b' a t .empties .other .over b.background b.resolver.poller

/-- Whether the works of all tasks are scripts. -/
def Scripted (b : Balancer α) : Prop := ∀ t, Script (b.works t) (b.post t)

section Posts

variable {b b' : Balancer α} {a : Action α} {t : TaskId} {rest : List (Work α)} {way : Nat}

theorem post_eq_over_iff {x : TaskId} : b.post x = .over ↔ b.works x = [] := by
  constructor
  · intro h
    rw [post] at h
    unfold Post.ofWorks at h
    split at h
    case h_1 heq => exact heq
    all_goals cases h
  · intro h
    rw [post, h]
    rfl

theorem post_of_hasEnded {x : TaskId} (h : b.hasEnded x = true) : b.post x = .over := by
  rw [hasEnded] at h
  rw [post_eq_over_iff, works]
  rcases htask : b.task? x with _ | task
  · rfl
  · rw [htask] at h
    simpa [Task.isOver] using h

theorem post_of_le {x : TaskId} (h : b.tasks.length ≤ x) : b.post x = .over := post_eq_over_iff.2 (works_of_le h)

theorem post_of_outcome? {x : TaskId} {outcome : Outcome α} (h : b.outcome? x = some outcome) : b.post x = .over := by
  refine post_of_hasEnded ?_
  rw [outcome?] at h
  rw [hasEnded]
  split at h
  · rename_i task htask
    rw [htask]
    split at h
    · assumption
    · cases h
  · cases h

theorem outcome?_finish {c : Balancer α} (ht : t < c.tasks.length) (outcome : Outcome α) :
    (c.finish t [] outcome).outcome? t = some outcome := by
  rw [outcome?, task?, finish, List.getElem?_modify_eq, List.getElem?_eq_getElem ht]
  rfl

/-- Whether a task has ended with success. -/
def hasSucceeded (b : Balancer α) (t : TaskId) : Bool :=
  match b.outcome? t with
  | some .done => true
  | _ => false

/-- A task that has ended with success has no other answer. -/
theorem outcome?_of_hasSucceeded {x : TaskId} (h : b.hasSucceeded x = true) : b.outcome? x = some .done := by
  unfold hasSucceeded at h
  split at h
  · assumption
  · cases h

/-- The posts after a task went on to a script, and may have started another one. -/
theorem Leaves.posts {ws started : List (Work α)} {new begun : Post} (h : Leaves b b' t ws started) (hws : Script ws new)
    (hstarted : Script started begun) (x : TaskId) :
    b'.post x = if x = t then new else if x = b.nextTask then begun else b.post x := by
  rw [post, h x]
  split
  · exact hws.ofWorks_eq
  · split
    · exact hstarted.ofWorks_eq
    · rfl

/-- All works are still scripts after a task went on to a script, and may have started another one. -/
theorem Leaves.scripted {ws started : List (Work α)} {new begun : Post} (h : Leaves b b' t ws started) (hb : b.Scripted)
    (hws : Script ws new) (hstarted : Script started begun) : b'.Scripted := by
  intro x
  rw [h.posts hws hstarted x, h x]
  split
  · exact hws
  · split
    · exact hstarted
    · exact hb x

theorem proceeds_of_isPlain {ws : List (Work α)} (h : ∀ x ∈ ws, x.isPlain = true) :
    ∃ new, Script ws new ∧ Proceeds b b' a t .other new .over b.background b.resolver.poller := by
  rcases Script.of_isPlain h with hws | hws
  · exact ⟨_, hws, .finish (.inl rfl)⟩
  · exact ⟨_, hws, .stay⟩

/-- What a step of a resolution does to the script of its task. -/
theorem ResolutionStep.proceeds {phase : ResolutionPhase} {ws : List (Work α)} {old : Post}
    (hscript : Script (.resolution phase :: rest) old) (h : ResolutionStep b t rest phase ws b') :
    ∃ new, Script ws new ∧ Proceeds b b' a t old new .over b.background b.resolver.poller := by
  have hws : (∃ phase', ws = .resolution phase' :: rest) ∨ ws = rest := by
    cases h with
    | ask _ _ _ works_eq => exact .inl ⟨_, works_eq⟩
    | conclude => exact .inr rfl
    | _ => exact .inl ⟨_, rfl⟩
  rcases hws with ⟨phase', rfl⟩ | rfl
  · exact ⟨old, hscript.of_resolution phase', .stay⟩
  · cases hscript with
    | plain h => exact proceeds_of_isPlain (fun x hx => h x (List.mem_cons_of_mem _ hx))
    | baseline => exact ⟨_, .register, .stay⟩
    | poll => exact ⟨_, .polls, .stay⟩

/-- What a step of the polls does to the script of their task. -/
theorem PollStep.proceeds {ticker : Option Ticker} {ws : List (Work α)} {old : Post} (hscript : Script (.poll ticker :: rest) old)
    (h : PollStep b t rest ticker ws b') :
    ∃ new, Script ws new ∧ Proceeds b b' a t old new .over b.background b.resolver.poller := by
  cases hscript with
  | plain h => cases h _ List.mem_cons_self
  | polls =>
    cases h with
    | start => exact ⟨_, .polls, .stay⟩
    | stop _ => exact ⟨_, .nil, .endPolls⟩
    | poll _ _ works_eq =>
      subst works_eq
      exact ⟨_, .poll, .stay⟩
    | pollOther _ => exact ⟨_, .polls, .stay⟩

/-- What a step of the updates does to the script of their task. -/
theorem ConsumeStep.proceeds {box : MailboxId} {ticker : Option Ticker} {isOpen : Bool} {ws : List (Work α)} {old : Post}
    (hscript : Script (.consume box ticker isOpen :: rest) old) (h : ConsumeStep b t rest box ticker isOpen way ws b') :
    ∃ new, Script ws new ∧ Proceeds b b' a t old new .over b.background b.resolver.poller := by
  cases hscript with
  | plain h => cases h _ List.mem_cons_self
  | consume =>
    cases h with
    | start => exact ⟨_, .consume, .stay⟩
    | stop _ => exact ⟨_, .nil, .endUpdates⟩
    | take _ => exact ⟨_, .apply, .stay⟩
    | close _ _ => exact ⟨_, .consume, .stay⟩
    | refresh _ => exact ⟨_, .apply, .stay⟩

theorem empties_applyPass (b : Balancer α) : (b.applyPass []).Empties := by
  have hnil := (Ring.endpoints_build_eq_nil_iff [] b.options.settings.virtualNodes).2 rfl
  exact ⟨congrArg PassTarget.members hnil, _, rfl, hnil⟩

section Inert

variable {w : Work α} {ws started : List (Work α)} {old : Post}

/-- What a step of a resolution, which starts no other task, does to the script of its task. -/
theorem ResolutionStep.proceeds_inert {phase : ResolutionPhase} (hscript : Script (.resolution phase :: rest) old)
    (h : ResolutionStep b t rest phase ws b') : ∃ new begun, Script ws new ∧ Script ([] : List (Work α)) begun ∧
      Proceeds b b' (.move t way) t old new begun b'.background b'.resolver.poller := by
  obtain ⟨new, hws, hproceeds⟩ := h.proceeds (a := .move t way) hscript
  have hbackground : b'.background = b.background := by cases h <;> rfl
  rw [hbackground, h.subscriber_eq.2]
  exact ⟨new, _, hws, .nil, hproceeds⟩

/-- What a step of a plain work on plain ones does to the script of its task. -/
theorem InertStep.proceeds_of_isPlain (hold : ∀ x ∈ w :: rest, x.isPlain = true) (h : InertStep b t rest way w ws started b') :
    ∃ new begun, Script ws new ∧ Script started begun ∧
      Proceeds b b' (.move t way) t .other new begun b'.background b'.resolver.poller := by
  have hrest : ∀ x ∈ rest, x.isPlain = true := fun x hx => hold x (List.mem_cons_of_mem _ hx)
  have hplain : (∀ x ∈ ws, x.isPlain = true) → ∃ new begun, Script ws new ∧ Script ([] : List (Work α)) begun ∧
      Proceeds b b' (.move t way) t .other new begun b.background b.resolver.poller := by
    intro hnew
    obtain ⟨new, hws, hproceeds⟩ := Balancer.proceeds_of_isPlain hnew
    exact ⟨new, _, hws, .nil, hproceeds⟩
  cases h with
  | resolution step => exact step.proceeds_inert (.plain hold)
  | answer => exact hplain hrest
  | dispatch => exact hplain (List.forall_mem_cons.2 ⟨rfl, hrest⟩)
  | push _ => exact hplain hrest
  | pushTo _ => exact hplain (List.forall_mem_cons.2 ⟨rfl, hrest⟩)
  | send => exact hplain hrest
  | pause _ => exact hplain hrest
  | succeed => exact hplain hrest
  | _ => cases hold _ List.mem_cons_self

/-- What a step of an inert work does to the script of its task. -/
theorem InertStep.proceeds (hscript : Script (w :: rest) old) (ht : t < b.tasks.length)
    (h : InertStep b t rest way w ws started b') : ∃ new begun, Script ws new ∧ Script started begun ∧
      Proceeds b b' (.move t way) t old new begun b'.background b'.resolver.poller := by
  cases hscript with
  | plain hold => exact h.proceeds_of_isPlain hold
  | startBalancer =>
    cases h with
    | refuseBalancer known => exact ⟨_, _, .nil, .nil, .refuseBalancer known (outcome?_finish ht _)⟩
    | startBalancer unknown =>
      have hws : ∀ box : MailboxId, Script ([.startResolver box, .applyBaseline, .launchConsumer box] : List (Work α)) (.resolves true) :=
        fun box => @Script.startResolver α box (some box)
      exact ⟨_, _, hws _, .nil, .startBalancer rfl unknown⟩
  | startResolver =>
    cases h with
    | startFixed kind => exact ⟨_, _, script_startTail _, .nil, .startOther kind⟩
    | startManual kind => exact ⟨_, _, script_startTail _, .nil, .startOther kind⟩
    | refuseResolver why => exact ⟨_, _, .nil, .nil, .refuseResolver (outcome?_finish ht _) why⟩
    | startResolver kind unpolled => exact ⟨_, _, .baseline, .nil, .startResolver rfl kind unpolled⟩
  | baseline =>
    cases h with
    | resolution step => exact step.proceeds_inert .baseline
  | @register _ tail =>
    cases h with
    | registerPoller =>
      refine ⟨_, _, script_startTail _, .polls, .register rfl (fun htail => ?_)⟩
      cases tail with
      | some box => cases htail
      | none => exact outcome?_finish (lt_spawn (b := b) ht _) _
  | applyBaseline =>
    cases h with
    | applyBaseline => exact ⟨_, _, .firstPass, .nil, .stay⟩
  | launch =>
    cases h with
    | launchConsumer => exact ⟨_, _, .nil, .consume, .launch rfl (outcome?_finish (lt_spawn (b := b) ht _) _)⟩
  | polls =>
    cases h with
    | poll step =>
      obtain ⟨new, hws, hproceeds⟩ := step.proceeds (a := .move t way) .polls
      refine ⟨new, _, hws, .nil, ?_⟩
      cases step <;> exact hproceeds
  | poll =>
    cases h with
    | resolution step => exact step.proceeds_inert .poll
  | consume =>
    cases h with
    | consume step =>
      obtain ⟨new, hws, hproceeds⟩ := step.proceeds (a := .move t way) .consume
      refine ⟨new, _, hws, .nil, ?_⟩
      cases step <;> exact hproceeds
  | stopResolver =>
    cases h with
    | stopFixed kind => exact ⟨_, _, script_stopTail _, .nil, .stopOther kind⟩
    | stopManual kind => exact ⟨_, _, script_stopTail _, .nil, .stopOther kind⟩
    | stopPolls kind polled => exact ⟨_, _, .awaitPolls, .nil, .stopPolls polled⟩
    | stopUnpolled kind unpolled =>
      refine ⟨_, _, .forget, .nil, ?_⟩
      show Proceeds b _ (.move t way) t _ _ _ b.background none
      exact unpolled ▸ .stopUnpolled unpolled
  | awaitPolls =>
    cases h with
    | awaitEnd ended => exact ⟨_, _, .forget, .nil, .awaitPolls (post_of_hasEnded ended)⟩
  | forget =>
    cases h with
    | forgetSubscriber => exact ⟨_, _, script_stopTail _, .nil, .forget⟩
  | stopConsumer =>
    cases h with
    | stopConsumer known => exact ⟨_, _, .awaitConsumer, .nil, .stopConsumer known⟩
    | stopNothing unknown =>
      refine ⟨_, _, .clear, .nil, ?_⟩
      show Proceeds b _ (.move t way) t _ _ _ none b.resolver.poller
      exact unknown ▸ .stopNothing unknown
  | awaitConsumer =>
    cases h with
    | awaitEnd ended => exact ⟨_, _, .clear, .nil, .awaitConsumer (post_of_hasEnded ended)⟩
  | clear =>
    cases h with
    | clear => exact ⟨_, _, .lastPass (empties_applyPass b), .nil, .clear⟩
  | reconcile => cases h
  | firstPass => cases h
  | apply => cases h
  | lastPass => cases h

end Inert

theorem PassStep.isDone {p : Pass} (hw : b.works t = .pass p :: rest) (h : PassStep b t rest p b') (hrest : b'.works t = rest) :
    p.IsDone := by
  have ht := lt_of_works hw
  have hgoes : ∀ {q : Pass}, Reworks b b' t (.pass q :: rest) → p.IsDone := fun hreworks => by
    rw [hreworks.self] at hrest
    exact absurd hrest (List.cons_ne_self _ _)
  cases h with
  | enter _ _ _ _ => exact hgoes (reworks_withWorks ht rfl)
  | attempt _ _ _ frame _ => exact hgoes (reworks_withWorks ht frame.tasks)
  | publish _ _ => exact hgoes (reworks_withWorks ht rfl)
  | retire _ _ _ frame _ _ => exact hgoes (reworks_withWorks ht frame.tasks)
  | conclude phase ended => exact ⟨_, _, _, phase, ended⟩

/-- What a step of a pass does to the script of its task. -/
theorem PassStep.proceeds {p : Pass} {old : Post} (hscript : Script (.pass p :: rest) old) (hw : b.works t = .pass p :: rest)
    (h : PassStep b t rest p b') : ∃ ws new, Leaves b b' t ws [] ∧ Script ws new ∧
      Proceeds b b' a t old new .over b.background b.resolver.poller := by
  obtain ⟨ws, hleaves, hws⟩ := h.leaves hw
  refine ⟨ws, ?_⟩
  have hempties : ∀ {p' : Pass}, p'.target = p.target → p'.publish = p.publish → p.Empties → p'.Empties := by
    intro p' htarget hpublish hp
    rwa [Pass.Empties, htarget, hpublish]
  rcases hws with rfl | ⟨p', rfl, htarget, hpublish⟩
  · cases hscript with
    | plain h => cases h _ List.mem_cons_self
    | reconcile => exact ⟨_, hleaves, .nil, .finish (.inr rfl)⟩
    | firstPass => exact ⟨_, hleaves, .launch, .stay⟩
    | apply => exact ⟨_, hleaves, .consume, .stay⟩
    | lastPass _ =>
      refine ⟨_, hleaves, .plain (List.forall_mem_singleton.2 rfl), .cleared (fun q qrest heq => ?_)⟩
      rw [hw] at heq
      injection heq with heq
      injection heq with heq
      exact heq ▸ h.isDone hw ((hleaves t).trans (if_pos rfl))
  · cases hscript with
    | plain h => cases h _ List.mem_cons_self
    | reconcile => exact ⟨_, hleaves, .reconcile, .stay⟩
    | firstPass => exact ⟨_, hleaves, .firstPass, .stay⟩
    | apply => exact ⟨_, hleaves, .apply, .stay⟩
    | lastPass hp => exact ⟨_, hleaves, .lastPass (hempties htarget hpublish hp), .stay⟩

/-- What a step of an export does to the script of its task. -/
theorem Exporting.proceeds {w : Work α} {ws : List (Work α)} {old : Post} (hscript : Script (w :: rest) old)
    (duty : w.isInert = false) (noPass : ∀ p, w ≠ .pass p) (h : Exporting b b' t rest ws) :
    ∃ new, Script ws new ∧ Proceeds b b' a t old new .over b.background b.resolver.poller := by
  have hplain : ∀ {x : Work α}, x.isInert = false → (∀ p, x ≠ .pass p) → x.isPlain = true := by
    intro x hx hne
    cases x with
    | pass p => exact absurd rfl (hne p)
    | _ => first | rfl | cases hx
  obtain ⟨rfl, hold⟩ := hscript.plain_of_isPlain (hplain duty noPass) (fun phase heq => by
    subst heq
    cases duty)
  have hrest : ∀ x ∈ rest, x.isPlain = true := fun x hx => hold x (List.mem_cons_of_mem _ hx)
  rcases h.goes with rfl | ⟨w', rfl, hduty, hne⟩
  · exact proceeds_of_isPlain hrest
  · exact proceeds_of_isPlain (List.forall_mem_cons.2 ⟨hplain hduty hne, hrest⟩)

theorem script_begun (b : Balancer α) (r : Request α) :
    Script (b.begun r) r.post ∨ (b.begun r = [] ∧ b.resolver.kind.isPolling = false) := by
  have hplain : ∀ {w : Work α}, w.isPlain = true → Script [w] .other := fun hw => .plain (List.forall_mem_singleton.2 hw)
  cases r with
  | start => exact .inl .startBalancer
  | shutdown => exact .inl (@Script.stopResolver α true)
  | startResolver box => exact .inl (@Script.startResolver α box none)
  | stopResolver => exact .inl (@Script.stopResolver α false)
  | resolve =>
    rw [begun]
    rcases hkind : b.resolver.kind.isPolling with _ | _
    · exact .inr ⟨rfl, rfl⟩
    · exact .inl (hplain rfl)
  | update endpoints => exact .inl .reconcile
  | reconcile endpoints => exact .inl .reconcile
  | reconcileToRing => exact .inl .reconcile
  | retireAll => exact .inl .reconcile
  | _ => exact .inl (hplain rfl)

/-- The known task that applies updates, the known task that polls, and whether the resolver polls. -/
def known (b : Balancer α) : Option TaskId × Option TaskId × Bool :=
  (b.background, b.resolver.poller, b.resolver.kind.isPolling)

theorem known_congr (h : b'.feed = b.feed) : b'.known = b.known :=
  congrArg (fun f : Feed => (f.background, f.resolver.poller, f.resolver.kind.isPolling)) h

/-- Giving a task up makes nothing known and lets nothing be forgotten. -/
theorem known_abandon (b : Balancer α) (t : TaskId) : (b.abandon t).known = b.known := by
  have hwork : ∀ (w : Work α) (c : Balancer α), (dropWork t c w).known = c.known := by
    intro w c
    cases w with
    | resolution phase => cases phase <;> rfl
    | send box endpoints => rfl
    | _ => exact known_congr (feed_dropWork t c rfl)
  exact foldl_dropWork_congr known (fun w _ => hwork w) b

/-- A request makes nothing known and lets nothing be forgotten. -/
theorem known_request (b : Balancer α) (r : Request α) : (b.request r).1.known = b.known := by
  by_cases hr : r = .resolve
  · subst hr
    show ((b.spawn []).beginResolution b.nextTask []).known = b.known
    unfold beginResolution
    split <;> rfl
  · exact known_congr (b.feed_request hr)

/-- More answers for later make nothing known and let nothing be forgotten. -/
theorem known_extendScript (b : Balancer α) (answers : List SourceAnswer) : (b.extendScript answers).known = b.known := by
  have hpoller : (b.extendScript answers).resolver.poller = b.resolver.poller :=
    congrArg Desk.poller (desk_extendScript b answers)
  rw [known, known, hpoller, (hushed_extendScript b answers).polling]
  rfl

/-- The scripts after an action: every task has one, and those of one task and of the one that is begun have moved on. -/
def MovesOn (b b' : Balancer α) (a : Action α) : Prop :=
  b'.Scripted ∧ ∃ t new begun, (∀ x, b'.post x = if x = t then new else if x = b.nextTask then begun else b.post x) ∧
    Proceeds b b' a t (b.post t) new begun b'.background b'.resolver.poller

theorem Leaves.movesOn {ws started : List (Work α)} {new begun : Post} (h : Leaves b b' t ws started) (hb : b.Scripted)
    (hws : Script ws new) (hstarted : Script started begun)
    (hproceeds : Proceeds b b' a t (b.post t) new begun b'.background b'.resolver.poller) : MovesOn b b' a :=
  ⟨h.scripted hb hws hstarted, t, new, begun, h.posts hws hstarted, hproceeds⟩

/-- A task goes on to other works, and nothing becomes known or is forgotten. -/
theorem Leaves.movesOn_of_known {ws : List (Work α)} {new : Post} (h : Leaves b b' t ws []) (hb : b.Scripted) (hws : Script ws new)
    (hknown : b'.known = b.known) (hproceeds : Proceeds b b' a t (b.post t) new .over b.background b.resolver.poller) :
    MovesOn b b' a := by
  have hbackground : b'.background = b.background := congrArg Prod.fst hknown
  have hpoller : b'.resolver.poller = b.resolver.poller := congrArg (fun k => k.2.1) hknown
  rw [← hbackground, ← hpoller] at hproceeds
  exact h.movesOn hb hws .nil hproceeds

/-- The works stay, and nothing becomes known or is forgotten. -/
theorem movesOn_of_works (hb : b.Scripted) (hworks : ∀ x, b'.works x = b.works x) (hknown : b'.known = b.known) :
    MovesOn b b' a := by
  have hfresh : b.post b.nextTask = .over := post_of_le (Nat.le_refl _)
  refine (leaves_of_works hworks).movesOn_of_known hb .nil hknown ?_
  rw [hfresh]
  exact .stay

theorem movesOn_request (hb : b.Scripted) (r : Request α) : MovesOn b (b.request r).1 (.request r) := by
  have hfresh : b.post b.nextTask = .over := post_of_le (Nat.le_refl _)
  rcases script_begun b r with hscript | ⟨hnil, _⟩
  · refine (leaves_request b r).movesOn_of_known hb hscript (known_request b r) ?_
    rw [hfresh]
    exact .request rfl rfl
  · refine (hnil ▸ leaves_request b r).movesOn_of_known hb .nil (known_request b r) ?_
    rw [hfresh]
    exact .stay

theorem movesOn_abandon (hb : b.Scripted) (t : TaskId) : MovesOn b (b.abandon t) (.abandon t) :=
  (leaves_abandon b t).movesOn_of_known hb .nil (known_abandon b t) (.abandon rfl)

theorem Turn.proceeds (hb : b.Scripted) (h : Turn b a b') : MovesOn b b' a := by
  cases h with
  | @inert t way w rest ws started _ works _ _ step _ =>
    obtain ⟨new, begun, hws, hstarted, hproceeds⟩ := step.proceeds (works ▸ hb t) (lt_of_works works)
    exact (step.leaves (lt_of_works works)).movesOn hb hws hstarted hproceeds
  | @pass t way p rest _ works _ step =>
    obtain ⟨ws, new, hleaves, hws, hproceeds⟩ := step.proceeds (a := .move t way) (works ▸ hb t) works
    exact hleaves.movesOn_of_known hb hws (known_congr step.feed) hproceeds
  | @exports t way w rest ws _ works duty noPass _ exporting =>
    obtain ⟨new, hws, hproceeds⟩ := exporting.proceeds (a := .move t way) (works ▸ hb t) duty noPass
    exact exporting.leaves.movesOn_of_known hb hws (known_congr exporting.feed) hproceeds
  | request _ => exact movesOn_request hb _
  | abandon => exact movesOn_abandon hb _
  | answer => exact movesOn_of_works hb (fun _ => rfl) (known_extendScript b _)
  | unsubscribe => exact movesOn_of_works hb (fun _ => rfl) rfl
  | openInbox => exact movesOn_of_works hb (fun _ => rfl) rfl
  | keepInboxes => exact movesOn_of_works hb (fun _ => rfl) rfl
  | @receive box => cases box <;> exact movesOn_of_works hb (fun _ => rfl) rfl
  | still _ works feed _ => exact movesOn_of_works hb works (known_congr feed)

theorem Turn.polling_eq (h : Turn b a b') : b'.resolver.kind.isPolling = b.resolver.kind.isPolling := by
  have hknown : b'.known = b.known → b'.resolver.kind.isPolling = b.resolver.kind.isPolling := fun heq =>
    congrArg (fun k => k.2.2) heq
  cases h with
  | inert _ _ _ step _ =>
    cases step with
    | resolution step => exact step.polling_eq
    | poll step => cases step <;> rfl
    | consume step => cases step <;> rfl
    | _ => rfl
  | pass _ _ step => exact hknown (known_congr step.feed)
  | exports _ _ _ _ exporting => exact hknown (known_congr exporting.feed)
  | @request r _ => exact hknown (known_request b r)
  | @abandon t => exact hknown (known_abandon b t)
  | @answer answers => exact hknown (known_extendScript b _)
  | @receive box => cases box <;> rfl
  | still _ _ feed _ => exact hknown (known_congr feed)
  | _ => rfl

theorem Change.length_le (hb : b.Grounded) (h : Change b a b') : b.tasks.length ≤ b'.tasks.length := by
  cases h with
  | calm undisturbed => exact undisturbed.grows
  | advance => exact Nat.le_refl _
  | pass works _ step =>
    have ht := lt_of_works works
    cases stepPass_cases (hb.duties _ _ (duty?_of_works works rfl)) step with
    | enter _ _ _ _ => exact (reworks_withWorks ht rfl).grows
    | attempt _ _ _ frame _ => exact (reworks_withWorks ht frame.tasks).grows
    | publish _ _ => exact (reworks_withWorks ht rfl).grows
    | retire _ _ _ frame _ _ => exact (reworks_withWorks ht frame.tasks).grows
    | conclude _ _ => exact (reworks_concludePass ht _ _).grows
  | deliver works _ step =>
    have ht := lt_of_works works
    cases stepDeliver_cases (hb.duties _ _ (duty?_of_works works rfl)) step with
    | parcel _ _ _ frame _ => exact (reworks_withWorks ht frame.tasks).grows
    | finish _ => exact (reworks_finish ht rfl).grows
  | exportLeased works _ step =>
    have ht := lt_of_works works
    obtain ⟨held, entry, _, _, hstep⟩ := stepExportLeased_cases hb step
    cases hstep with
    | refuse frame _ _ => exact (reworks_finish ht ((resettles_useLease _ _ (· - 1)).tasks.trans frame.tasks)).grows
    | call frame _ _ => exact (reworks_withWorks ht frame.tasks).grows
    | finish frame _ _ _ => exact (reworks_finish ht ((resettles_useLease _ _ (· - 1)).tasks.trans frame.tasks)).grows
  | @use lease batch _ =>
    have hlength : (b.request (.exportLeased lease batch)).1.tasks.length = (b.spawn []).tasks.length :=
      (congrArg List.length (resettles_useLease _ lease (· + 1)).tasks).trans (List.length_modify _ _ _)
    rw [hlength]
    exact (undisturbed_spawn_nil b).grows
  | lease taken =>
    obtain ⟨_, _, _, d, _, _, hframe, _, _, hresettles, rfl⟩ := leaseAs_spec taken
    exact Nat.le_of_eq (congrArg List.length (hresettles.tasks.trans hframe.tasks).symm)
  | @dropLease name => exact Nat.le_of_eq (congrArg List.length (resettles_dropName b name).tasks.symm)
  | notify => exact Nat.le_refl _
  | abandon _ _ undisturbed =>
    refine Nat.le_trans (Nat.le_of_eq ?_) undisturbed.grows
    rw [withWorks, List.length_modify, tasks_dropWork]

/-- A start was under way before, or it is asked for now. -/
theorem Proceeds.isStart {old new begun : Post} {background poller : Option TaskId}
    (h : Proceeds b b' a t old new begun background poller) : begun.isStart = false ∧
      (new.isStart = true → old.isStart = true ∨ ∃ rq, a = .request rq ∧ rq.isStart = true ∧ t = b.nextTask) := by
  cases h with
  | stay => exact ⟨rfl, .inl⟩
  | @request rq action fresh =>
    refine ⟨rfl, fun hnew => .inr ⟨rq, action, ?_, fresh⟩⟩
    cases rq <;> first | rfl | cases hnew
  | _ =>
    (try cases ‹Bool›) <;> first | exact ⟨rfl, fun _ => .inl rfl⟩ | exact ⟨rfl, fun h => absurd h Bool.false_ne_true⟩

end Posts

end Balancer

namespace Run

theorem scripted (r : Run α) : ∀ n, (r.state n).Scripted
  | 0 => fun _ => .nil
  | n + 1 => ((r.turn n).proceeds (r.scripted n)).1

/-- How a step of a run changes the posts and what is known. -/
theorem proceeds (r : Run α) (n : Nat) : ∃ t old new begun background poller, (r.state n).post t = old ∧
    (∀ x, (r.state (n + 1)).post x = if x = t then new else if x = (r.state n).nextTask then begun else (r.state n).post x) ∧
      (r.state (n + 1)).background = background ∧ (r.state (n + 1)).resolver.poller = poller ∧
        Balancer.Proceeds (r.state n) (r.state (n + 1)) (r.action n) t old new begun background poller := by
  obtain ⟨t, new, begun, hposts, hproceeds⟩ := ((r.turn n).proceeds (r.scripted n)).2
  exact ⟨t, _, new, begun, _, _, rfl, hposts, rfl, rfl, hproceeds⟩

/-- What a task is in for after a step was so before, or comes from the change that the step makes. -/
theorem before_of_post (r : Run α) {P : Post → Bool} {n : Nat} {x : TaskId} (h : P ((r.state (n + 1)).post x) = true) :
    P ((r.state n).post x) = true ∨ ∃ t new begun, Balancer.Proceeds (r.state n) (r.state (n + 1)) (r.action n) t ((r.state n).post t) new
      begun (r.state (n + 1)).background (r.state (n + 1)).resolver.poller ∧
        ((x = t ∧ P new = true) ∨ (x = (r.state n).nextTask ∧ P begun = true)) := by
  obtain ⟨t, new, begun, hposts, hproceeds⟩ := ((r.turn n).proceeds (r.scripted n)).2
  rw [hposts x] at h
  split at h
  · exact .inr ⟨t, new, begun, hproceeds, .inl ⟨by assumption, h⟩⟩
  · split at h
    · exact .inr ⟨t, new, begun, hproceeds, .inr ⟨by assumption, h⟩⟩
    · exact .inl h

/-- What a task is in for stays in a step, unless the step changes it. -/
theorem after_of_post (r : Run α) {P : Post → Prop} {n : Nat} {x : TaskId} (hover : ¬ P .over) (h : P ((r.state n).post x)) :
    P ((r.state (n + 1)).post x) ∨ ∃ begun, Balancer.Proceeds (r.state n) (r.state (n + 1)) (r.action n) x ((r.state n).post x)
      ((r.state (n + 1)).post x) begun (r.state (n + 1)).background (r.state (n + 1)).resolver.poller := by
  obtain ⟨t, new, begun, hposts, hproceeds⟩ := ((r.turn n).proceeds (r.scripted n)).2
  have hpost := hposts x
  by_cases hx : x = t
  · subst hx
    rw [if_pos rfl] at hpost
    exact .inr ⟨begun, hpost ▸ hproceeds⟩
  · have hne : x ≠ (r.state n).nextTask := by
      rintro rfl
      exact hover (Balancer.post_of_le (b := r.state n) (Nat.le_refl _) ▸ h)
    rw [if_neg hx, if_neg hne] at hpost
    exact .inl (hpost ▸ h)

/-- What is so of a task only because of a request was requested. -/
theorem requested_of_post (r : Run α) {P : Post → Bool} {Q : Request α → Bool} (hover : P .over = false)
    (hproceeds : ∀ {b b' : Balancer α} {a : Action α} {t : TaskId} {old new begun : Post} {background poller : Option TaskId},
      Balancer.Proceeds b b' a t old new begun background poller → P begun = false ∧
        (P new = true → P old = true ∨ ∃ rq, a = .request rq ∧ Q rq = true ∧ t = b.nextTask)) :
    ∀ n x, P ((r.state n).post x) = true → ∃ k < n, ∃ rq, r.action k = .request rq ∧ Q rq = true ∧ x = (r.state k).nextTask := by
  intro n
  induction n with
  | zero =>
    intro x hx
    cases hover.symm.trans hx
  | succ n ih =>
    intro x hx
    have hearlier : P ((r.state n).post x) = true → ∃ k < n + 1, ∃ rq, r.action k = .request rq ∧ Q rq = true ∧
        x = (r.state k).nextTask := by
      intro hpost
      obtain ⟨k, hk, hrequest⟩ := ih x hpost
      exact ⟨k, Nat.lt_succ_of_lt hk, hrequest⟩
    rcases r.before_of_post hx with hpost | ⟨t, new, begun, hstep, ⟨rfl, hnew⟩ | ⟨_, hbegun⟩⟩
    · exact hearlier hpost
    · rcases (hproceeds hstep).2 hnew with hpost | ⟨rq, haction, hrq, hfresh⟩
      · exact hearlier hpost
      · exact ⟨n, Nat.lt_succ_self n, rq, haction, hrq, hfresh⟩
    · cases (hproceeds hstep).1.symm.trans hbegun

theorem requested_of_isStart (r : Run α) : ∀ n x, ((r.state n).post x).isStart = true →
    ∃ k < n, ∃ rq, r.action k = .request rq ∧ rq.isStart = true ∧ x = (r.state k).nextTask :=
  r.requested_of_post rfl (fun h => h.isStart)

theorem polling_eq (r : Run α) : ∀ n, (r.state n).resolver.kind.isPolling = r.resolver.kind.isPolling
  | 0 => rfl
  | n + 1 => (r.turn n).polling_eq.trans (r.polling_eq n)

theorem post_of_request (r : Run α) {n : Nat} {rq : Request α} (haction : r.action n = .request rq)
    (hallowed : (r.state n).allows rq = true) (hresolve : rq ≠ .resolve) :
    (r.state (n + 1)).post (r.state n).nextTask = rq.post := by
  have hworks : (r.state (n + 1)).works (r.state n).nextTask = (r.state n).begun rq := by
    rw [state, haction, Balancer.perform, if_pos hallowed, Balancer.works_request, if_pos rfl]
  rw [Balancer.post, hworks]
  rcases (r.state n).script_begun rq with hscript | ⟨hnil, _⟩
  · exact hscript.ofWorks_eq
  · cases rq <;> first | exact absurd rfl hresolve | cases hnil

theorem post_nextTask (r : Run α) (n : Nat) : (r.state n).post (r.state n).nextTask = .over := Balancer.post_of_le (Nat.le_refl _)

theorem lt_of_post (r : Run α) {n : Nat} {x : TaskId} (h : (r.state n).post x ≠ .over) : x < (r.state n).nextTask :=
  Nat.lt_of_not_le (fun hle => h (Balancer.post_of_le hle))

theorem nextTask_le (r : Run α) {n m : Nat} (hnm : n ≤ m) : (r.state n).nextTask ≤ (r.state m).nextTask := by
  induction m, hnm using Nat.le_induction with
  | base => exact Nat.le_refl _
  | succ m _ ih => exact Nat.le_trans ih ((r.change m).length_le (r.grounded m))

theorem post_over_of_le (r : Run α) {n m : Nat} {x : TaskId} (hnm : n ≤ m) (hlt : x < (r.state n).nextTask)
    (h : (r.state n).post x = .over) : (r.state m).post x = .over := by
  induction m, hnm using Nat.le_induction with
  | base => exact h
  | succ m hnm ih =>
    have hne : x ≠ (r.state m).nextTask := Nat.ne_of_lt (Nat.lt_of_lt_of_le hlt (r.nextTask_le hnm))
    obtain ⟨t, old, new, begun, background, poller, hold, hposts, _, _, hproceeds⟩ := r.proceeds m
    rw [hposts x, if_neg hne]
    split
    · rename_i heq
      subst heq
      rw [ih] at hold
      cases hproceeds with
      | request _ fresh => exact absurd fresh hne
      | stay => exact hold.symm
      | abandon _ => rfl
      | finish _ => rfl
      | _ => cases hold
    · exact ih

/-- A task that was started for a start, for a stop or for a pass is there from then on. -/
theorem nextTask_lt_of_request (r : Run α) {k n : Nat} {rq : Request α} (haction : r.action k = .request rq)
    (hrq : rq.post ≠ .other) (hkn : k < n) : (r.state k).nextTask < (r.state n).nextTask := by
  have hallowed : (r.state k).allows rq = true := by
    cases rq <;> first | rfl | exact absurd rfl hrq
  have hpost : (r.state (k + 1)).post (r.state k).nextTask ≠ .over := by
    rw [r.post_of_request haction hallowed (fun heq => hrq (heq ▸ rfl))]
    cases rq <;> exact fun h => by cases h
  exact Nat.lt_of_lt_of_le (r.lt_of_post hpost) (r.nextTask_le hkn)

theorem post_over_of_request (r : Run α) {k n m : Nat} {rq : Request α} (haction : r.action k = .request rq) (hrq : rq.post ≠ .other)
    (hkn : k < n) (hover : (r.state n).works (r.state k).nextTask = []) (hnm : n ≤ m) :
    (r.state m).post (r.state k).nextTask = .over :=
  r.post_over_of_le hnm (r.nextTask_lt_of_request haction hrq hkn) (Balancer.post_eq_over_iff.2 hover)

/-- Whether no start is asked for while another one is under way. -/
def SpacesStarts (r : Run α) : Prop := ∀ k n rq rq', k < n → r.action k = .request rq → r.action n = .request rq' →
  rq.isStart = true → rq'.isStart = true → (r.state n).works (r.state k).nextTask = []

/-- Of starts that do not overlap, one is over as soon as another is asked for. -/
theorem SpacesStarts.post_over {r : Run α} (h : r.SpacesStarts) {k n m : Nat} {rq rq' : Request α} (hkn : k < n)
    (haction : r.action k = .request rq) (haction' : r.action n = .request rq') (hrq : rq.isStart = true) (hrq' : rq'.isStart = true)
    (hnm : n ≤ m) : (r.state m).post (r.state k).nextTask = .over :=
  r.post_over_of_request haction (Request.post_ne_other hrq) hkn (h k n rq rq' hkn haction haction' hrq hrq') hnm

/-- Of starts that do not overlap, one at a time has works. -/
theorem SpacesStarts.eq_of_isStart {r : Run α} (h : r.SpacesStarts) {n : Nat} {x y : TaskId}
    (hx : ((r.state n).post x).isStart = true) (hy : ((r.state n).post y).isStart = true) : x = y := by
  obtain ⟨k, hk, rq, haction, hrq, rfl⟩ := r.requested_of_isStart n x hx
  obtain ⟨k', hk', rq', haction', hrq', rfl⟩ := r.requested_of_isStart n y hy
  rcases Nat.lt_trichotomy k k' with hkk | rfl | hkk
  · rw [h.post_over hkk haction haction' hrq hrq' (Nat.le_of_lt hk')] at hx
    cases hx
  · rfl
  · rw [h.post_over hkk haction' haction hrq' hrq (Nat.le_of_lt hk)] at hy
    cases hy

end Run

end TelemetryRouter
