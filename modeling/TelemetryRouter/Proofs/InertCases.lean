import TelemetryRouter.Proofs.Tasks

/-!
# What a step of an inert work does

A resolution asks the source, hears an answer and tells the subscriber if that changed the list; the other inert works start and
stop the resolver, its polls and the background task. Each of their steps is opened once here: what it was waiting for, and the state
that it leaves.
-/

namespace TelemetryRouter

variable {α : Type}

/-- Whether a resolver asks a source. -/
def ResolverKind.isPolling : ResolverKind → Bool
  | .polling _ _ _ => true
  | _ => false

/-- Whether an answer of a source counts as a success: a list that is not empty. -/
def succeeds : Except RouterError (List Endpoint) → Bool
  | .ok (_ :: _) => true
  | _ => false

/-- The list that a successful answer stands for. -/
def listOf? : Except RouterError (List Endpoint) → Option (List Endpoint)
  | .ok (e :: es) => some (Endpoint.normalize (e :: es))
  | _ => none

/-- The list that an answer replaces another one by, if it says anything new. -/
def change? (known : List Endpoint) (answer : Except RouterError (List Endpoint)) : Option (List Endpoint) :=
  (listOf? answer).filter (fun es => decide (known ≠ es))

/-- How a resolution goes on once the list has changed, or has not. -/
def ResolutionPhase.after : Option (List Endpoint) → ResolutionPhase
  | some endpoints => .announcing endpoints
  | none => .ending

theorem ResolverKind.eq_of_isPolling {kind : ResolverKind} (h : kind.isPolling = true) :
    ∃ source interval timeout, kind = .polling source interval timeout := by
  cases kind with
  | fixed => cases h
  | polling source interval timeout => exact ⟨source, interval, timeout, rfl⟩
  | manual name startError stopError => cases h

theorem change?_of_eq {known : List Endpoint} {answer : Except RouterError (List Endpoint)} (h : listOf? answer = some known) :
    change? known answer = none := by
  rw [change?, h, Option.filter_some, decide_eq_false (fun hne => hne rfl)]
  rfl

theorem change?_of_ne {known es : List Endpoint} {answer : Except RouterError (List Endpoint)} (h : listOf? answer = some es)
    (hne : known ≠ es) : change? known answer = some es := by
  rw [change?, h, Option.filter_some, decide_eq_true hne]
  rfl

namespace Balancer

/-! ## The works of the tasks after a change -/

section Works

variable {b : Balancer α} {t : TaskId}

theorem works_withWorks (ht : t < b.tasks.length) (ws : List (Work α)) (x : TaskId) :
    (b.withWorks t ws).works x = if x = t then ws else b.works x := by
  rw [works, works, task?, task?, withWorks, List.getElem?_modify]
  split
  · rename_i heq
    rw [if_pos heq.symm, ← heq, List.getElem?_eq_getElem ht]
    rfl
  · rename_i hne
    rw [if_neg (Ne.symm hne)]
    simp

theorem works_finish (ht : t < b.tasks.length) (rest : List (Work α)) (outcome : Outcome α) (x : TaskId) :
    (b.finish t rest outcome).works x = if x = t then rest else b.works x := by
  rw [works, works, task?, task?, finish, List.getElem?_modify]
  split
  · rename_i heq
    rw [if_pos heq.symm, ← heq, List.getElem?_eq_getElem ht]
    rfl
  · rename_i hne
    rw [if_neg (Ne.symm hne)]
    simp

theorem works_spawn (b : Balancer α) (ws : List (Work α)) (x : TaskId) :
    (b.spawn ws).works x = if x = b.nextTask then ws else b.works x := by
  rw [works, works, task?, task?, spawn, nextTask]
  rcases Nat.lt_trichotomy x b.tasks.length with hlt | heq | hgt
  · rw [if_neg (Nat.ne_of_lt hlt), List.getElem?_append_left hlt]
  · rw [if_pos heq, heq, List.getElem?_append_right (Nat.le_refl _), Nat.sub_self]
    rfl
  · rw [if_neg (Nat.ne_of_gt hgt), List.getElem?_eq_none (Nat.le_of_lt hgt), List.getElem?_eq_none]
    rw [List.length_append, List.length_singleton]
    exact hgt

theorem lt_spawn (ht : t < b.tasks.length) (ws : List (Work α)) : t < (b.spawn ws).tasks.length := by
  rw [spawn, List.length_append]
  exact Nat.lt_add_right _ ht

end Works

/-! ## Resolutions -/

/-- What a resolution that asked the source hears by now, if anything: the answer, or that the time is up. -/
def heard? (b : Balancer α) (arrival : Option Nat) (result : Except RouterError (List Endpoint)) (deadline : Instant) :
    Option (Except RouterError (List Endpoint)) :=
  if arrival.any (· ≤ b.now) then some result
  else if Instant.reached deadline b.now then some (.error (.discovery b.resolver.name "resolution timed out"))
  else none

/-- A balancer whose resolver has heard an answer. -/
def hear (b : Balancer α) (answer : Except RouterError (List Endpoint)) : Balancer α :=
  { b with
    resolver := { b.resolver with known := (change? b.resolver.known answer).getD b.resolver.known }
    metrics := b.metrics.recordResolution b.resolver.name (succeeds answer) }

/-- The answer that is in counts, and replaces the known list if it says anything new. -/
theorem concludeListing_eq (b : Balancer α) (answer : Except RouterError (List Endpoint)) :
    b.concludeListing answer = (b.hear answer, ResolutionPhase.after (change? b.resolver.known answer)) := by
  unfold concludeListing hear
  split
  · rfl
  · rfl
  · rename_i endpoints hne
    obtain ⟨e, es, rfl⟩ := List.exists_cons_of_ne_nil hne
    dsimp only
    split
    · rename_i hsame
      have hnone : change? b.resolver.known (.ok (e :: es)) = none := change?_of_eq (congrArg some hsame.symm)
      rw [hnone]
      rfl
    · rename_i hnew
      have hsome : change? b.resolver.known (.ok (e :: es)) = some (Endpoint.normalize (e :: es)) := change?_of_ne rfl hnew
      rw [hsome]
      rfl

/-- What a step of a resolution does, and the works that it leaves to its task. -/
inductive ResolutionStep (b : Balancer α) (t : TaskId) (rest : List (Work α)) :
    ResolutionPhase → List (Work α) → Balancer α → Prop
  | ask {gate : Gate} {asked : Resolver} {source : Source} {interval timeout : Duration} {answer : SourceAnswer} {ws : List (Work α)}
    (enters : b.resolver.gate.enter? t = some gate) (kind : b.resolver.kind = .polling source interval timeout)
    (asked_eq : ({ b.resolver with gate := gate } : Resolver).ask = (answer, asked))
    (works_eq : ws = .resolution (.listing (if answer.hangs then none else some (b.now + answer.delay)) answer.result
      (Instant.after b.now timeout)) :: rest) :
    ResolutionStep b t rest .queued ws (({ b with resolver := asked } : Balancer α).withWorks t ws)
  | skip {gate : Gate} (enters : b.resolver.gate.enter? t = some gate) (kind : b.resolver.kind.isPolling = false) :
    ResolutionStep b t rest .queued (.resolution .ending :: rest)
      (({ b with resolver := { b.resolver with gate := gate } } : Balancer α).withWorks t (.resolution .ending :: rest))
  | hear {arrival : Option Nat} {result answer : Except RouterError (List Endpoint)} {deadline : Instant}
    (heard : b.heard? arrival result deadline = some answer) :
    ResolutionStep b t rest (.listing arrival result deadline) (.resolution (.after (change? b.resolver.known answer)) :: rest)
      ((b.hear answer).withWorks t (.resolution (.after (change? b.resolver.known answer)) :: rest))
  | tell {endpoints : List Endpoint} {box : MailboxId} (subscriber : b.resolver.subscriber = some box) :
    ResolutionStep b t rest (.announcing endpoints) (.resolution (.sending box endpoints) :: rest)
      ((b.changeMailbox box (·.join t)).withWorks t (.resolution (.sending box endpoints) :: rest))
  | keep {endpoints : List Endpoint} (subscriber : b.resolver.subscriber = none) :
    ResolutionStep b t rest (.announcing endpoints) (.resolution .ending :: rest) (b.withWorks t (.resolution .ending :: rest))
  | lose {box : MailboxId} {endpoints : List Endpoint} (gone : b.hasReceiver box = false) :
    ResolutionStep b t rest (.sending box endpoints) (.resolution .ending :: rest)
      ((b.changeMailbox box (·.leave t)).withWorks t (.resolution .ending :: rest))
  | put {box : MailboxId} {endpoints : List Endpoint} (read : b.hasReceiver box = true)
    (ready : (b.mailboxes[box]?).any (·.ready t) = true) :
    ResolutionStep b t rest (.sending box endpoints) (.resolution .ending :: rest)
      ((b.changeMailbox box (·.put t endpoints)).withWorks t (.resolution .ending :: rest))
  | conclude : ResolutionStep b t rest .ending rest
      (({ b with resolver := { b.resolver with gate := b.resolver.gate.leave t } } : Balancer α).finish t rest
        (.resolved b.resolver.known))

theorem stepResolution_cases {b b' : Balancer α} {t : TaskId} {rest : List (Work α)} {phase : ResolutionPhase}
    (h : b.stepResolution t rest phase = some b') : ∃ ws, ResolutionStep b t rest phase ws b' := by
  unfold stepResolution at h
  cases phase with
  | queued =>
    obtain ⟨gate, hgate, h⟩ := Option.bind_eq_some_iff.1 h
    injection h with h
    subst h
    unfold callSource
    split
    · rename_i source interval timeout hkind
      exact ⟨_, .ask hgate hkind rfl rfl⟩
    · rename_i hkind
      refine ⟨_, .skip hgate ?_⟩
      unfold ResolverKind.isPolling
      split
      · rename_i source interval timeout hpolling
        exact absurd hpolling (hkind source interval timeout)
      · rfl
  | listing arrival result deadline =>
    have hgo : ∀ answer, b.heard? arrival result deadline = some answer → ∃ ws,
        ResolutionStep b t rest (.listing arrival result deadline) ws
          ((b.concludeListing answer).1.withWorks t (.resolution (b.concludeListing answer).2 :: rest)) := by
      intro answer hheard
      rw [concludeListing_eq]
      exact ⟨_, .hear hheard⟩
    simp only at h
    split at h
    · rename_i harrived
      injection h with h
      subst h
      exact hgo _ (by rw [heard?, if_pos harrived])
    · rename_i harrived
      split at h
      · rename_i hlate
        injection h with h
        subst h
        exact hgo _ (by rw [heard?, if_neg harrived, if_pos hlate])
      · cases h
  | announcing endpoints =>
    simp only at h
    split at h
    · rename_i hnone
      injection h with h
      subst h
      exact ⟨_, .keep hnone⟩
    · rename_i box hsome
      injection h with h
      subst h
      exact ⟨_, .tell hsome⟩
  | sending box endpoints =>
    simp only at h
    split at h
    · rename_i hgone
      injection h with h
      subst h
      exact ⟨_, .lose (by simpa using hgone)⟩
    · rename_i hread
      split at h
      · rename_i hready
        injection h with h
        subst h
        exact ⟨_, .put (by simpa using hread) hready⟩
      · cases h
  | ending =>
    injection h with h
    subst h
    exact ⟨_, .conclude⟩

/-! ## Polls -/

/-- What a step of a task that polls does, and the works that it leaves to its task. -/
inductive PollStep (b : Balancer α) (t : TaskId) (rest : List (Work α)) : Option Ticker → List (Work α) → Balancer α → Prop
  | start {ticker : Ticker} :
    PollStep b t rest none (.poll (some ticker) :: rest) (b.withWorks t (.poll (some ticker) :: rest))
  | stop {ticker : Option Ticker} (why : ticker = none ∨ b.stopRequests.contains t = true) :
    PollStep b t rest ticker rest (b.finish t rest .done)
  | poll {ticker : Ticker} {ws : List (Work α)} (kind : b.resolver.kind.isPolling = true)
    (due : Instant.reached ticker.due b.now = true) (works_eq : ws = .resolution .queued :: .poll (some (ticker.take b.now)) :: rest) :
    PollStep b t rest (some ticker) ws
      (({ b with resolver := { b.resolver with gate := b.resolver.gate.join t } } : Balancer α).withWorks t ws)
  | pollOther {ticker : Ticker} {metrics : MetricBook} (kind : b.resolver.kind.isPolling = false) :
    PollStep b t rest (some ticker) (.poll (some (ticker.take b.now)) :: rest)
      (({ b with metrics := metrics } : Balancer α).finish t (.poll (some (ticker.take b.now)) :: rest)
        (.resolved b.resolver.known))

/-- A resolver that polls comes to its gate with a resolution. -/
theorem beginResolution_of_isPolling {b : Balancer α} (hkind : b.resolver.kind.isPolling = true) (t : TaskId)
    (rest : List (Work α)) :
    b.beginResolution t rest =
      ({ b with resolver := { b.resolver with gate := b.resolver.gate.join t } } : Balancer α).withWorks t
        (.resolution .queued :: rest) := by
  obtain ⟨source, interval, timeout, heq⟩ := ResolverKind.eq_of_isPolling hkind
  unfold beginResolution
  rw [heq]

/-- Another resolver gives the list that it knows at once. -/
theorem beginResolution_of_not_isPolling {b : Balancer α} (hkind : b.resolver.kind.isPolling = false) (t : TaskId)
    (rest : List (Work α)) : ∃ metrics, b.beginResolution t rest =
      ({ b with metrics := metrics } : Balancer α).finish t rest (.resolved b.resolver.known) := by
  unfold beginResolution
  split
  · rename_i source interval timeout heq
    rw [heq] at hkind
    cases hkind
  · exact ⟨_, rfl⟩
  · exact ⟨b.metrics, rfl⟩

theorem stepPoll_cases {b b' : Balancer α} {t : TaskId} {rest : List (Work α)} {ticker : Option Ticker} {way : Nat}
    (h : b.stepPoll t rest ticker way = some b') : ∃ ws, PollStep b t rest ticker ws b' := by
  unfold stepPoll at h
  cases ticker with
  | none =>
    simp only at h
    split at h
    · split at h
      · injection h with h
        subst h
        exact ⟨_, .start⟩
      · injection h with h
        subst h
        exact ⟨_, .stop (.inl rfl)⟩
    · injection h with h
      subst h
      exact ⟨_, .stop (.inl rfl)⟩
  | some ticker =>
    simp only at h
    split at h
    · split at h
      · rename_i hasked
        injection h with h
        subst h
        exact ⟨_, .stop (.inr hasked)⟩
      · cases h
    · split at h
      · rename_i hdue
        injection h with h
        subst h
        rcases hkind : b.resolver.kind.isPolling with _ | _
        · obtain ⟨metrics, heq⟩ := beginResolution_of_not_isPolling hkind t (.poll (some (ticker.take b.now)) :: rest)
          rw [heq]
          exact ⟨_, .pollOther hkind⟩
        · rw [beginResolution_of_isPolling hkind]
          exact ⟨_, .poll hkind hdue rfl⟩
      · cases h

/-! ## Updates -/

/-- What a step of the task that applies updates does, and the works that it leaves to its task. -/
inductive ConsumeStep (b : Balancer α) (t : TaskId) (rest : List (Work α)) (box : MailboxId) :
    Option Ticker → Bool → Nat → List (Work α) → Balancer α → Prop
  | start {ticker : Ticker} {isOpen : Bool} {way : Nat} : ConsumeStep b t rest box none isOpen way
      (.consume box (some ticker) isOpen :: rest) (b.withWorks t (.consume box (some ticker) isOpen :: rest))
  | stop {ticker : Option Ticker} {isOpen : Bool} {way : Nat}
    (why : b.options.settings.reconcileInterval.isZero = true ∨ b.stopRequests.contains t = true) :
    ConsumeStep b t rest box ticker isOpen way rest (b.finish t rest .done)
  | take {ticker : Ticker} {endpoints : List Endpoint} {mailbox : Mailbox (List Endpoint)}
    (found : (b.mailboxes[box]?).bind Mailbox.take? = some (endpoints, mailbox)) :
    ConsumeStep b t rest box (some ticker) true 1
      (.pass (b.applyPass endpoints) :: .consume box (some ticker) true :: rest)
      ((b.changeMailbox box (fun _ => mailbox)).beginPass t (.consume box (some ticker) true :: rest) (b.applyPass endpoints))
  | close {ticker : Ticker} (found : (b.mailboxes[box]?).bind Mailbox.take? = none) (gone : b.hasSender box = false) :
    ConsumeStep b t rest box (some ticker) true 1 (.consume box (some ticker) false :: rest)
      (b.withWorks t (.consume box (some ticker) false :: rest))
  | refresh {ticker : Ticker} {isOpen : Bool} {way : Nat} (due : Instant.reached ticker.due b.now = true) :
    ConsumeStep b t rest box (some ticker) isOpen (way + 2)
      (.pass Pass.refresh :: .consume box (some (ticker.take b.now)) isOpen :: rest)
      (b.beginPass t (.consume box (some (ticker.take b.now)) isOpen :: rest) Pass.refresh)

/-- Every step of the task that applies updates is one of these. -/
theorem stepConsume_cases {b b' : Balancer α} {t : TaskId} {rest : List (Work α)} {box : MailboxId} {ticker : Option Ticker}
    {isOpen : Bool} {way : Nat} (h : b.stepConsume t rest box ticker isOpen way = some b') :
    ∃ ws, ConsumeStep b t rest box ticker isOpen way ws b' := by
  unfold stepConsume at h
  cases ticker with
  | none =>
    simp only at h
    split at h
    · injection h with h
      subst h
      exact ⟨_, .start⟩
    · rename_i hstart
      injection h with h
      subst h
      refine ⟨_, .stop (.inl ?_)⟩
      unfold Ticker.start? at hstart
      split at hstart
      · rename_i hzero
        exact hzero
      · cases hstart
  | some ticker =>
    rcases way with _ | _ | way
    · simp only at h
      split at h
      · rename_i hasked
        injection h with h
        subst h
        exact ⟨_, .stop (.inr hasked)⟩
      · cases h
    · cases isOpen with
      | false => cases h
      | true =>
        simp only [Bool.not_true, Bool.false_eq_true, if_false] at h
        split at h
        · rename_i endpoints mailbox hfound
          injection h with h
          subst h
          exact ⟨_, .take hfound⟩
        · rename_i hfound
          split at h
          · cases h
          · rename_i hgone
            injection h with h
            subst h
            exact ⟨_, .close hfound (Bool.eq_false_iff.2 hgone)⟩
    · simp only at h
      split at h
      · rename_i hdue
        injection h with h
        subst h
        exact ⟨_, .refresh hdue⟩
      · cases h

/-! ## All of them -/

/-- What a step of an inert work does, the works that it leaves to its task, and those of the task that it starts, if any. -/
inductive InertStep (b : Balancer α) (t : TaskId) (rest : List (Work α)) (way : Nat) :
    Work α → List (Work α) → List (Work α) → Balancer α → Prop
  | resolution {phase : ResolutionPhase} {ws : List (Work α)} {b' : Balancer α} (step : ResolutionStep b t rest phase ws b') :
    InertStep b t rest way (.resolution phase) ws [] b'
  | startFixed {box : MailboxId} {metrics : MetricBook} (kind : b.resolver.kind.isPolling = false) :
    InertStep b t rest way (.startResolver box) rest [] (({ b with metrics := metrics } : Balancer α).finish t rest .done)
  | startManual {box : MailboxId} (kind : b.resolver.kind.isPolling = false) :
    InertStep b t rest way (.startResolver box) rest []
      (({ b with resolver := { b.resolver with subscriber := some box } } : Balancer α).finish t rest .done)
  | refuseResolver {box : MailboxId} {e : RouterError}
    (why : b.resolver.kind.isPolling = true → b.resolver.poller.isSome = true ∧
      e = .configuration (b.resolver.name ++ " resolver already started")) :
    InertStep b t rest way (.startResolver box) [] [] (b.fail t e)
  | startResolver {box : MailboxId} (kind : b.resolver.kind.isPolling = true) (unpolled : b.resolver.poller = none) :
    InertStep b t rest way (.startResolver box) (.resolution .queued :: .registerPoller box :: rest) []
      (({ b with resolver := { b.resolver with gate := b.resolver.gate.join t } } : Balancer α).withWorks t
        (.resolution .queued :: .registerPoller box :: rest))
  | registerPoller {box : MailboxId} : InertStep b t rest way (.registerPoller box) rest [.poll none]
      ((({ b with resolver := { b.resolver with subscriber := some box, poller := some b.nextTask } } : Balancer α).spawn
        [.poll none]).finish t rest .done)
  | stopFixed (kind : b.resolver.kind.isPolling = false) : InertStep b t rest way .stopResolver rest [] (b.finish t rest .done)
  | stopManual {outcome : Outcome α} (kind : b.resolver.kind.isPolling = false) :
    InertStep b t rest way .stopResolver rest []
      (({ b with resolver := { b.resolver with subscriber := none, stops := b.resolver.stops + 1 } } : Balancer α).finish t rest
        outcome)
  | stopPolls {task : TaskId} (kind : b.resolver.kind.isPolling = true) (polled : b.resolver.poller = some task) :
    InertStep b t rest way .stopResolver (.awaitEnd task :: .forgetSubscriber :: rest) []
      (({ b with resolver := { b.resolver with poller := none } } : Balancer α).stopTask t (.forgetSubscriber :: rest) task)
  | stopUnpolled (kind : b.resolver.kind.isPolling = true) (unpolled : b.resolver.poller = none) :
    InertStep b t rest way .stopResolver (.forgetSubscriber :: rest) []
      (({ b with resolver := { b.resolver with poller := none } } : Balancer α).withWorks t (.forgetSubscriber :: rest))
  | awaitEnd {task : TaskId} (ended : b.hasEnded task = true) :
    InertStep b t rest way (.awaitEnd task) rest [] (b.finish t rest .done)
  | forgetSubscriber : InertStep b t rest way .forgetSubscriber rest []
      (({ b with resolver := { b.resolver with subscriber := none } } : Balancer α).finish t rest .done)
  | refuseBalancer (known : b.background.isSome = true) : InertStep b t rest way .startBalancer [] []
      (b.fail t (.configuration "load balancer already started"))
  | startBalancer (unknown : b.background = none) : InertStep b t rest way .startBalancer
      (.startResolver b.nextMailbox :: .applyBaseline :: .launchConsumer b.nextMailbox :: rest) []
      ((b.openMailbox updateCapacity).withWorks t
        (.startResolver b.nextMailbox :: .applyBaseline :: .launchConsumer b.nextMailbox :: rest))
  | applyBaseline : InertStep b t rest way .applyBaseline (.pass (b.applyPass b.resolver.known) :: rest) []
      (b.beginPass t rest (b.applyPass b.resolver.known))
  | launchConsumer {box : MailboxId} : InertStep b t rest way (.launchConsumer box) rest [.consume box none true]
      ((({ b with background := some b.nextTask } : Balancer α).spawn [.consume box none true]).finish t rest .done)
  | stopConsumer {task : TaskId} (known : b.background = some task) : InertStep b t rest way .stopConsumer
      (.awaitEnd task :: rest) [] (({ b with background := none } : Balancer α).stopTask t rest task)
  | stopNothing (unknown : b.background = none) : InertStep b t rest way .stopConsumer rest []
      (({ b with background := none } : Balancer α).finish t rest .done)
  | clear : InertStep b t rest way .clear (.pass (b.applyPass []) :: rest) [] (b.beginPass t rest (b.applyPass []))
  | poll {ticker : Option Ticker} {ws : List (Work α)} {b' : Balancer α} (step : PollStep b t rest ticker ws b') :
    InertStep b t rest way (.poll ticker) ws [] b'
  | consume {box : MailboxId} {ticker : Option Ticker} {isOpen : Bool} {ws : List (Work α)} {b' : Balancer α}
    (step : ConsumeStep b t rest box ticker isOpen way ws b') : InertStep b t rest way (.consume box ticker isOpen) ws [] b'
  | answer {batch : Batch α} {context : DispatchContext} {outcome : Outcome α} :
    InertStep b t rest way (.dispatch batch context) rest [] (b.finish t rest outcome)
  | dispatch {batch : Batch α} {context : DispatchContext} {started : Nat} {deadline : Option Instant} {token : Option String}
    {parcels : List (Parcel α)} : InertStep b t rest way (.dispatch batch context)
      (.deliver started deadline token parcels :: rest) []
      (b.withWorks t (.deliver started deadline token parcels :: rest))
  | push {endpoints : List Endpoint} (subscriber : b.resolver.subscriber = none) :
    InertStep b t rest way (.push endpoints) rest []
      (({ b with resolver := { b.resolver with known := endpoints } } : Balancer α).finish t rest .unsubscribed)
  | pushTo {endpoints : List Endpoint} {box : MailboxId} (subscriber : b.resolver.subscriber = some box) :
    InertStep b t rest way (.push endpoints) (.send box endpoints :: rest) []
      ((({ b with resolver := { b.resolver with known := endpoints } } : Balancer α).changeMailbox box (·.join t)).withWorks t
        (.send box endpoints :: rest))
  | send {box : MailboxId} {endpoints : List Endpoint} {f : Mailbox (List Endpoint) → Mailbox (List Endpoint)}
    {outcome : Outcome α} : InertStep b t rest way (.send box endpoints) rest []
      ((b.changeMailbox box f).finish t rest outcome)
  | pause {wake : Nat} (due : wake ≤ b.now) : InertStep b t rest way (.pause wake) rest [] (b.finish t rest .done)
  | succeed : InertStep b t rest way .succeed rest [] (b.finish t rest .done)

section Steps

variable {b b' : Balancer α} {t : TaskId} {rest : List (Work α)} {way : Nat}

theorem stepStartResolver_cases (b : Balancer α) (t : TaskId) (rest : List (Work α)) (way : Nat) (box : MailboxId) :
    ∃ ws, InertStep b t rest way (.startResolver box) ws [] (b.stepStartResolver t rest box) := by
  have hother : ∀ kind, b.resolver.kind = kind → kind.isPolling = false → b.resolver.kind.isPolling = false :=
    fun _ heq hkind => heq ▸ hkind
  unfold stepStartResolver
  split
  · rename_i heq
    exact ⟨_, .startFixed (hother _ heq rfl)⟩
  · rename_i heq
    split
    · refine ⟨_, .refuseResolver (fun hkind => ?_)⟩
      rw [hother _ heq rfl] at hkind
      cases hkind
    · exact ⟨_, .startManual (hother _ heq rfl)⟩
  · rename_i heq
    have hkind : b.resolver.kind.isPolling = true := by rw [heq]; rfl
    split
    · rename_i hpolled
      exact ⟨_, .refuseResolver (fun _ => ⟨hpolled, rfl⟩)⟩
    · rename_i hpolled
      rw [beginResolution_of_isPolling hkind]
      exact ⟨_, .startResolver hkind (by simpa using hpolled)⟩

theorem stepStopResolver_cases (b : Balancer α) (t : TaskId) (rest : List (Work α)) (way : Nat) :
    ∃ ws, InertStep b t rest way .stopResolver ws [] (b.stepStopResolver t rest) := by
  unfold stepStopResolver
  split
  · rename_i heq
    exact ⟨_, .stopFixed (by rw [heq]; rfl)⟩
  · rename_i heq
    have hkind : b.resolver.kind.isPolling = false := by rw [heq]; rfl
    dsimp only
    split
    · exact ⟨_, .stopManual hkind⟩
    · exact ⟨_, .stopManual hkind⟩
  · rename_i heq
    have hkind : b.resolver.kind.isPolling = true := by rw [heq]; rfl
    dsimp only
    split
    · rename_i task hpolled
      exact ⟨_, .stopPolls hkind hpolled⟩
    · rename_i hunpolled
      exact ⟨_, .stopUnpolled hkind hunpolled⟩

theorem beginDispatch_inert (b : Balancer α) (t : TaskId) (rest : List (Work α)) (way : Nat) (batch : Batch α)
    (context : DispatchContext) :
    ∃ ws, InertStep b t rest way (.dispatch batch context) ws [] (b.beginDispatch t rest batch context) := by
  unfold beginDispatch
  split
  · exact ⟨_, .answer⟩
  · split
    · exact ⟨_, .answer⟩
    · split
      · exact ⟨_, .answer⟩
      · exact ⟨_, .dispatch⟩

theorem step_cases {w : Work α} (hw : w.isInert = true) (h : b.step t rest way w = some b') :
    ∃ ws started, InertStep b t rest way w ws started b' := by
  have hsome : ∀ {c : Balancer α} {w : Work α} {ws started : List (Work α)}, InertStep b t rest way w ws started c →
      some c = some b' → ∃ ws started, InertStep b t rest way w ws started b' := by
    intro c w ws started hc he
    injection he with he
    exact ⟨ws, started, he ▸ hc⟩
  cases w with
  | pass p => cases hw
  | deliver started deadline token parcels => cases hw
  | exportLeased lease batch wake => cases hw
  | resolution phase =>
    obtain ⟨ws, hstep⟩ := stepResolution_cases h
    exact ⟨ws, [], .resolution hstep⟩
  | startResolver box =>
    obtain ⟨ws, hstep⟩ := stepStartResolver_cases b t rest way box
    exact hsome hstep h
  | registerPoller box => exact hsome .registerPoller h
  | stopResolver =>
    obtain ⟨ws, hstep⟩ := stepStopResolver_cases b t rest way
    exact hsome hstep h
  | awaitEnd task =>
    simp only [step] at h
    split at h
    · rename_i hended
      exact hsome (.awaitEnd hended) h
    · cases h
  | forgetSubscriber => exact hsome .forgetSubscriber h
  | startBalancer =>
    simp only [step, stepStartBalancer] at h
    split at h
    · rename_i hknown
      exact hsome (.refuseBalancer hknown) h
    · rename_i hunknown
      exact hsome (.startBalancer (by simpa using hunknown)) h
  | applyBaseline => exact hsome .applyBaseline h
  | launchConsumer box => exact hsome .launchConsumer h
  | stopConsumer =>
    simp only [step, stepStopConsumer] at h
    split at h
    · rename_i task hknown
      exact hsome (.stopConsumer hknown) h
    · rename_i hunknown
      exact hsome (.stopNothing hunknown) h
  | clear => exact hsome .clear h
  | poll ticker =>
    obtain ⟨ws, hstep⟩ := stepPoll_cases h
    exact ⟨ws, [], .poll hstep⟩
  | consume box ticker isOpen =>
    obtain ⟨ws, hstep⟩ := stepConsume_cases h
    exact ⟨ws, [], .consume hstep⟩
  | dispatch batch context =>
    obtain ⟨ws, hstep⟩ := beginDispatch_inert b t rest way batch context
    exact hsome hstep h
  | push endpoints =>
    simp only [step, stepPush] at h
    split at h
    · rename_i hnone
      exact hsome (.push hnone) h
    · rename_i box hbox
      exact hsome (.pushTo hbox) h
  | send box endpoints =>
    simp only [step, stepSend] at h
    split at h
    · exact hsome .send h
    · split at h
      · exact hsome .send h
      · cases h
  | pause wake =>
    simp only [step] at h
    split at h
    · rename_i hover
      exact hsome (.pause hover) h
    · cases h
  | succeed => exact hsome .succeed h

/-! ## The works after a step -/

/-- The works of all tasks after one of them went on to other works, and may have started another one. -/
def Leaves (b b' : Balancer α) (t : TaskId) (ws started : List (Work α)) : Prop :=
  ∀ x, b'.works x = if x = t then ws else if x = b.nextTask then started else b.works x

/-- No task is started exactly if only the works of the one that goes on change. -/
theorem leaves_nil_iff {ws : List (Work α)} : Leaves b b' t ws [] ↔ ∀ x, b'.works x = if x = t then ws else b.works x := by
  refine forall_congr' fun x => ?_
  have hfresh : (if x = b.nextTask then [] else b.works x) = b.works x := by
    split
    · rename_i heq
      exact (works_of_le (Nat.le_of_eq heq.symm)).symm
    · rfl
  rw [hfresh]

theorem leaves_withWorks {c : Balancer α} (ht : t < b.tasks.length) (hts : c.tasks = b.tasks) (ws : List (Work α)) :
    Leaves b (c.withWorks t ws) t ws [] :=
  leaves_nil_iff.2 fun x => by rw [works_withWorks (hts ▸ ht), works_congr hts]

theorem leaves_finish {c : Balancer α} (ht : t < b.tasks.length) (hts : c.tasks = b.tasks) (rest : List (Work α))
    (outcome : Outcome α) : Leaves b (c.finish t rest outcome) t rest [] :=
  leaves_nil_iff.2 fun x => by rw [works_finish (hts ▸ ht), works_congr hts]

theorem leaves_spawn_finish {c : Balancer α} (ht : t < b.tasks.length) (hts : c.tasks = b.tasks) (started rest : List (Work α))
    (outcome : Outcome α) : Leaves b ((c.spawn started).finish t rest outcome) t rest started := by
  intro x
  rw [works_finish (lt_spawn (hts ▸ ht) started), works_spawn, works_congr hts, nextTask, nextTask, hts]

/-- The works of all tasks after a step of an inert work. -/
theorem InertStep.leaves {w : Work α} {ws started : List (Work α)} (ht : t < b.tasks.length)
    (h : InertStep b t rest way w ws started b') : Leaves b b' t ws started := by
  cases h with
  | resolution step => cases step <;> first | exact leaves_withWorks ht rfl _ | exact leaves_finish ht rfl _ _
  | registerPoller => exact leaves_spawn_finish ht rfl _ _ _
  | launchConsumer => exact leaves_spawn_finish ht rfl _ _ _
  | poll step => cases step <;> first | exact leaves_withWorks ht rfl _ | exact leaves_finish ht rfl _ _
  | consume step => cases step <;> first | exact leaves_withWorks ht rfl _ | exact leaves_finish ht rfl _ _
  | _ => first | exact leaves_finish ht rfl _ _ | exact leaves_withWorks ht rfl _

end Steps

end Balancer

end TelemetryRouter
