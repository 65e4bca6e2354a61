import TelemetryRouter.Proofs.Listings

/-!
# Subscriptions

Starts and stops of the resolver follow each other, and no resolution is asked for from outside meanwhile. Then the resolver is polled
by one task at a time, which has ended before a stop takes the subscriber away; and a start gets its subscriber after its own
resolution has ended. So the subscriber only ever changes while no resolution is under way: what a resolution
finds out for a subscriber is told to that subscriber.
-/

namespace TelemetryRouter

variable {α : Type}

/-- What a task does for the resolver. -/
inductive Role where
  | idle
  | asks
  | polls
  | begins
  | registers
  | awaits (task : TaskId)
  | forgets
  deriving DecidableEq, Repr

namespace Role

/-- Whether a task starts or stops the resolver. -/
def isLifecycle : Role → Bool
  | .begins => true
  | .registers => true
  | .awaits _ => true
  | .forgets => true
  | _ => false

/-- The role that works give to their task. -/
def ofWorks : List (Work α) → Role
  | .resolution _ :: .registerPoller _ :: _ => .registers
  | .resolution _ :: .poll _ :: _ => .polls
  | .resolution _ :: _ => .asks
  | .registerPoller _ :: _ => .registers
  | .poll _ :: _ => .polls
  | .startBalancer :: _ => .begins
  | .startResolver _ :: _ => .begins
  | .stopResolver :: _ => .begins
  | .awaitEnd task :: .forgetSubscriber :: _ => .awaits task
  | .forgetSubscriber :: _ => .forgets
  | _ => .idle

/-- Works that have nothing to do with the resolver give no role. -/
theorem ofWorks_of_isApart {ws : List (Work α)} (h : ∀ w ∈ ws, w.isApart = true) : ofWorks ws = .idle := by
  unfold ofWorks
  split
  case h_9 => exact absurd (h _ (List.mem_cons_of_mem _ List.mem_cons_self)) (fun h => nomatch h)
  case h_11 => rfl
  all_goals exact absurd (h _ List.mem_cons_self) (fun h => nomatch h)

/-- The phase of a resolution does not matter for the role. -/
theorem ofWorks_resolution (phase phase' : ResolutionPhase) (rest : List (Work α)) :
    ofWorks (.resolution phase :: rest) = ofWorks (.resolution phase' :: rest) := by
  cases rest with
  | nil => rfl
  | cons w rest => cases w <;> rfl

end Role

namespace Balancer

/-- What a task does for the resolver. -/
def role (b : Balancer α) (t : TaskId) : Role := .ofWorks (b.works t)

/-- How an action changes the role of a task, with the role of a task that it starts, the subscriber and the task that polls. -/
inductive Handover (b : Balancer α) (a : Action α) : Role → Role → Role → Option MailboxId → Option TaskId → Prop
  | stay {role : Role} : Handover b a role role .idle b.resolver.subscriber b.resolver.poller
  | leave {role : Role} (from_role : role = .asks ∨ role = .polls ∨ role = .begins) :
    Handover b a role .idle .idle b.resolver.subscriber b.resolver.poller
  | ask (action : a = .request .resolve) : Handover b a .idle .asks .idle b.resolver.subscriber b.resolver.poller
  | begin {r : Request α} (action : a = .request r) (lifecycle : r.isLifecycle = true) :
    Handover b a .idle .begins .idle b.resolver.subscriber b.resolver.poller
  | baseline (unpolled : b.resolver.poller = none) :
    Handover b a .begins .registers .idle b.resolver.subscriber b.resolver.poller
  | register {box : MailboxId} : Handover b a .registers .idle .polls (some box) (some b.nextTask)
  | stopPolls {task : TaskId} (polled : b.resolver.poller = some task) :
    Handover b a .begins (.awaits task) .idle b.resolver.subscriber none
  | stopUnpolled (unpolled : b.resolver.poller = none) :
    Handover b a .begins .forgets .idle b.resolver.subscriber b.resolver.poller
  | awaited {task : TaskId} (ended : b.role task = .idle) :
    Handover b a (.awaits task) .forgets .idle b.resolver.subscriber b.resolver.poller
  | forget : Handover b a .forgets .idle .idle none b.resolver.poller

section Roles

variable {b b' : Balancer α} {t : TaskId} {rest ws : List (Work α)}

theorem role_of_hasEnded {task : TaskId} (h : b.hasEnded task = true) : b.role task = .idle := by
  rw [hasEnded] at h
  rw [role, works]
  rcases htask : b.task? task with _ | x
  · rfl
  · rw [htask] at h
    have hnil : x.works = [] := by simpa [Task.isOver] using h
    rw [Option.map_some, Option.getD_some, hnil]
    rfl

/-- A step of a resolution leaves the role, or ends a resolution that was asked for. -/
theorem ResolutionStep.role {phase : ResolutionPhase} (hstack : Stack (.resolution phase :: rest))
    (h : ResolutionStep b t rest phase ws b') :
    Role.ofWorks ws = Role.ofWorks (.resolution phase :: rest) ∨
      (Role.ofWorks (.resolution phase :: rest) = .asks ∧ Role.ofWorks ws = .idle) := by
  rcases h.goes with ⟨_, phase', rfl, _⟩ | ⟨_, rfl⟩
  · exact .inl (Role.ofWorks_resolution phase' phase rest)
  · cases hstack with
    | apart h => cases h _ List.mem_cons_self
    | resolve => exact .inr ⟨rfl, rfl⟩
    | poll => exact .inl rfl
    | baseline _ => exact .inl rfl

theorem Rearranges.handover {a : Action α} {old new started : List (Work α)} {desk : Desk}
    (h : Rearranges b t a old new started desk) :
    Handover b a (.ofWorks old) (.ofWorks new) (.ofWorks started) desk.subscriber desk.poller := by
  cases h with
  | apart before after beside =>
    rw [Role.ofWorks_of_isApart before, Role.ofWorks_of_isApart after, Role.ofWorks_of_isApart beside]
    exact .stay
  | resolve _ => exact .ask rfl
  | lifecycle _ lifecycle begins =>
    rcases begins with rfl | ⟨box, rfl⟩ | ⟨rest, _, rfl⟩ <;> exact .begin rfl lifecycle
  | startBalancer _ => exact .stay
  | refuse refused => rcases refused with rfl | ⟨box, rfl⟩ <;> exact .leave (.inr (.inr rfl))
  | startResolver _ unpolled => exact .baseline unpolled
  | register h =>
    rw [Role.ofWorks_of_isApart h]
    exact .register
  | stopPolls _ polled => exact .stopPolls polled
  | stopUnpolled _ unpolled => exact .stopUnpolled unpolled
  | awaitPolls _ ended => exact .awaited (role_of_hasEnded ended)
  | forget h =>
    rw [Role.ofWorks_of_isApart h]
    exact .forget
  | beginPolls => exact .stay
  | endPolls => exact .leave (.inr (.inl rfl))
  | poll => exact .stay

theorem Stir.handover (hb : b.Gated) {a : Action α} (h : Stir b a b') : ∃ t new started,
    (∀ x, b'.role x = if x = t then new else if x = b.nextTask then started else b.role x) ∧
      Handover b a (b.role t) new started b'.resolver.subscriber b'.resolver.poller := by
  have hroles : ∀ {t : TaskId} {ws started : List (Work α)}, Leaves b b' t ws started → ∀ x,
      b'.role x = if x = t then .ofWorks ws else if x = b.nextTask then .ofWorks started else b.role x := by
    intro t ws started hleaves x
    rw [role, hleaves x]
    split
    · rfl
    · split <;> rfl
  cases h with
  | @resolution t way phase rest ws _ works _ step =>
    refine ⟨t, .ofWorks ws, .ofWorks [], hroles (step.leaves (lt_of_works works)), ?_⟩
    rw [step.subscriber_eq.1, step.subscriber_eq.2, role, works]
    rcases step.role (works ▸ hb.stacked t) with heq | ⟨hasks, hidle⟩
    · rw [heq]
      exact .stay
    · rw [hasks, hidle]
      exact .leave (.inl rfl)
  | @rearrange a t old new started _ _ works leaves _ rearranges =>
    exact ⟨t, .ofWorks new, .ofWorks started, hroles leaves, by rw [role, works]; exact rearranges.handover⟩

/-! ## Starts and stops that follow each other -/

/-- One task at a time starts or stops the resolver, and none does while a resolution was asked for from outside. The resolver is
polled by the task that it names, or by one whose end a stop waits for. Until a start gets its subscriber there is neither a
subscriber nor a task that polls; once a stop is past its beginning the resolver names no task that polls any more. -/
structure Alternates (b : Balancer α) : Prop where
  one : ∀ t t', (b.role t).isLifecycle = true → (b.role t').isLifecycle = true → t = t'
  alone : ∀ t t', b.role t = .asks → (b.role t').isLifecycle = false
  polled : ∀ t, b.role t = .polls → b.resolver.poller = some t ∨ ∃ t', b.role t' = .awaits t
  unregistered : ∀ t, b.role t = .registers → b.resolver.poller = none ∧ b.resolver.subscriber = none
  stopping : ∀ t, (b.role t = .forgets ∨ ∃ task, b.role t = .awaits task) → b.resolver.poller = none
  subscribed : b.resolver.subscriber ≠ none →
    b.resolver.poller ≠ none ∨ ∃ t, b.role t = .forgets ∨ ∃ task, b.role t = .awaits task

/-- Whether an action asks for a start or a stop only while no other is under way and no resolution was asked for from outside, and
for a resolution only while no start or stop is under way. -/
def KeepsApart (b : Balancer α) (a : Action α) : Prop :=
  (∀ r, a = .request r → r.isLifecycle = true → ∀ t, b.role t ≠ .asks ∧ (b.role t).isLifecycle = false) ∧
    (a = .request .resolve → ∀ t, (b.role t).isLifecycle = false)

/-- While a task is past the check that nobody polls, or has asked the polls of another to end, no other task polls. -/
theorem Alternates.not_polls (hb : b.Alternates) {t x : TaskId} (ht : b.role t = .registers ∨ b.role t = .forgets) :
    b.role x ≠ .polls := by
  intro hx
  have hlife : (b.role t).isLifecycle = true := by rcases ht with ht | ht <;> rw [ht] <;> rfl
  have hnone : b.resolver.poller = none := by
    rcases ht with ht | ht
    · exact (hb.unregistered t ht).1
    · exact hb.stopping t (.inl ht)
  rcases hb.polled x hx with hpolled | ⟨t', hawaits⟩
  · rw [hnone] at hpolled
    cases hpolled
  · have heq := hb.one t t' hlife (by rw [hawaits]; rfl)
    rw [heq, hawaits] at ht
    rcases ht with ht | ht <;> cases ht

/-- While a task begins to start or to stop the resolver, there is a subscriber only if there are polls. -/
theorem Alternates.subscriber_of_begins (hb : b.Alternates) {t : TaskId} (ht : b.role t = .begins)
    (hnone : b.resolver.poller = none) : b.resolver.subscriber = none := by
  by_contra hsome
  obtain ⟨t', ht'⟩ := (hb.subscribed hsome).resolve_left (fun h => h hnone)
  have hlife : (b.role t').isLifecycle = true := by
    rcases ht' with ht' | ⟨task, ht'⟩ <;> rw [ht'] <;> rfl
  have heq := hb.one t t' (by rw [ht]; rfl) hlife
  rw [← heq, ht] at ht'
  rcases ht' with ht' | ⟨task, ht'⟩ <;> cases ht'

theorem role_nextTask (b : Balancer α) : b.role b.nextTask = .idle := by
  rw [role, works_nextTask]
  rfl

namespace Handover

variable {a : Action α} {old new started : Role} {subscriber : Option MailboxId} {poller : Option TaskId}

/-- A task that starts or stops the resolver afterwards did so before, or it begins now. -/
theorem isLifecycle (h : Handover b a old new started subscriber poller) : started.isLifecycle = false ∧
    (new.isLifecycle = true → old.isLifecycle = true ∨ ∃ r, a = .request r ∧ r.isLifecycle = true) := by
  cases h with
  | begin action lifecycle => exact ⟨rfl, fun _ => .inr ⟨_, action, lifecycle⟩⟩
  | stay => exact ⟨rfl, .inl⟩
  | _ => simp [Role.isLifecycle]

theorem asks (h : Handover b a old new started subscriber poller) : started ≠ .asks ∧
    (new = .asks → old = .asks ∨ a = .request .resolve) := by
  cases h with
  | ask action => exact ⟨(fun h => nomatch h), fun _ => .inr action⟩
  | stay => exact ⟨(fun h => nomatch h), .inl⟩
  | _ => exact ⟨(fun h => nomatch h), fun h => nomatch h⟩

end Handover

section Handovers

variable {a : Action α} {new started : Role}
  (hroles : ∀ x, b'.role x = if x = t then new else if x = b.nextTask then started else b.role x)
  (h : Handover b a (b.role t) new started b'.resolver.subscriber b'.resolver.poller)

include hroles h

/-- A task that starts or stops the resolver did so before, or nobody else does and no resolution was asked for. -/
theorem isLifecycle_of_handover (ha : b.KeepsApart a) {x : TaskId} (hx : (b'.role x).isLifecycle = true) :
    (b.role x).isLifecycle = true ∨ (x = t ∧ ∀ y, b.role y ≠ .asks ∧ (b.role y).isLifecycle = false) := by
  rw [hroles x] at hx
  split at hx
  · rename_i heq
    rcases h.isLifecycle.2 hx with hold | ⟨r, haction, hr⟩
    · exact .inl (heq ▸ hold)
    · exact .inr ⟨heq, ha.1 r haction hr⟩
  · split at hx
    · rw [h.isLifecycle.1] at hx
      cases hx
    · exact .inl hx

/-- A task that was asked for a resolution was asked before, or nobody starts or stops the resolver. -/
theorem asks_of_handover (ha : b.KeepsApart a) {x : TaskId} (hx : b'.role x = .asks) :
    b.role x = .asks ∨ (x = t ∧ ∀ y, (b.role y).isLifecycle = false) := by
  rw [hroles x] at hx
  split at hx
  · rename_i heq
    exact (h.asks.2 hx).imp (fun hold => heq ▸ hold) (fun haction => ⟨heq, ha.2 haction⟩)
  · split at hx
    · exact absurd hx h.asks.1
    · exact .inl hx

/-- Polls go on, or they begin when a start gets its subscriber. -/
theorem Alternates.polled_of_handover (hb : b.Alternates) : ∀ x, b'.role x = .polls →
    b'.resolver.poller = some x ∨ ∃ x', b'.role x' = .awaits x := by
  have hpolled := hb.polled
  have hnobody := fun x => hb.not_polls (t := t) (x := x)
  have hfresh := role_nextTask b
  generalize hold : b.role t = old at h hnobody
  generalize b'.resolver.subscriber = subscriber at h
  generalize b'.resolver.poller = poller at h ⊢
  cases h <;> grind

/-- A start that is past the check still finds nobody that polls, and no subscriber. -/
theorem Alternates.unregistered_of_handover (hb : b.Alternates) : ∀ x, b'.role x = .registers →
    b'.resolver.poller = none ∧ b'.resolver.subscriber = none := by
  have hone := hb.one
  have hunregistered := hb.unregistered
  have hnone := hb.subscriber_of_begins (t := t)
  have hfresh := role_nextTask b
  generalize hold : b.role t = old at h hnone
  generalize b'.resolver.subscriber = subscriber at h ⊢
  generalize b'.resolver.poller = poller at h ⊢
  cases h <;> grind [Role.isLifecycle]

/-- Once a stop is past its beginning, the resolver names no task that polls. -/
theorem Alternates.stopping_of_handover (hb : b.Alternates) : ∀ x, (b'.role x = .forgets ∨ ∃ task, b'.role x = .awaits task) →
    b'.resolver.poller = none := by
  have hone := hb.one
  have hstopping := hb.stopping
  have hfresh := role_nextTask b
  generalize hold : b.role t = old at h
  generalize b'.resolver.subscriber = subscriber at h
  generalize b'.resolver.poller = poller at h ⊢
  cases h <;> grind [Role.isLifecycle]

/-- While there is a subscriber the resolver names a task that polls, or a stop is on its way to the subscriber. -/
theorem Alternates.subscribed_of_handover (hb : b.Alternates) : b'.resolver.subscriber ≠ none →
    b'.resolver.poller ≠ none ∨ ∃ x, b'.role x = .forgets ∨ ∃ task, b'.role x = .awaits task := by
  have hsubscribed := hb.subscribed
  have hnone := hb.subscriber_of_begins (t := t)
  have hfresh := role_nextTask b
  generalize hold : b.role t = old at h hnone
  generalize b'.resolver.subscriber = subscriber at h ⊢
  generalize b'.resolver.poller = poller at h ⊢
  cases h <;> grind

theorem Alternates.handover (hb : b.Alternates) (ha : b.KeepsApart a) : b'.Alternates where
  one := fun x x' hx hx' => by
    rcases isLifecycle_of_handover hroles h ha hx with hold | ⟨rfl, hnobody⟩
    · rcases isLifecycle_of_handover hroles h ha hx' with hold' | ⟨_, hnobody⟩
      · exact hb.one x x' hold hold'
      · cases hold.symm.trans (hnobody x).2
    · rcases isLifecycle_of_handover hroles h ha hx' with hold' | ⟨rfl, _⟩
      · cases hold'.symm.trans (hnobody x').2
      · rfl
  alone := fun x x' hx => by
    refine Bool.eq_false_iff.2 (fun hx' => ?_)
    rcases asks_of_handover hroles h ha hx with hold | ⟨heq, hnobody⟩
    · rcases isLifecycle_of_handover hroles h ha hx' with hold' | ⟨_, hnobody⟩
      · cases hold'.symm.trans (hb.alone x x' hold)
      · exact (hnobody x).1 hold
    · rcases isLifecycle_of_handover hroles h ha hx' with hold' | ⟨heq', _⟩
      · cases hold'.symm.trans (hnobody x')
      · rw [heq', ← heq, hx] at hx'
        cases hx'
  polled := hb.polled_of_handover hroles h
  unregistered := hb.unregistered_of_handover hroles h
  stopping := hb.stopping_of_handover hroles h
  subscribed := hb.subscribed_of_handover hroles h

end Handovers

theorem Alternates.stir (hb : b.Alternates) (hg : b.Gated) {a : Action α} (ha : b.KeepsApart a) (h : Stir b a b') :
    b'.Alternates := by
  obtain ⟨t, new, started, hroles, hhandover⟩ := h.handover hg
  exact hb.handover hroles hhandover ha

/-! ## The subscriber changes between resolutions -/

/-- A task with a resolution was asked for one, polls, or starts the resolver. -/
theorem role_of_resolution (hb : b.Gated) {phase : ResolutionPhase} (hw : b.works t = .resolution phase :: rest) :
    b.role t = .asks ∨ b.role t = .polls ∨ b.role t = .registers := by
  rw [role, hw]
  cases (hw ▸ hb.stacked t : Stack (.resolution phase :: rest)) with
  | apart h => cases h _ List.mem_cons_self
  | resolve => exact .inl rfl
  | poll => exact .inr (.inl rfl)
  | baseline _ => exact .inr (.inr rfl)

/-- When a start or a stop comes to the subscriber, no resolution is under way. -/
theorem Alternates.free (hb : b.Alternates) (hg : b.Gated) (ht : b.role t = .registers ∨ b.role t = .forgets)
    (hnot : ∀ phase rest, b.works t ≠ .resolution phase :: rest) : b.phase? = none := by
  have hlife : (b.role t).isLifecycle = true := by rcases ht with ht | ht <;> rw [ht] <;> rfl
  rcases hinside : b.resolver.gate.inside with _ | x
  · exact phase?_of_free hinside
  · obtain ⟨phase, rest, hw, _⟩ := hg.taken x hinside
    rcases role_of_resolution hg hw with hrole | hrole | hrole
    · have hnone := hb.alone x t hrole
      rw [hlife] at hnone
      cases hnone
    · exact absurd hrole (hb.not_polls ht)
    · obtain rfl := hb.one t x hlife (by rw [hrole]; rfl)
      exact absurd hw (hnot phase rest)

/-- The subscriber is the same after an action, or no resolution was under way. -/
theorem Alternates.subscriber_eq_or_free (hb : b.Alternates) (hg : b.Gated) {a : Action α} (h : Stir b a b') :
    b'.resolver.subscriber = b.resolver.subscriber ∨ b.phase? = none := by
  cases h with
  | resolution _ _ step => exact .inl step.subscriber_eq.1
  | @rearrange a t old new started _ _ works leaves hushed rearranges =>
    have hnot := rearranges.gate.1
    have hdesk : ∀ {desk : Desk}, b'.desk = desk → b'.resolver.subscriber = desk.subscriber := fun heq =>
      congrArg Desk.subscriber heq
    generalize heq : b'.desk = desk at rearranges
    cases rearranges with
    | register h => exact .inr (hb.free hg (.inl (by rw [role, works]; rfl)) (works ▸ hnot))
    | forget h => exact .inr (hb.free hg (.inr (by rw [role, works]; rfl)) (works ▸ hnot))
    | _ => exact .inl (hdesk heq)

end Roles

end Balancer

namespace Run

/-- Whether in a run starts and stops follow each other, and no resolution is asked for from outside meanwhile. -/
def KeepsApart (r : Run α) : Prop := ∀ n, (r.state n).KeepsApart (r.action n)

/-- In such a run of a polling resolver, starts and stops follow each other in every state. -/
theorem alternates (r : Run α) (hr : r.Polls) (ha : r.KeepsApart) : ∀ n, (r.state n).Alternates
  | 0 => by
    obtain ⟨source, interval, timeout, heq⟩ := hr.polling
    rw [state, heq]
    have hidle : ∀ t, (Balancer.new r.options r.adapter (.polling source interval timeout) r.backends : Balancer α).role t = .idle :=
      fun _ => rfl
    refine ⟨fun t _ ht => ?_, fun t _ ht => ?_, fun t ht => ?_, fun t ht => ?_, fun t ht => ?_, fun hsome => absurd rfl hsome⟩
    · rw [hidle t] at ht
      cases ht
    · rw [hidle t] at ht
      cases ht
    · rw [hidle t] at ht
      cases ht
    · rw [hidle t] at ht
      cases ht
    · rw [hidle t] at ht
      rcases ht with ht | ⟨task, ht⟩ <;> cases ht
  | n + 1 => (r.alternates hr ha n).stir (r.gated hr n) (ha n) (r.stir hr n)

end Run

end TelemetryRouter
