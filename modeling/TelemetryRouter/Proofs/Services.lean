import TelemetryRouter.Proofs.Posts

/-!
# The balancer and its resolver as services

The balancer and a resolver that polls are started and stopped in the same way: a start checks first whether a background task is known
already and makes its own known last, and a stop lets the known one be forgotten and waits for its end. This module says so of both at
once, in terms of the posts of tasks.
-/

namespace TelemetryRouter

variable {α : Type}

/-- What can be started: the balancer, with the task that applies updates, or a resolver that polls, with the task that polls. -/
inductive Service where
  | balancer
  | resolver
  deriving DecidableEq, Repr

namespace Service

/-- Of what is known of the tasks that apply updates and poll, that about one service. -/
def select : Service → Option TaskId → Option TaskId → Option TaskId
  | .balancer, background, _ => background
  | .resolver, _, poller => poller

/-- The background task of a service, if one is known. -/
def task? (s : Service) (b : Balancer α) : Option TaskId := s.select b.background b.resolver.poller

/-- The error of a start that finds a background task. -/
def refusal : Service → Balancer α → RouterError
  | .balancer, _ => .configuration "load balancer already started"
  | .resolver, b => .configuration (b.resolver.name ++ " resolver already started")

/-- Whether a request starts a service and nothing else. -/
def isStart : Service → Request α → Bool
  | .balancer, .start => true
  | .resolver, .startResolver _ => true
  | _, _ => false

/-- Whether a request stops a service, alone or with the other one. -/
def isStop : Service → Request α → Bool
  | _, .shutdown => true
  | .resolver, .stopResolver => true
  | _, _ => false

/-- Whether a work is the check with which a start begins. -/
def checks : Service → Work α → Bool
  | .balancer, .startBalancer => true
  | .resolver, .startResolver _ => true
  | _, _ => false

/-- Whether a work is that of a background task. -/
def serves : Service → Work α → Bool
  | .balancer, .consume _ _ _ => true
  | .resolver, .poll _ => true
  | _, _ => false

/-- Whether a post is that of a start before the check. -/
def isChecking : Service → Post → Bool
  | .balancer, .opens => true
  | .resolver, .resolves _ => true
  | _, _ => false

/-- Whether a post is that of a start past the check. -/
def isPast : Service → Post → Bool
  | .balancer, .resolves whole => whole
  | .balancer, .registers whole => whole
  | .balancer, .launches => true
  | .resolver, .registers _ => true
  | _, _ => false

theorem not_isPast_of_isChecking {s : Service} {post : Post} (h : s.isChecking post = true) : s.isPast post = false := by
  cases s <;> cases post <;> first | rfl | cases h

theorem isStart_of_isPast {s : Service} {post : Post} (h : s.isChecking post = true ∨ s.isPast post = true) : post.isStart = true := by
  rcases h with h | h <;> cases s <;> cases post <;> first | rfl | cases h

/-- Whether a post is one that a start has on its way. -/
def isStarting : Service → Post → Bool
  | .balancer, .opens => true
  | .balancer, .resolves whole => whole
  | .balancer, .registers whole => whole
  | .balancer, .launches => true
  | .resolver, .resolves whole => !whole
  | .resolver, .registers whole => !whole
  | _, .over => true
  | _, _ => false

/-- Whether a post is that of a background task. -/
def isServing : Service → Post → Bool
  | .balancer, .consumes => true
  | .resolver, .polls => true
  | _, _ => false

theorem isPast_over (s : Service) : s.isPast .over = false := by
  cases s <;> rfl

theorem isServing_over (s : Service) : s.isServing .over = false := by
  cases s <;> rfl

/-- Whether a post is that of a stop before the background task is forgotten. -/
def isStopping : Service → Post → Bool
  | .balancer, .stops whole => whole
  | .balancer, .awaitsPolls _ whole => whole
  | .balancer, .forgets whole => whole
  | .balancer, .disbands => true
  | .resolver, .stops _ => true
  | _, _ => false

/-- Whether a post is that of a stop that waits for the end of a background task. -/
def IsAwaiting (s : Service) (x : TaskId) (post : Post) : Prop :=
  match s, post with
  | .balancer, .awaitsConsumer y => y = x
  | .resolver, .awaitsPolls y _ => y = x
  | _, _ => False

/-- Whether a task does the work of a background task. -/
def IsServedBy (s : Service) (b : Balancer α) (t : TaskId) : Prop := (b.works t).any s.serves = true

instance (s : Service) (b : Balancer α) (t : TaskId) : Decidable (s.IsServedBy b t) :=
  inferInstanceAs (Decidable ((b.works t).any s.serves = true))

end Service

/-! ## Posts and works -/

namespace Script

variable {s : Service} {ws : List (Work α)} {post : Post}

theorem not_checks_of_isPlain {w : Work α} (h : w.isPlain = true) : s.checks w = false ∧ s.serves w = false := by
  cases s <;> cases w <;> first | exact ⟨rfl, rfl⟩ | cases h

/-- A task makes a check next exactly when that is its post. -/
theorem any_checks (h : Script ws post) : ws.head?.any s.checks = s.isChecking post := by
  cases h with
  | @plain w rest h =>
    rw [List.head?_cons, Option.any_some, (not_checks_of_isPlain (h w List.mem_cons_self)).1]
    cases s <;> rfl
  | _ => cases s <;> rfl

/-- A task does the work of a background task exactly when that is its post. -/
theorem any_serves (h : Script ws post) : ws.any s.serves = s.isServing post := by
  cases h with
  | @plain w rest h =>
    have hnot : ∀ x ∈ w :: rest, ¬ s.serves x = true := fun x hx =>
      Bool.eq_false_iff.1 (not_checks_of_isPlain (h x hx)).2
    rw [List.any_eq_false.2 hnot]
    cases s <;> rfl
  | @startResolver box tail => cases s <;> cases tail <;> rfl
  | @baseline phase box tail => cases s <;> cases tail <;> rfl
  | @register box tail => cases s <;> cases tail <;> rfl
  | @stopResolver balancer => cases s <;> cases balancer <;> rfl
  | @awaitPolls task balancer => cases s <;> cases balancer <;> rfl
  | @forget balancer => cases s <;> cases balancer <;> rfl
  | _ => cases s <;> rfl

end Script

namespace Balancer.Proceeds

variable {b b' : Balancer α} {a : Action α} {t : TaskId} {old new begun : Post} {background poller : Option TaskId} {s : Service}

/-- A stop was under way before, or it is asked for now. -/
theorem isStopping (h : Proceeds b b' a t old new begun background poller) : s.isStopping begun = false ∧
    (s.isStopping new = true → s.isStopping old = true ∨ ∃ rq, a = .request rq ∧ s.isStop rq = true ∧ t = b.nextTask) := by
  cases h with
  | stay => exact ⟨by cases s <;> rfl, .inl⟩
  | @request rq action fresh =>
    refine ⟨by cases s <;> rfl, fun hnew => .inr ⟨rq, action, ?_, fresh⟩⟩
    cases s <;> cases rq <;> first | rfl | cases hnew
  | _ =>
    cases s <;> (try cases ‹Bool›) <;>
      first | exact ⟨rfl, fun _ => .inl rfl⟩ | exact ⟨rfl, fun h => absurd h Bool.false_ne_true⟩

/-- A start was past its check before, or it makes the check now and finds nobody. The start of a resolver has a check only if the
resolver polls. -/
theorem isPast (h : Proceeds b b' a t old new begun background poller) : s.isPast begun = false ∧
    (s.isPast new = true → s.isPast old = true ∨ (s.isChecking old = true ∧ (∃ way, a = .move t way) ∧ s.task? b = none ∧
      (s = .resolver → b.resolver.kind.isPolling = true))) := by
  cases h with
  | stay => exact ⟨by cases s <;> rfl, .inl⟩
  | @request rq _ _ =>
    refine ⟨by cases s <;> rfl, fun hnew => ?_⟩
    cases s <;> cases rq <;> cases hnew
  | startBalancer action unknown =>
    cases s with
    | balancer => exact ⟨rfl, fun _ => .inr ⟨rfl, ⟨_, action⟩, unknown, fun h => nomatch h⟩⟩
    | resolver => exact ⟨rfl, fun h => absurd h Bool.false_ne_true⟩
  | startResolver action kind unpolled =>
    cases s with
    | balancer => exact ⟨rfl, .inl⟩
    | resolver => exact ⟨rfl, fun _ => .inr ⟨rfl, ⟨_, action⟩, unpolled, fun _ => kind⟩⟩
  | _ =>
    cases s <;> (try cases ‹Bool›) <;>
      first | exact ⟨rfl, fun _ => .inl rfl⟩ | exact ⟨rfl, fun h => absurd h Bool.false_ne_true⟩

/-- What is known stays, or a start that is past its check makes a new background task known, or a stop lets the known one be forgotten
and waits for its end. -/
theorem select (h : Proceeds b b' a t old new begun background poller) : s.select background poller = s.task? b ∨
    (s.select background poller = some b.nextTask ∧ (∃ way, a = .move t way) ∧ s.isPast old = true ∧ s.isPast new = false ∧
      s.isServing begun = true) ∨
    (s.isStopping old = true ∧ s.select background poller = none ∧ ∃ x, s.task? b = some x ∧ s.IsAwaiting x new) := by
  cases h with
  | @register _ whole action _ =>
    cases s with
    | balancer => exact .inl rfl
    | resolver => exact .inr (.inl ⟨rfl, ⟨_, action⟩, rfl, by cases whole <;> rfl, rfl⟩)
  | launch action _ =>
    cases s with
    | balancer => exact .inr (.inl ⟨rfl, ⟨_, action⟩, rfl, rfl, rfl⟩)
    | resolver => exact .inl rfl
  | stopPolls polled =>
    cases s with
    | balancer => exact .inl rfl
    | resolver => exact .inr (.inr ⟨rfl, rfl, _, polled, rfl⟩)
  | stopConsumer known =>
    cases s with
    | balancer => exact .inr (.inr ⟨rfl, rfl, _, known, rfl⟩)
    | resolver => exact .inl rfl
  | _ => exact .inl rfl

/-- A background task was one before, or it is started and made known. -/
theorem isServing (h : Proceeds b b' a t old new begun background poller) : (s.isServing new = true → s.isServing old = true) ∧
    (s.isServing begun = true → s.select background poller = some b.nextTask ∧ ∃ way, a = .move t way) := by
  have hnone : s.isServing .over = true → s.select background poller = some b.nextTask ∧ ∃ way, a = .move t way := by
    intro h
    cases s <;> cases h
  have hafter : ∀ {whole}, s.isServing (.afterStart whole) = true → s.isServing old = true := by
    intro whole h
    cases s <;> cases whole <;> cases h
  cases h with
  | stay => exact ⟨id, hnone⟩
  | @request rq _ _ =>
    refine ⟨fun h => ?_, hnone⟩
    cases s <;> cases rq <;> cases h
  | @register _ whole action _ =>
    cases s with
    | balancer => exact ⟨hafter, fun h => absurd h Bool.false_ne_true⟩
    | resolver => exact ⟨hafter, fun _ => ⟨rfl, _, action⟩⟩
  | launch action _ =>
    cases s with
    | balancer => exact ⟨fun h => absurd h Bool.false_ne_true, fun _ => ⟨rfl, _, action⟩⟩
    | resolver => exact ⟨fun h => absurd h Bool.false_ne_true, fun h => absurd h Bool.false_ne_true⟩
  | _ =>
    refine ⟨fun h => ?_, hnone⟩
    cases s <;> (try cases ‹Bool›) <;> cases h

/-- A stop lets the known background task be forgotten, unless it is given up. A resolver that does not poll has none. -/
theorem isStopping_or (h : Proceeds b b' a t old new begun background poller) (hold : s.isStopping old = true) :
    s.isStopping new = true ∨ s.select background poller = none ∨ a = .abandon t ∨
      (s = .resolver ∧ b.resolver.kind.isPolling = false) := by
  cases h with
  | stay => exact .inl hold
  | abandon action => exact .inr (.inr (.inl action))
  | request _ _ => cases s <;> cases hold
  | finish from_post => rcases from_post with rfl | rfl <;> cases s <;> cases hold
  | @stopOther whole kind =>
    cases s with
    | balancer => cases whole <;> first | exact .inl rfl | cases hold
    | resolver => exact .inr (.inr (.inr ⟨rfl, kind⟩))
  | @stopPolls whole _ _ =>
    cases s with
    | balancer => exact .inl hold
    | resolver => exact .inr (.inl rfl)
  | @stopUnpolled whole unpolled =>
    cases s with
    | balancer => exact .inl hold
    | resolver => exact .inr (.inl unpolled)
  | @awaitPolls _ whole _ =>
    cases s with
    | balancer => exact .inl hold
    | resolver => cases hold
  | @forget whole => cases s <;> cases whole <;> first | exact .inl rfl | cases hold
  | stopConsumer _ => cases s <;> first | exact .inr (.inl rfl) | cases hold
  | stopNothing unknown => cases s <;> first | exact .inr (.inl unknown) | cases hold
  | _ => cases s <;> cases hold

/-- A stop waits until the background task is over, unless it is given up. -/
theorem isAwaiting (h : Proceeds b b' a t old new begun background poller) {x : TaskId} (hold : s.IsAwaiting x old) :
    s.IsAwaiting x new ∨ b.post x = .over ∨ a = .abandon t := by
  cases h with
  | stay => exact .inl hold
  | abandon action => exact .inr (.inr action)
  | finish from_post => rcases from_post with rfl | rfl <;> cases s <;> cases hold
  | awaitPolls ended => cases s <;> first | exact .inr (.inl (hold ▸ ended)) | cases hold
  | awaitConsumer ended => cases s <;> first | exact .inr (.inl (hold ▸ ended)) | cases hold
  | _ => cases s <;> cases hold

theorem isStarting (h : Proceeds b b' a t old new begun background poller) (hne : t ≠ b.nextTask)
    (hold : s.isStarting old = true) : s.isStarting new = true := by
  cases h with
  | stay => exact hold
  | request _ fresh => exact absurd fresh hne
  | abandon _ => cases s <;> rfl
  | finish _ => cases s <;> rfl
  | _ => cases s <;> (try cases ‹Bool›) <;> first | rfl | exact absurd hold Bool.false_ne_true

end Balancer.Proceeds

namespace Run

/-! ## Steps of a run -/

/-- Whether a task makes the check of a start in a step. -/
def Checks (r : Run α) (s : Service) (n : Nat) (t : TaskId) : Prop :=
  (∃ way, r.action n = .move t way) ∧ ((r.state n).works t).head?.any s.checks = true

/-- Whether a task makes a new background task known in a step. -/
def Establishes (r : Run α) (s : Service) (n : Nat) (t : TaskId) : Prop :=
  (∃ way, r.action n = .move t way) ∧ s.task? (r.state (n + 1)) = some (r.state n).nextTask

variable {r : Run α} {s : Service}

theorem isServedBy_iff {n : Nat} {x : TaskId} : s.IsServedBy (r.state n) x ↔ s.isServing ((r.state n).post x) = true := by
  rw [Service.IsServedBy, (r.scripted n x).any_serves]

theorem Checks.isChecking {n : Nat} {t : TaskId} (h : r.Checks s n t) : s.isChecking ((r.state n).post t) = true :=
  (r.scripted n t).any_checks ▸ h.2

/-- What is known stays, or a start that is past its check makes a new background task known, or a stop lets the known one be forgotten
and waits for its end. -/
theorem known_succ (r : Run α) (s : Service) (n : Nat) : s.task? (r.state (n + 1)) = s.task? (r.state n) ∨
    (∃ t, r.Establishes s n t ∧ s.isPast ((r.state n).post t) = true ∧ s.isPast ((r.state (n + 1)).post t) = false ∧
      s.isServing ((r.state (n + 1)).post (r.state n).nextTask) = true) ∨
    ∃ t x, s.isStopping ((r.state n).post t) = true ∧ s.task? (r.state (n + 1)) = none ∧ s.task? (r.state n) = some x ∧
      s.IsAwaiting x ((r.state (n + 1)).post t) := by
  obtain ⟨t, new, begun, hposts, hproceeds⟩ := ((r.turn n).proceeds (r.scripted n)).2
  have hself : (r.state (n + 1)).post t = new := (hposts t).trans (if_pos rfl)
  rcases hproceeds.select (s := s) with hsame | ⟨hnew, hmove, hpast, hnot, hserving⟩ | ⟨hstops, hnone, x, hx, hawaits⟩
  · exact .inl hsame
  · have hne : (r.state n).nextTask ≠ t := by
      rintro rfl
      rw [post_nextTask] at hpast
      cases s <;> cases hpast
    refine .inr (.inl ⟨t, ⟨hmove, hnew⟩, hpast, hself ▸ hnot, ?_⟩)
    rw [hposts, if_neg hne, if_pos rfl]
    exact hserving
  · exact .inr (.inr ⟨t, x, hstops, hnone, hx, hself ▸ hawaits⟩)

/-- A start that is past its check after a step was past it before, or makes it in the step, when no background task is known. The start
of a resolver has a check only if the resolver polls. -/
theorem isPast_succ {n : Nat} {x : TaskId} (h : s.isPast ((r.state (n + 1)).post x) = true) :
    s.isPast ((r.state n).post x) = true ∨
      (r.Checks s n x ∧ s.task? (r.state n) = none ∧ (s = .resolver → r.resolver.kind.isPolling = true)) := by
  rcases r.before_of_post h with hpast | ⟨t, new, begun, hproceeds, ⟨rfl, hnew⟩ | ⟨_, hbegun⟩⟩
  · exact .inl hpast
  · rcases hproceeds.isPast.2 hnew with hpast | ⟨hchecking, hmove, hnone, hpolls⟩
    · exact .inl hpast
    · exact .inr ⟨⟨hmove, (r.scripted n x).any_checks ▸ hchecking⟩, hnone, fun heq => (r.polling_eq n) ▸ hpolls heq⟩
  · cases hproceeds.isPast.1.symm.trans hbegun

/-- A background task was one before a step, or it is made known in the step. -/
theorem isServing_succ {n : Nat} {x : TaskId} (h : s.isServing ((r.state (n + 1)).post x) = true) :
    s.isServing ((r.state n).post x) = true ∨ (x = (r.state n).nextTask ∧ ∃ t, r.Establishes s n t) := by
  rcases r.before_of_post h with hserving | ⟨t, new, begun, hproceeds, ⟨rfl, hnew⟩ | ⟨hx, hbegun⟩⟩
  · exact .inl hserving
  · exact .inl (hproceeds.isServing.1 hnew)
  · obtain ⟨hknown, hmove⟩ := hproceeds.isServing.2 hbegun
    exact .inr ⟨hx, t, hmove, hknown⟩

/-- A stop that lets the known background task be forgotten is on its way to do so after a step, or none is known any more. A resolver
that does not poll has none. -/
theorem isStopping_succ {n : Nat} {x : TaskId} (hkept : r.action n ≠ .abandon x)
    (h : s.isStopping ((r.state n).post x) = true) : s.isStopping ((r.state (n + 1)).post x) = true ∨
      s.task? (r.state (n + 1)) = none ∨ (s = .resolver ∧ r.resolver.kind.isPolling = false) := by
  rcases r.after_of_post (P := fun post => s.isStopping post = true) (by cases s <;> exact Bool.false_ne_true) h with
    hstops | ⟨begun, hproceeds⟩
  · exact .inl hstops
  · rcases hproceeds.isStopping_or h with hstops | hnone | habandon | ⟨rfl, hkind⟩
    · exact .inl hstops
    · exact .inr (.inl hnone)
    · exact absurd habandon hkept
    · exact .inr (.inr ⟨rfl, (r.polling_eq n) ▸ hkind⟩)

/-- A stop that waits for the end of a background task waits after a step, or the task was over. -/
theorem isAwaiting_succ {n : Nat} {x y : TaskId} (hkept : r.action n ≠ .abandon y) (h : s.IsAwaiting x ((r.state n).post y)) :
    s.IsAwaiting x ((r.state (n + 1)).post y) ∨ (r.state n).post x = .over := by
  rcases r.after_of_post (P := fun post => s.IsAwaiting x post) (by cases s <;> exact id) h with hawaits | ⟨begun, hproceeds⟩
  · exact .inl hawaits
  · rcases hproceeds.isAwaiting h with hawaits | hover | habandon
    · exact .inl hawaits
    · exact .inr hover
    · exact absurd habandon hkept

/-! ## What is known -/

section Spaced

variable (hspaces : r.SpacesStarts)

include hspaces

/-- While a start is past its check, no background task is known. -/
theorem task?_of_isPast : ∀ n x, s.isPast ((r.state n).post x) = true → s.task? (r.state n) = none := by
  intro n
  induction n with
  | zero => exact fun x hx => nomatch s.isPast_over.symm.trans hx
  | succ n ih =>
    intro x hx
    rcases r.known_succ s n with hsame | ⟨t, _, hpast, hnot, _⟩ | ⟨_, _, _, hnone, _⟩
    · rcases isPast_succ hx with hpast | ⟨_, hnone, _⟩
      · exact hsame.trans (ih x hpast)
      · exact hsame.trans hnone
    · have hne : x ≠ t := by
        rintro rfl
        cases hnot.symm.trans hx
      have hstart : ((r.state n).post x).isStart = true := by
        rcases isPast_succ hx with hpast | ⟨hchecks, _⟩
        · exact Service.isStart_of_isPast (.inr hpast)
        · exact Service.isStart_of_isPast (.inl hchecks.isChecking)
      exact absurd (hspaces.eq_of_isStart hstart (Service.isStart_of_isPast (.inr hpast))) hne
    · exact hnone

/-- If no task is given up, a background task is the known one, or a stop waits for its end. -/
theorem task?_of_isServing (hkept : ∀ n t, r.action n ≠ .abandon t) : ∀ n x, s.isServing ((r.state n).post x) = true →
    s.task? (r.state n) = some x ∨ ∃ y, s.IsAwaiting x ((r.state n).post y) := by
  intro n
  induction n with
  | zero => exact fun x hx => nomatch s.isServing_over.symm.trans hx
  | succ n ih =>
    intro x hx
    rcases isServing_succ hx with hserving | ⟨rfl, t, _, hknown⟩
    · rcases ih x hserving with hknown | ⟨y, hawaits⟩
      · rcases r.known_succ s n with hsame | ⟨t, _, hpast, _⟩ | ⟨t, x', _, _, hx', hawaits⟩
        · exact .inl (hsame.trans hknown)
        · cases (task?_of_isPast hspaces n t hpast).symm.trans hknown
        · obtain rfl : x' = x := Option.some.inj (hx'.symm.trans hknown)
          exact .inr ⟨t, hawaits⟩
      · rcases isAwaiting_succ (hkept n y) hawaits with hawaits | hover
        · exact .inr ⟨y, hawaits⟩
        · rw [hover, Service.isServing_over] at hserving
          cases hserving
    · exact .inl hknown

end Spaced

end Run

end TelemetryRouter
