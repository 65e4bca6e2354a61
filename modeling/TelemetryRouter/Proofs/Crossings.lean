import TelemetryRouter.Proofs.Detection
import TelemetryRouter.Proofs.Shutdowns

/-!
# A start and a shutdown that overlap

Nothing keeps a start and a shutdown of the balancer apart. The start registers a subscriber, with polls for it, and later launches the
task that applies updates; the shutdown stops the polls, then forgets the subscriber, and then ends the task that applies updates.
How the steps of the one lie between those of the other decides what is left when both have returned (`settled_of_crosses`).
-/

namespace TelemetryRouter

variable {α : Type}

/-- A number that never gets smaller passes another one at one time. -/
theorem exists_switch {f : Nat → Nat} {a b i : Nat} (hab : a ≤ b) (hmono : ∀ m, a ≤ m → f m ≤ f (m + 1)) (ha : f a ≤ i)
    (hb : i < f b) : ∃ k, a ≤ k ∧ k < b ∧ ∀ m, a ≤ m → (i < f m ↔ k < m) := by
  have hexists : ∃ m, a ≤ m ∧ i < f m := ⟨b, hab, hb⟩
  obtain ⟨hle, hlt⟩ := Nat.find_spec hexists
  have hleast : ∀ m, a ≤ m → i < f m → Nat.find hexists ≤ m := fun m hm hi => Nat.find_min' hexists ⟨hm, hi⟩
  have hfirst := hleast b hab hb
  generalize Nat.find hexists = first at hle hlt hleast hfirst
  have hne : first ≠ a := by
    rintro rfl
    exact Nat.not_lt.2 ha hlt
  refine ⟨first - 1, by omega, by omega, fun m hm => ⟨fun hi => by have := hleast m hm hi; omega, fun hlater => ?_⟩⟩
  have hfm : first ≤ m := by omega
  clear hm hlater
  induction m, hfm using Nat.le_induction with
  | base => exact hlt
  | succ m hfm ih => exact Nat.lt_of_lt_of_le ih (hmono m (Nat.le_trans hle hfm))

/-- At that time, the number is not past the other one yet, and a step later it is. -/
theorem switch_at {f : Nat → Nat} {a i k : Nat} (hak : a ≤ k) (hk : ∀ m, a ≤ m → (i < f m ↔ k < m)) : f k ≤ i ∧ i < f (k + 1) :=
  ⟨Nat.not_lt.1 ((hk k hak).not.2 (Nat.lt_irrefl k)), (hk (k + 1) (Nat.le_succ_of_le hak)).2 (Nat.lt_succ_self k)⟩

/-- If the number grows by one at most, it passes the next one later. -/
theorem switch_lt {f : Nat → Nat} {a i k k' : Nat} (hak : a ≤ k) (hk : ∀ m, a ≤ m → (i < f m ↔ k < m))
    (hk' : ∀ m, a ≤ m → (i + 1 < f m ↔ k' < m)) (hstep : f (k + 1) ≤ f k + 1) : k < k' := by
  have hbefore := (hk k hak).not.2 (Nat.lt_irrefl k)
  have hnot := (hk' (k + 1) (Nat.le_succ_of_le hak)).not.1 (by omega)
  omega

namespace Post

/-- How far a start of the balancer is: before it registers a subscriber, before it launches the task that applies updates, or past both. -/
def startStage : Post → Nat
  | .opens => 0
  | .resolves _ => 0
  | .registers _ => 0
  | .launches => 1
  | _ => 2

/-- Whether a post is that of a start of the balancer that has not registered a subscriber. -/
def isBeginning : Post → Bool
  | .opens => true
  | .resolves balancer => balancer
  | .registers balancer => balancer
  | _ => false

/-- How far a stop of the balancer is: before it looks for polls, before it forgets the subscriber, before it looks for the task that
applies updates, or past all three. -/
def stopStage : Post → Nat
  | .stops _ => 0
  | .awaitsPolls _ _ => 1
  | .forgets _ => 1
  | .disbands => 2
  | _ => 3

/-- Whether a post is one that the stop of a balancer comes to after it has looked for the task that applies updates. -/
def isWinding : Post → Bool
  | .awaitsConsumer _ => true
  | .clears => true
  | .empties => true
  | .other => true
  | .over => true
  | _ => false

theorem startStage_of_isBeginning {post : Post} (h : post.isBeginning = true) : post.startStage = 0 := by
  cases post <;> first | rfl | cases h

/-- A start of the resolver that is past its check has not registered a subscriber, and one of the balancer has not launched the task that
applies updates. -/
theorem startStage_of_isPast {post : Post} : (Service.resolver.isPast post = true → post.startStage = 0) ∧
    (Service.balancer.isPast post = true → post.startStage ≤ 1) := by
  cases post <;> simp [Service.isPast, startStage]

/-- A stop of the balancer has not looked for a background task exactly as long as it has not let that task be forgotten. -/
theorem isStopping_iff {post : Post} (h : Service.balancer.isStopping post = true ∨ post.isWinding = true) :
    (Service.resolver.isStopping post = true ↔ ¬ 0 < post.stopStage) ∧ (Service.balancer.isStopping post = true ↔ ¬ 2 < post.stopStage) := by
  cases post <;> simp_all [Service.isStopping, isWinding, stopStage]

theorem isStop_of_isStopping {s : Service} {post : Post} (h : s.isStopping post = true) : post.isStop = true := by
  cases s <;> cases post <;> first | rfl | cases h

end Post

namespace Script

variable {ws : List (Work α)} {balancer : Bool}

theorem head?_of_stops (h : Script ws (.stops balancer)) : ws.head? = some .stopResolver := by
  cases h
  rfl

theorem head?_of_forgets (h : Script ws (.forgets balancer)) : ws.head? = some .forgetSubscriber := by
  cases h
  rfl

/-- A stop of the balancer that has stopped the resolver looks for the task that applies updates. -/
theorem head?_of_disbands (h : Script ws .disbands) : ws.head? = some .stopConsumer := by
  cases h
  rfl

end Script

namespace Balancer

/-- Whether a balancer is stopped: no background task is known, and the ring and the pool are empty. -/
structure Stopped (b : Balancer α) : Prop where
  background : b.background = none
  vacant : b.Vacant

/-- Whether a balancer with a resolver that polls is live: a background task is known, and so are polls and a subscriber. -/
structure Live (b : Balancer α) : Prop where
  background : b.background ≠ none
  poller : b.resolver.poller ≠ none
  subscriber : b.resolver.subscriber ≠ none

section Steps

variable {b b' : Balancer α} {a : Action α} {t : TaskId} {new begun : Post} {background poller : Option TaskId}

/-- A start of the balancer that finds nothing known goes on until it registers a subscriber, with polls. -/
theorem Proceeds.begins {old : Post} (h : Proceeds b b' a t old new begun background poller) (hold : old.isBeginning = true)
    (hne : t ≠ b.nextTask) (hkept : a ≠ .abandon t) (hkind : b.resolver.kind.isPolling = true)
    (hunknown : b.background = none ∧ b.resolver.poller = none) :
    (new.isBeginning = true ∧ background = none ∧ poller = none) ∨
      (new = .launches ∧ background = none ∧ poller = some b.nextTask ∧ ∃ way, a = .move t way) := by
  obtain ⟨hbackground, hpoller⟩ := hunknown
  cases h with
  | stay => exact .inl ⟨hold, hbackground, hpoller⟩
  | abandon action => exact absurd action hkept
  | request _ fresh => exact absurd fresh hne
  | finish from_post => rcases from_post with rfl | rfl <;> cases hold
  | refuseBalancer known _ =>
    rw [hbackground] at known
    cases known
  | startBalancer _ _ => exact .inl ⟨rfl, hbackground, hpoller⟩
  | refuseResolver _ why =>
    have hsome := (why hkind).1
    rw [hpoller] at hsome
    cases hsome
  | startOther kind => cases kind.symm.trans hkind
  | startResolver _ _ _ => exact .inl ⟨hold, hbackground, hpoller⟩
  | @register way balancer action _ =>
    obtain rfl : balancer = true := hold
    exact .inr ⟨rfl, hbackground, rfl, way, action⟩
  | _ => cases hold

/-- A start of the balancer that has registered a subscriber goes on until it launches the task that applies updates. -/
theorem Proceeds.launches (h : Proceeds b b' a t .launches new begun background poller) (hkept : a ≠ .abandon t) :
    (new = .launches ∧ background = b.background) ∨
      (new = .over ∧ background = some b.nextTask ∧ ∃ way, a = .move t way) := by
  cases h with
  | stay => exact .inl ⟨rfl, rfl⟩
  | abandon action => exact absurd action hkept
  | finish from_post => rcases from_post with h | h <;> cases h
  | launch action _ => exact .inr ⟨rfl, rfl, _, action⟩

/-- A stop of the balancer comes from its look for polls to the end of the subscriber and then to its look for the task that applies
updates, one after the other. -/
theorem Proceeds.stops {old : Post} (h : Proceeds b b' a t old new begun background poller)
    (hold : Service.balancer.isStopping old = true ∨ old.isWinding = true) (hne : t ≠ b.nextTask) (hkept : a ≠ .abandon t)
    (hkind : b.resolver.kind.isPolling = true) : (Service.balancer.isStopping new = true ∨ new.isWinding = true) ∧
      (new.stopStage = old.stopStage ∨ (old = .stops true ∧ new.stopStage = 1) ∨ (old = .forgets true ∧ new.stopStage = 2) ∨
        (old = .disbands ∧ new.stopStage = 3)) := by
  cases h with
  | stay => exact ⟨hold, .inl rfl⟩
  | abandon action => exact absurd action hkept
  | request _ fresh => exact absurd fresh hne
  | finish from_post => rcases from_post with rfl | rfl <;> exact ⟨.inr rfl, by decide⟩
  | stopOther kind => cases kind.symm.trans hkind
  | @forget balancer =>
    obtain rfl : balancer = true := hold.resolve_right (fun h => nomatch h)
    exact ⟨.inl rfl, .inr (.inr (.inl ⟨rfl, rfl⟩))⟩
  | @stopPolls balancer _ _ =>
    obtain rfl : balancer = true := hold.resolve_right (fun h => nomatch h)
    exact ⟨.inl rfl, .inr (.inl ⟨rfl, rfl⟩)⟩
  | @stopUnpolled balancer _ =>
    obtain rfl : balancer = true := hold.resolve_right (fun h => nomatch h)
    exact ⟨.inl rfl, .inr (.inl ⟨rfl, rfl⟩)⟩
  | awaitPolls _ => exact ⟨hold, .inl rfl⟩
  | stopConsumer _ => exact ⟨.inr rfl, .inr (.inr (.inr ⟨rfl, rfl⟩))⟩
  | stopNothing _ => exact ⟨.inr rfl, .inr (.inr (.inr ⟨rfl, rfl⟩))⟩
  | awaitConsumer _ => exact ⟨.inr rfl, .inl rfl⟩
  | clear => exact ⟨.inr rfl, .inl rfl⟩
  | cleared _ => exact ⟨.inr rfl, .inl rfl⟩
  | _ => rcases hold with h | h <;> cases h

/-- The subscriber of a resolver that polls changes only as a start registers one or a stop forgets it, unless it is taken away, and nothing
becomes known but as a start registers a subscriber or launches the task that applies updates. -/
theorem Turn.known_cases (h : Turn b a b') (hkind : b.resolver.kind.isPolling = true) (hkept : ∀ t, a ≠ .abandon t)
    (hsubscribed : a ≠ .unsubscribe) :
    (b'.resolver.subscriber = b.resolver.subscriber ∧ ∀ s : Service, s.task? b = none → s.task? b' = none) ∨
      (∃ t way box rest, a = .move t way ∧ b.works t = .registerPoller box :: rest) ∨
      (∃ t way box rest, a = .move t way ∧ b.works t = .launchConsumer box :: rest ∧
        b'.resolver.subscriber = b.resolver.subscriber) ∨
      ∃ t way rest, a = .move t way ∧ b.works t = .forgetSubscriber :: rest := by
  have hsame : b'.resolver.subscriber = b.resolver.subscriber → b'.background = b.background →
      b'.resolver.poller = b.resolver.poller →
      b'.resolver.subscriber = b.resolver.subscriber ∧ ∀ s : Service, s.task? b = none → s.task? b' = none :=
    fun hsubscriber hbackground hpoller => ⟨hsubscriber, fun s hs => by
      cases s with
      | balancer => exact hbackground.trans hs
      | resolver => exact hpoller.trans hs⟩
  have hfeed : b'.feed = b.feed →
      b'.resolver.subscriber = b.resolver.subscriber ∧ ∀ s : Service, s.task? b = none → s.task? b' = none := fun heq =>
    hsame (congrArg (fun f : Feed => f.resolver.subscriber) heq) (congrArg Feed.background heq)
      (congrArg (fun f : Feed => f.resolver.poller) heq)
  cases h with
  | inert works _ _ step core =>
    cases step with
    | resolution step =>
      obtain ⟨hsubscriber, hpoller⟩ := step.subscriber_eq
      refine .inl (hsame hsubscriber ?_ hpoller)
      cases step <;> rfl
    | startManual kind => cases hkind.symm.trans kind
    | stopManual kind => cases hkind.symm.trans kind
    | registerPoller => exact .inr (.inl ⟨_, _, _, _, rfl, works⟩)
    | launchConsumer => exact .inr (.inr (.inl ⟨_, _, _, _, rfl, works, rfl⟩))
    | forgetSubscriber => exact .inr (.inr (.inr ⟨_, _, _, rfl, works⟩))
    | stopPolls _ _ => exact .inl ⟨rfl, fun s hs => by cases s <;> first | rfl | exact hs⟩
    | stopUnpolled _ _ => exact .inl ⟨rfl, fun s hs => by cases s <;> first | rfl | exact hs⟩
    | stopConsumer _ => exact .inl ⟨rfl, fun s hs => by cases s <;> first | rfl | exact hs⟩
    | stopNothing _ => exact .inl ⟨rfl, fun s hs => by cases s <;> first | rfl | exact hs⟩
    | poll step => cases step <;> exact .inl (hsame rfl rfl rfl)
    | consume step => cases step <;> exact .inl (hsame rfl rfl rfl)
    | _ => exact .inl (hsame rfl rfl rfl)
  | pass _ _ step => exact .inl (hfeed step.feed)
  | exports _ _ _ _ exporting => exact .inl (hfeed exporting.feed)
  | @request rq _ =>
    by_cases hresolve : rq = .resolve
    · subst hresolve
      have heq := b.feed_request_resolve hkind
      exact .inl (hsame (congrArg (fun f : Feed => f.resolver.subscriber) heq) (congrArg Feed.background heq)
        (congrArg (fun f : Feed => f.resolver.poller) heq))
    · exact .inl (hfeed (b.feed_request hresolve))
  | @abandon t => exact absurd rfl (hkept t)
  | @answer answers =>
    have hdesk := desk_extendScript b answers
    exact .inl (hsame (congrArg Desk.subscriber hdesk) rfl (congrArg Desk.poller hdesk))
  | unsubscribe => exact absurd rfl hsubscribed
  | @receive box => cases box <;> exact .inl (hsame rfl rfl rfl)
  | still _ _ feed _ => exact .inl (hfeed feed)
  | _ => exact .inl (hsame rfl rfl rfl)

end Steps

end Balancer

namespace Run

/-- Whether a start and a shutdown of the balancer, each asked for in a step, have both returned before another step, in a run in which
nothing else starts or stops anything or asks for a pass, and the resolver polls. -/
structure Crosses (r : Run α) (c d n : Nat) : Prop where
  kept : ∀ m t, r.action m ≠ .abandon t
  subscribed : ∀ m, r.action m ≠ .unsubscribe
  polls : r.resolver.kind.isPolling = true ∧ r.resolver.poller = none
  start : c < n ∧ r.action c = .request .start
  shutdown : d < n ∧ r.action d = .request .shutdown
  starts : ∀ k rq, r.action k = .request rq → rq.stirs = true → k = c
  stops : ∀ k rq, r.action k = .request rq → Service.resolver.isStop rq = true → k = d
  returned : (r.state n).works (r.state c).nextTask = [] ∧ (r.state n).works (r.state d).nextTask = []

/-- Whether a task makes a step of a work in a step of a run. -/
def Performs (r : Run α) (t : TaskId) (w : Work α) (n : Nat) : Prop :=
  (∃ way, r.action n = .move t way) ∧ ((r.state n).works t).head? = some w

theorem Performs.works {r : Run α} {t : TaskId} {w : Work α} {n : Nat} (h : r.Performs t w n) :
    ∃ way rest, r.action n = .move t way ∧ (r.state n).works t = w :: rest := by
  obtain ⟨⟨way, haction⟩, hhead⟩ := h
  obtain ⟨rest, hworks⟩ := List.head?_eq_some_iff.1 hhead
  exact ⟨way, rest, haction, hworks⟩

/-- What is known while a start goes on that no other start overlaps. -/
inductive Ascends (r : Run α) (t : TaskId) (m : Nat) : Prop
  | begins (post : ((r.state m).post t).isBeginning = true) (unknown : ∀ s : Service, s.task? (r.state m) = none)
  | launches (post : (r.state m).post t = .launches) (unknown : Service.balancer.task? (r.state m) = none)
  | ended (post : (r.state m).post t = .over)

/-- How a task that is asked for in a step starts the balancer before another step. -/
structure Climbs (r : Run α) (t : TaskId) (c register launch n : Nat) : Prop where
  order : c < register ∧ register < launch ∧ launch < n
  registers : r.Establishes .resolver register t ∧ ∃ box, r.Performs t (.registerPoller box) register
  launches : r.Establishes .balancer launch t ∧ ∃ box, r.Performs t (.launchConsumer box) launch
  stages : ∀ m, c < m → (0 < ((r.state m).post t).startStage ↔ register < m) ∧ (1 < ((r.state m).post t).startStage ↔ launch < m)

/-- How a task that is asked for in a step stops the balancer before another step. -/
structure Falls (r : Run α) (t : TaskId) (d seek forget disband n : Nat) : Prop where
  order : d < seek ∧ seek < forget ∧ forget < disband ∧ disband < n
  seeks : r.Performs t .stopResolver seek
  forgets : r.Performs t .forgetSubscriber forget
  disbands : r.Performs t .stopConsumer disband
  stages : ∀ m, d < m → (0 < ((r.state m).post t).stopStage ↔ seek < m) ∧ (1 < ((r.state m).post t).stopStage ↔ forget < m) ∧
    (2 < ((r.state m).post t).stopStage ↔ disband < m)

/-- What is left of a start and a shutdown that overlap, by the order of five steps of theirs. -/
structure Settled (r : Run α) (c d n register launch seek forget disband : Nat) : Prop where
  start : c < register ∧ register < launch ∧ launch < n
  shutdown : d < seek ∧ seek < forget ∧ forget < disband ∧ disband < n
  registers : ∃ box, r.Performs (r.state c).nextTask (.registerPoller box) register
  launches : ∃ box, r.Performs (r.state c).nextTask (.launchConsumer box) launch
  seeks : r.Performs (r.state d).nextTask .stopResolver seek
  forgets : r.Performs (r.state d).nextTask .forgetSubscriber forget
  disbands : r.Performs (r.state d).nextTask .stopConsumer disband
  background : Service.balancer.task? (r.state n) ≠ none ↔ disband < launch
  poller : Service.resolver.task? (r.state n) ≠ none ↔ seek < register
  subscriber : (r.state n).resolver.subscriber ≠ none ↔ forget < register
  known : ∀ (s : Service) x, s.IsServedBy (r.state n) x → s.task? (r.state n) = some x
  vacant : launch < disband → (r.state n).Vacant
  verdict : (r.state n).Stopped ∨ (r.state n).Live ↔ launch < disband ∨ forget < register

section Crossing

variable {r : Run α} {c d n m : Nat} {x : TaskId} (hr : r.Crosses c d n)

include hr

/-! ## The start -/

theorem Crosses.eq_of_stirs (hx : ((r.state m).post x).stirs = true) : c < m ∧ x = (r.state c).nextTask := by
  obtain ⟨k, hkm, rq, haction, hrq, rfl⟩ := r.requested_of_post (P := Post.stirs) (Q := Request.stirs) rfl (fun h => h.stirs) m x hx
  obtain rfl := hr.starts k rq haction hrq
  exact ⟨hkm, rfl⟩

theorem Crosses.eq_of_isPast {s : Service} (hx : s.isPast ((r.state m).post x) = true) : c < m ∧ x = (r.state c).nextTask :=
  hr.eq_of_stirs (Post.stirs_of_isStart (Service.isStart_of_isPast (.inr hx)))

theorem Crosses.spaced : r.SpacesStarts := by
  have hstirs : ∀ rq : Request α, rq.isStart = true → rq.stirs = true := fun rq h => by
    cases rq <;> first | rfl | cases h
  intro k k' rq rq' hlt haction haction' hrq hrq'
  rw [hr.starts k rq haction (hstirs rq hrq), hr.starts k' rq' haction' (hstirs rq' hrq')] at hlt
  exact absurd hlt (Nat.lt_irrefl c)

/-- The start begins with its check, and nothing is known then. -/
theorem Crosses.ascends_base : r.Ascends (r.state c).nextTask (c + 1) := by
  have hunknown : ∀ m, m ≤ c + 1 → ∀ s : Service, s.task? (r.state m) = none := by
    intro m hm s
    induction m with
    | zero =>
      cases s with
      | balancer => rfl
      | resolver => exact hr.polls.2
    | succ m ih =>
      rcases r.known_succ s m with hsame | ⟨t, _, hpast, _⟩ | ⟨_, _, _, hnone, _⟩
      · exact hsame.trans (ih (Nat.le_of_succ_le hm))
      · have hlt := (hr.eq_of_isPast hpast).1
        omega
      · exact hnone
  refine .begins ?_ (hunknown (c + 1) (Nat.le_refl _))
  rw [r.post_of_request hr.start.2 rfl (fun h => nomatch h)]
  rfl

/-- In a step, the start goes on: it stays in its stage, registers a subscriber, or launches the task that applies updates. -/
theorem Crosses.ascends_succ (hcm : c < m) (h : r.Ascends (r.state c).nextTask m) : r.Ascends (r.state c).nextTask (m + 1) ∧
    (((r.state (m + 1)).post (r.state c).nextTask).startStage = ((r.state m).post (r.state c).nextTask).startStage ∨
      (((r.state m).post (r.state c).nextTask).startStage = 0 ∧ ((r.state (m + 1)).post (r.state c).nextTask).startStage = 1 ∧
        r.Establishes .resolver m (r.state c).nextTask) ∨
      (((r.state m).post (r.state c).nextTask).startStage = 1 ∧ ((r.state (m + 1)).post (r.state c).nextTask).startStage = 2 ∧
        r.Establishes .balancer m (r.state c).nextTask)) := by
  have hne : (r.state c).nextTask ≠ (r.state m).nextTask :=
    Nat.ne_of_lt (r.nextTask_lt_of_request hr.start.2 (fun h => nomatch h) hcm)
  obtain ⟨t, new, begun, hposts, hproceeds⟩ := ((r.turn m).proceeds (r.scripted m)).2
  have hpost := hposts (r.state c).nextTask
  rw [if_neg hne] at hpost
  by_cases ht : (r.state c).nextTask = t
  · subst ht
    rw [if_pos rfl] at hpost
    rw [hpost]
    cases h with
    | begins post unknown =>
      rcases hproceeds.begins post hne (hr.kept m _) ((r.polling_eq m).trans hr.polls.1) ⟨unknown .balancer, unknown .resolver⟩ with
        ⟨hnew, hbackground, hpoller⟩ | ⟨rfl, hbackground, hpoller, hmove⟩
      · exact ⟨.begins (hpost ▸ hnew) (fun s => by cases s <;> assumption),
          .inl (by rw [Post.startStage_of_isBeginning hnew, Post.startStage_of_isBeginning post])⟩
      · exact ⟨.launches hpost hbackground, .inr (.inl ⟨Post.startStage_of_isBeginning post, rfl, hmove, hpoller⟩)⟩
    | launches post unknown =>
      rw [post] at hproceeds ⊢
      rcases hproceeds.launches (hr.kept m _) with ⟨rfl, hbackground⟩ | ⟨rfl, hbackground, hmove⟩
      · exact ⟨.launches hpost (hbackground.trans unknown), .inl rfl⟩
      · exact ⟨.ended hpost, .inr (.inr ⟨rfl, rfl, hmove, hbackground⟩)⟩
    | ended post =>
      have hover := r.post_over_of_le (Nat.le_succ m) (r.nextTask_lt_of_request hr.start.2 (fun h => nomatch h) hcm) post
      rw [post, ← hpost, hover]
      exact ⟨.ended hover, .inl rfl⟩
  · rw [if_neg ht] at hpost
    have hunknown : ∀ s : Service, s.task? (r.state m) = none → s.task? (r.state (m + 1)) = none := by
      intro s hnone
      rcases hproceeds.select (s := s) with hsame | ⟨_, _, hpast, _⟩ | ⟨_, hforgotten, _⟩
      · exact hsame.trans hnone
      · exact absurd (hr.eq_of_isPast hpast).2.symm ht
      · exact hforgotten
    refine ⟨?_, .inl (by rw [hpost])⟩
    cases h with
    | begins post unknown => exact .begins (hpost ▸ post) (fun s => hunknown s (unknown s))
    | launches post unknown => exact .launches (hpost.trans post) (hunknown .balancer unknown)
    | ended post => exact .ended (hpost.trans post)

theorem Crosses.ascends (hcm : c < m) : r.Ascends (r.state c).nextTask m := by
  induction m, hcm using Nat.le_induction with
  | base => exact hr.ascends_base
  | succ m hcm ih => exact (hr.ascends_succ hcm ih).1

/-- What the start makes known in a step, it makes known by a work of one of three kinds. -/
theorem Crosses.works_of_establishes {s : Service} (hnone : s.task? (r.state m) = none) (h : r.Establishes s m (r.state c).nextTask) :
    ∃ w rest, (r.state m).works (r.state c).nextTask = w :: rest ∧
      ((∃ box, w = .registerPoller box) ∨ (∃ box, w = .launchConsumer box) ∨ w = .forgetSubscriber) := by
  obtain ⟨⟨way, haction⟩, hknown⟩ := h
  have hself : ∀ {t : TaskId} {way' : Nat}, r.action m = .move t way' → (r.state c).nextTask = t := fun h => by
    rw [haction] at h
    injection h
  rcases (r.turn m).known_cases ((r.polling_eq m).trans hr.polls.1) (hr.kept m) (hr.subscribed m) with
    ⟨_, hunknown⟩ | ⟨t, _, box, rest, hmove, hworks⟩ | ⟨t, _, box, rest, hmove, hworks, _⟩ | ⟨t, _, rest, hmove, hworks⟩
  · rw [hunknown s hnone] at hknown
    cases hknown
  · exact ⟨_, rest, hself hmove ▸ hworks, .inl ⟨box, rfl⟩⟩
  · exact ⟨_, rest, hself hmove ▸ hworks, .inr (.inl ⟨box, rfl⟩)⟩
  · exact ⟨_, rest, hself hmove ▸ hworks, .inr (.inr rfl)⟩

/-- The start makes polls known as it registers a subscriber. -/
theorem Crosses.performs_register (hcm : c < m) (hstage : ((r.state m).post (r.state c).nextTask).startStage = 0)
    (h : r.Establishes .resolver m (r.state c).nextTask) : ∃ box, r.Performs (r.state c).nextTask (.registerPoller box) m := by
  have hnone : Service.resolver.task? (r.state m) = none := by
    cases hr.ascends hcm with
    | begins _ unknown => exact unknown .resolver
    | launches post _ =>
      rw [post] at hstage
      cases hstage
    | ended post =>
      rw [post] at hstage
      cases hstage
  obtain ⟨w, rest, hworks, ⟨box, rfl⟩ | ⟨box, rfl⟩ | rfl⟩ := hr.works_of_establishes hnone h
  · exact ⟨box, h.1, congrArg List.head? hworks⟩
  · rw [Balancer.post, hworks] at hstage
    cases hstage
  · rw [Balancer.post, hworks] at hstage
    cases hstage

/-- The start makes the task that applies updates known as it launches it. -/
theorem Crosses.performs_launch (hcm : c < m) (hstage : ((r.state m).post (r.state c).nextTask).startStage = 1)
    (h : r.Establishes .balancer m (r.state c).nextTask) : ∃ box, r.Performs (r.state c).nextTask (.launchConsumer box) m := by
  have hnone : Service.balancer.task? (r.state m) = none := by
    cases hr.ascends hcm with
    | begins _ unknown => exact unknown .balancer
    | launches _ unknown => exact unknown
    | ended post =>
      rw [post] at hstage
      cases hstage
  obtain ⟨w, rest, hworks, ⟨box, rfl⟩ | ⟨box, rfl⟩ | rfl⟩ := hr.works_of_establishes hnone h
  · rw [Balancer.post, hworks] at hstage
    cases hstage
  · exact ⟨box, h.1, congrArg List.head? hworks⟩
  · rw [Balancer.post, hworks] at hstage
    cases hstage

/-- The start registers a subscriber, with polls, and then launches the task that applies updates. -/
theorem Crosses.climbs : ∃ register launch, r.Climbs (r.state c).nextTask c register launch n := by
  have hsteps := fun m (hcm : c + 1 ≤ m) => (hr.ascends_succ hcm (hr.ascends hcm)).2
  have hfirst : ((r.state (c + 1)).post (r.state c).nextTask).startStage = 0 := by
    rw [r.post_of_request hr.start.2 rfl (fun h => nomatch h)]
    rfl
  have hlast : ((r.state n).post (r.state c).nextTask).startStage = 2 := by
    rw [Balancer.post_eq_over_iff.2 hr.returned.1]
    rfl
  have hcn : c + 1 ≤ n := hr.start.1
  generalize hstage : (fun m => ((r.state m).post (r.state c).nextTask).startStage) = stage
  have hstage' : ∀ m, ((r.state m).post (r.state c).nextTask).startStage = stage m := fun m => congrFun hstage m
  simp only [hstage'] at hsteps hfirst hlast
  have hgrows : ∀ m, c + 1 ≤ m → stage m ≤ stage (m + 1) ∧ stage (m + 1) ≤ stage m + 1 := fun m hcm => by
    rcases hsteps m hcm with hsame | ⟨h, h', _⟩ | ⟨h, h', _⟩ <;> omega
  have hmono := fun m hcm => (hgrows m hcm).1
  obtain ⟨register, hcr, _, hregister⟩ := exists_switch hcn hmono (i := 0) (by omega) (by omega)
  obtain ⟨launch, hcl, hln, hlaunch⟩ := exists_switch hcn hmono (i := 1) (by omega) (by omega)
  have hregisters := switch_at hcr hregister
  have hlaunches := switch_at hcl hlaunch
  refine ⟨register, launch, ⟨hcr, switch_lt hcr hregister hlaunch (hgrows register hcr).2, hln⟩, ?_, ?_, fun m hcm => ?_⟩
  · rcases hsteps register hcr with hsame | ⟨_, _, h⟩ | ⟨h, _, _⟩
    · omega
    · exact ⟨h, hr.performs_register hcr ((hstage' register).trans (by omega)) h⟩
    · omega
  · rcases hsteps launch hcl with hsame | ⟨_, h, _⟩ | ⟨_, _, h⟩
    · omega
    · omega
    · exact ⟨h, hr.performs_launch hcl ((hstage' launch).trans (by omega)) h⟩
  · rw [hstage' m]
    exact ⟨hregister m hcm, hlaunch m hcm⟩

/-! ## The stop -/

theorem Crosses.eq_of_isStop (hx : ((r.state m).post x).isStop = true) : d < m ∧ x = (r.state d).nextTask := by
  obtain ⟨k, hkm, rq, haction, hrq, rfl⟩ := r.requested_of_post (P := Post.isStop) (Q := Service.resolver.isStop) rfl
    (fun h => h.isStop) m x hx
  obtain rfl := hr.stops k rq haction hrq
  exact ⟨hkm, rfl⟩

/-- In a step, the shutdown goes on: it stays in its stage, looks for polls, forgets the subscriber, or looks for the task that applies
updates. -/
theorem Crosses.descends_succ (hdm : d < m) (h : Service.balancer.isStopping ((r.state m).post (r.state d).nextTask) = true ∨
      ((r.state m).post (r.state d).nextTask).isWinding = true) :
    (Service.balancer.isStopping ((r.state (m + 1)).post (r.state d).nextTask) = true ∨
      ((r.state (m + 1)).post (r.state d).nextTask).isWinding = true) ∧
    (((r.state (m + 1)).post (r.state d).nextTask).stopStage = ((r.state m).post (r.state d).nextTask).stopStage ∨
      (((r.state m).post (r.state d).nextTask).stopStage = 0 ∧ ((r.state (m + 1)).post (r.state d).nextTask).stopStage = 1 ∧
        r.Performs (r.state d).nextTask .stopResolver m) ∨
      (((r.state m).post (r.state d).nextTask).stopStage = 1 ∧ ((r.state (m + 1)).post (r.state d).nextTask).stopStage = 2 ∧
        r.Performs (r.state d).nextTask .forgetSubscriber m) ∨
      (((r.state m).post (r.state d).nextTask).stopStage = 2 ∧ ((r.state (m + 1)).post (r.state d).nextTask).stopStage = 3 ∧
        r.Performs (r.state d).nextTask .stopConsumer m)) := by
  have hlt := r.nextTask_lt_of_request hr.shutdown.2 (fun h => nomatch h) hdm
  by_cases hmove : ∃ way, r.action m = .move (r.state d).nextTask way
  · obtain ⟨t, new, begun, hposts, hproceeds⟩ := ((r.turn m).proceeds (r.scripted m)).2
    have hpost := hposts (r.state d).nextTask
    rw [if_neg (Nat.ne_of_lt hlt)] at hpost
    by_cases ht : (r.state d).nextTask = t
    · subst ht
      rw [if_pos rfl] at hpost
      rw [hpost]
      obtain ⟨hgoes, hstage⟩ := hproceeds.stops h (Nat.ne_of_lt hlt) (hr.kept m _) ((r.polling_eq m).trans hr.polls.1)
      have hscript := r.scripted m (r.state d).nextTask
      refine ⟨hgoes, ?_⟩
      rcases hstage with hsame | ⟨hold, hnew⟩ | ⟨hold, hnew⟩ | ⟨hold, hnew⟩
      · exact .inl hsame
      · rw [hold] at hscript ⊢
        exact .inr (.inl ⟨rfl, hnew, hmove, hscript.head?_of_stops⟩)
      · rw [hold] at hscript ⊢
        exact .inr (.inr (.inl ⟨rfl, hnew, hmove, hscript.head?_of_forgets⟩))
      · rw [hold] at hscript ⊢
        exact .inr (.inr (.inr ⟨rfl, hnew, hmove, hscript.head?_of_disbands⟩))
    · rw [if_neg ht] at hpost
      rw [hpost]
      exact ⟨h, .inl rfl⟩
  · have hsame := r.task?_succ hlt (fun way h => hmove ⟨way, h⟩) (hr.kept m _)
    have hpost : (r.state (m + 1)).post (r.state d).nextTask = (r.state m).post (r.state d).nextTask := by
      rw [Balancer.post, Balancer.post, Balancer.works, Balancer.works, hsame]
    rw [hpost]
    exact ⟨h, .inl rfl⟩

theorem Crosses.descends (hdm : d < m) : Service.balancer.isStopping ((r.state m).post (r.state d).nextTask) = true ∨
    ((r.state m).post (r.state d).nextTask).isWinding = true := by
  induction m, hdm using Nat.le_induction with
  | base =>
    rw [r.post_of_request hr.shutdown.2 rfl (fun h => nomatch h)]
    exact .inl rfl
  | succ m hdm ih => exact (hr.descends_succ hdm ih).1

/-- The shutdown looks for polls, then forgets the subscriber, and then looks for the task that applies updates. -/
theorem Crosses.falls : ∃ seek forget disband, r.Falls (r.state d).nextTask d seek forget disband n := by
  have hsteps := fun m (hdm : d + 1 ≤ m) => (hr.descends_succ hdm (hr.descends hdm)).2
  have hfirst : ((r.state (d + 1)).post (r.state d).nextTask).stopStage = 0 := by
    rw [r.post_of_request hr.shutdown.2 rfl (fun h => nomatch h)]
    rfl
  have hlast : ((r.state n).post (r.state d).nextTask).stopStage = 3 := by
    rw [Balancer.post_eq_over_iff.2 hr.returned.2]
    rfl
  have hdn : d + 1 ≤ n := hr.shutdown.1
  generalize hstage : (fun m => ((r.state m).post (r.state d).nextTask).stopStage) = stage
  have hstage' : ∀ m, ((r.state m).post (r.state d).nextTask).stopStage = stage m := fun m => congrFun hstage m
  simp only [hstage'] at hsteps hfirst hlast
  have hgrows : ∀ m, d + 1 ≤ m → stage m ≤ stage (m + 1) ∧ stage (m + 1) ≤ stage m + 1 := fun m hdm => by
    rcases hsteps m hdm with hsame | ⟨h, h', _⟩ | ⟨h, h', _⟩ | ⟨h, h', _⟩ <;> omega
  have hmono := fun m hdm => (hgrows m hdm).1
  obtain ⟨seek, hds, _, hseek⟩ := exists_switch hdn hmono (i := 0) (by omega) (by omega)
  obtain ⟨forget, hdf, _, hforget⟩ := exists_switch hdn hmono (i := 1) (by omega) (by omega)
  obtain ⟨disband, hdd, hlt, hdisband⟩ := exists_switch hdn hmono (i := 2) (by omega) (by omega)
  have hseeks := switch_at hds hseek
  have hforgets := switch_at hdf hforget
  have hdisbands := switch_at hdd hdisband
  refine ⟨seek, forget, disband, ⟨hds, switch_lt hds hseek hforget (hgrows seek hds).2,
    switch_lt hdf hforget hdisband (hgrows forget hdf).2, hlt⟩, ?_, ?_, ?_, fun m hdm => ?_⟩
  · rcases hsteps seek hds with hsame | ⟨_, _, h⟩ | ⟨h, _, _⟩ | ⟨h, _, _⟩
    · omega
    · exact h
    · omega
    · omega
  · rcases hsteps forget hdf with hsame | ⟨_, h, _⟩ | ⟨_, _, h⟩ | ⟨h, _, _⟩
    · omega
    · omega
    · exact h
    · omega
  · rcases hsteps disband hdd with hsame | ⟨_, h, _⟩ | ⟨_, h, _⟩ | ⟨_, _, h⟩
    · omega
    · omega
    · omega
    · exact h
  · rw [hstage' m]
    exact ⟨hseek m hdm, hforget m hdm, hdisband m hdm⟩

/-! ## What is left -/

theorem Crosses.task_ne : (r.state c).nextTask ≠ (r.state d).nextTask := by
  have hne : c ≠ d := by
    rintro rfl
    cases hr.start.2.symm.trans hr.shutdown.2
  rcases Nat.lt_or_gt_of_ne hne with hlt | hlt
  · exact Nat.ne_of_lt (r.nextTask_lt_of_request hr.start.2 (fun h => nomatch h) hlt)
  · exact Nat.ne_of_gt (r.nextTask_lt_of_request hr.shutdown.2 (fun h => nomatch h) hlt)

/-- The start and the shutdown take no step at the same time. -/
theorem Crosses.step_ne {i j : Nat} {w w' : Work α} (hi : r.Performs (r.state c).nextTask w i)
    (hj : r.Performs (r.state d).nextTask w' j) : i ≠ j := by
  rintro rfl
  obtain ⟨⟨way, hway⟩, _⟩ := hi
  obtain ⟨⟨way', hway'⟩, _⟩ := hj
  have heq := hway.symm.trans hway'
  injection heq with heq
  exact hr.task_ne heq

/-- In the end, a background task that the start made known is known exactly if the shutdown looked for it earlier. -/
theorem Crosses.known_iff {s : Service} {i j : Nat} (hij : i ≠ j) (hin : i < n) (hdj : d < j) (hjn : j < n)
    (hestablishes : r.Establishes s i (r.state c).nextTask) (hpast : ∀ m, i < m → ∀ x, s.isPast ((r.state m).post x) = false)
    (hstops : ∀ m, d < m → (s.isStopping ((r.state m).post (r.state d).nextTask) = true ↔ m ≤ j)) :
    s.task? (r.state n) ≠ none ↔ j < i := by
  rcases Nat.lt_or_gt_of_ne hij with hlt | hlt
  · refine ⟨fun hknown => ?_, fun hji => absurd hji (Nat.not_lt.2 (Nat.le_of_lt hlt))⟩
    rcases isStopping_or hr.kept hr.polls.2 (e := max (i + 1) (d + 1)) (m := n) (by omega)
      (fun k hk => hpast k (by omega)) ((hstops _ (by omega)).2 (by omega)) with hstopping | hnone
    · exact absurd ((hstops n (by omega)).1 hstopping) (Nat.not_le.2 hjn)
    · exact absurd hnone hknown
  · refine ⟨fun _ => hlt, fun _ => ?_⟩
    have hknown : ∀ m, i < m → s.task? (r.state m) = some (r.state i).nextTask := by
      intro m him
      induction m, him using Nat.le_induction with
      | base => exact hestablishes.2
      | succ m him ih =>
        rcases r.known_succ s m with hsame | ⟨t, _, hpast', _⟩ | ⟨t, _, hstopping, _⟩
        · exact hsame.trans ih
        · cases (hpast m him t).symm.trans hpast'
        · obtain rfl := (hr.eq_of_isStop (Post.isStop_of_isStopping hstopping)).2
          have hle := (hstops m (by omega)).1 hstopping
          omega
    rw [hknown n hin]
    exact fun h => nomatch h

/-- The subscriber changes only while the start has not registered one, or as the shutdown forgets it. -/
theorem Crosses.subscriber_succ (m : Nat) : (r.state (m + 1)).resolver.subscriber = (r.state m).resolver.subscriber ∨
    (c < m ∧ ((r.state m).post (r.state c).nextTask).startStage = 0) ∨
      (d < m ∧ ((r.state m).post (r.state d).nextTask).stopStage = 1) := by
  rcases (r.turn m).known_cases ((r.polling_eq m).trans hr.polls.1) (hr.kept m) (hr.subscribed m) with
    ⟨hsame, _⟩ | ⟨t, _, box, rest, _, hworks⟩ | ⟨_, _, _, _, _, _, hsame⟩ | ⟨t, _, rest, _, hworks⟩
  · exact .inl hsame
  · have hpost : (r.state m).post t = .registers !rest.isEmpty := by
      rw [Balancer.post, hworks]
      rfl
    obtain ⟨hcm, rfl⟩ := hr.eq_of_isPast (s := .resolver) (congrArg _ hpost)
    exact .inr (.inl ⟨hcm, congrArg Post.startStage hpost⟩)
  · exact .inl hsame
  · have hpost : (r.state m).post t = .forgets !rest.isEmpty := by
      rw [Balancer.post, hworks]
      rfl
    obtain ⟨hdm, rfl⟩ := hr.eq_of_isStop (congrArg Post.isStop hpost)
    exact .inr (.inr ⟨hdm, congrArg Post.stopStage hpost⟩)

section Settling

variable {register launch seek forget disband : Nat} (hclimbs : r.Climbs (r.state c).nextTask c register launch n)
  (hfalls : r.Falls (r.state d).nextTask d seek forget disband n)

include hclimbs hfalls

/-- Once the start has registered a subscriber and the shutdown has forgotten one, the subscriber stays. -/
theorem Crosses.subscriber_eq {e : Nat} (hregister : register < e) (hforget : forget < e) (hem : e ≤ m) :
    (r.state m).resolver.subscriber = (r.state e).resolver.subscriber := by
  induction m, hem using Nat.le_induction with
  | base => rfl
  | succ m hem ih =>
    rcases hr.subscriber_succ m with hsame | ⟨hcm, hstage⟩ | ⟨hdm, hstage⟩
    · exact hsame.trans ih
    · have := (hclimbs.stages m hcm).1.2 (by omega)
      omega
    · have := (hfalls.stages m hdm).2.1.2 (by omega)
      omega

/-- In the end, the subscriber is registered exactly if the shutdown forgot it before the start registered it. -/
theorem Crosses.subscriber_iff : (r.state n).resolver.subscriber ≠ none ↔ forget < register := by
  obtain ⟨box, hregister⟩ := hclimbs.registers.2
  have hne := hr.step_ne hregister hfalls.forgets
  obtain ⟨_, hrl, hln⟩ := hclimbs.order
  obtain ⟨_, _, hfd, hdn⟩ := hfalls.order
  rcases Nat.lt_or_gt_of_ne hne with hlt | hlt
  · obtain ⟨way, rest, haction, hworks⟩ := hfalls.forgets.works
    have hforgets : r.Forgets forget := ⟨_, way, rest, haction, hworks⟩
    rw [hr.subscriber_eq hclimbs hfalls (e := forget + 1) (by omega) (by omega) (by omega), hforgets.subscriber]
    exact ⟨fun h => absurd rfl h, fun h => absurd h (Nat.not_lt.2 (Nat.le_of_lt hlt))⟩
  · obtain ⟨way, rest, haction, hworks⟩ := hregister.works
    have hregisters : r.Registers box register := ⟨_, way, rest, haction, hworks⟩
    rw [hr.subscriber_eq hclimbs hfalls (e := register + 1) (by omega) (by omega) (by omega), hregisters.subscriber]
    exact ⟨fun _ => hlt, fun _ h => nomatch h⟩

/-- In the end, polls are known exactly if the shutdown looked for some before the start registered a subscriber. -/
theorem Crosses.poller_iff : Service.resolver.task? (r.state n) ≠ none ↔ seek < register := by
  obtain ⟨hestablishes, _, hregister⟩ := hclimbs.registers
  obtain ⟨_, hrl, hln⟩ := hclimbs.order
  obtain ⟨hds, hsf, hfd, hdn⟩ := hfalls.order
  refine hr.known_iff (hr.step_ne hregister hfalls.seeks) (by omega) hds (by omega) hestablishes
    (fun m hm x => Bool.eq_false_iff.2 (fun hx => ?_)) (fun m hdm => ?_)
  · obtain ⟨hcm, rfl⟩ := hr.eq_of_isPast hx
    have hstage := Post.startStage_of_isPast.1 hx
    have hlater := (hclimbs.stages m hcm).1.2 hm
    omega
  · rw [(Post.isStopping_iff (hr.descends hdm)).1, (hfalls.stages m hdm).1, Nat.not_lt]

/-- In the end, a task that applies updates is known exactly if the shutdown looked for one before the start launched it. -/
theorem Crosses.background_iff : Service.balancer.task? (r.state n) ≠ none ↔ disband < launch := by
  obtain ⟨hestablishes, _, hlaunch⟩ := hclimbs.launches
  obtain ⟨_, hrl, hln⟩ := hclimbs.order
  obtain ⟨hds, hsf, hfd, hdn⟩ := hfalls.order
  refine hr.known_iff (hr.step_ne hlaunch hfalls.disbands) hln (by omega) hdn hestablishes
    (fun m hm x => Bool.eq_false_iff.2 (fun hx => ?_)) (fun m hdm => ?_)
  · obtain ⟨hcm, rfl⟩ := hr.eq_of_isPast hx
    have hstage := Post.startStage_of_isPast.2 hx
    have hlater := (hclimbs.stages m hcm).2.2 hm
    omega
  · rw [(Post.isStopping_iff (hr.descends hdm)).2, (hfalls.stages m hdm).2.2, Nat.not_lt]

omit hclimbs hfalls in
theorem Crosses.not_isStop (x : TaskId) : ((r.state n).post x).isStop = false := by
  refine Bool.eq_false_iff.2 (fun hx => ?_)
  obtain ⟨_, rfl⟩ := hr.eq_of_isStop hx
  rw [Balancer.post_eq_over_iff.2 hr.returned.2] at hx
  cases hx

omit hfalls in
/-- Once the start has launched the task that applies updates, nothing starts anything. -/
theorem Crosses.not_stirs (hlaunched : launch < m) (x : TaskId) : ((r.state m).post x).stirs = false := by
  refine Bool.eq_false_iff.2 (fun hx => ?_)
  obtain ⟨hcm, rfl⟩ := hr.eq_of_stirs hx
  have hstage := (hclimbs.stages m hcm).2.2 hlaunched
  cases hr.ascends hcm with
  | begins post _ =>
    rw [Post.startStage_of_isBeginning post] at hstage
    omega
  | launches post _ =>
    rw [post] at hstage
    cases Nat.lt_irrefl 1 hstage
  | ended post =>
    rw [post] at hx
    cases hx

/-- If the start launched the task that applies updates before the shutdown looked for it, the ring and the pool are empty in the end. -/
theorem Crosses.vacant (hlaunched : launch < disband) : (r.state n).Vacant := by
  obtain ⟨_, _, hln⟩ := hclimbs.order
  obtain ⟨hds, hsf, hfd, hdn⟩ := hfalls.order
  have hwinds : r.Winds (r.state d).nextTask (max (launch + 1) (d + 1)) :=
    { kept := hr.kept
      spaced := hr.spaced
      unpolled := hr.polls.2
      quiet := fun m hm => hr.not_stirs hclimbs (by omega)
      stopping := by
        rw [(Post.isStopping_iff (hr.descends (by omega))).2, (hfalls.stages _ (by omega)).2.2]
        omega }
  exact hwinds.vacant (by omega) hr.not_isStop

omit hclimbs hfalls in
/-- In the end, the task that does the work of a background task is the known one. -/
theorem Crosses.task?_of_isServedBy {s : Service} {x : TaskId} (hx : s.IsServedBy (r.state n) x) : s.task? (r.state n) = some x := by
  rcases task?_of_isServing hr.spaced hr.kept n x (isServedBy_iff.1 hx) with hknown | ⟨y, hawaits⟩
  · exact hknown
  · cases (hr.not_isStop y).symm.trans (Post.isStop_of_isAwaiting hawaits)

/-- What is left in the end, by the order of the steps of the start and of the shutdown. -/
theorem Crosses.settled : r.Settled c d n register launch seek forget disband where
  start := hclimbs.order
  shutdown := hfalls.order
  registers := hclimbs.registers.2
  launches := hclimbs.launches.2
  seeks := hfalls.seeks
  forgets := hfalls.forgets
  disbands := hfalls.disbands
  background := hr.background_iff hclimbs hfalls
  poller := hr.poller_iff hclimbs hfalls
  subscriber := hr.subscriber_iff hclimbs hfalls
  known := fun _ _ hx => hr.task?_of_isServedBy hx
  vacant := hr.vacant hclimbs hfalls
  verdict := by
    have hbackground := hr.background_iff hclimbs hfalls
    obtain ⟨_, _, hlaunch⟩ := hclimbs.launches
    have hne := hr.step_ne hlaunch hfalls.disbands
    constructor
    · rintro (hstopped | hlive)
      · have hnot := hbackground.not.1 (fun h => h hstopped.background)
        exact .inl (by omega)
      · exact .inr ((hr.subscriber_iff hclimbs hfalls).1 hlive.subscriber)
    · intro h
      by_cases hlaunched : launch < disband
      · have hnone : (r.state n).background = none := by
          by_contra hknown
          exact absurd (hbackground.1 hknown) (by omega)
        exact .inl ⟨hnone, hr.vacant hclimbs hfalls hlaunched⟩
      · have hforgotten := h.resolve_left hlaunched
        obtain ⟨_, hsf, _⟩ := hfalls.order
        exact .inr ⟨hbackground.2 (by omega), (hr.poller_iff hclimbs hfalls).2 (by omega),
          (hr.subscriber_iff hclimbs hfalls).2 hforgotten⟩

end Settling

end Crossing

/-- A start and a shutdown that overlap take five steps each of which has its order among those of the other, and by that order the balancer
is stopped or live in the end, or neither. -/
theorem settled_of_crosses {r : Run α} {c d n : Nat} (hr : r.Crosses c d n) :
    ∃ register launch seek forget disband, r.Settled c d n register launch seek forget disband := by
  obtain ⟨register, launch, hclimbs⟩ := hr.climbs
  obtain ⟨seek, forget, disband, hfalls⟩ := hr.falls
  exact ⟨register, launch, seek, forget, disband, hr.settled hclimbs hfalls⟩

/-- A balancer is shut down while its start has registered a subscriber, but has not begun its first pass. -/
def crossed : Run Unit := startedThen (fun n => if n = 8 then some (.request .shutdown) else none)
  (fun n => if n < 8 then (0, 0) else if n = 9 then (2, 0) else if n < 12 then (1, 0) else if n < 20 then (2, 0) else (0, 0))

theorem asked_of_crossed {n : Nat} {a : Action Unit} (h : crossed.action n = a) (hne : ∀ t way, a ≠ .move t way) :
    (n = 0 ∧ a = .request .start) ∨ (n = 8 ∧ a = .request .shutdown) := by
  rcases asked_of_startedThen h hne with hstart | hasked
  · exact .inl hstart
  · split at hasked
    · cases hasked
      exact .inr ⟨by assumption, rfl⟩
    · cases hasked

/-- In that run, the start and the shutdown overlap, and both have returned in the end. -/
theorem crosses_crossed : crossed.Crosses 0 8 28 where
  kept := fun m t h => by
    rcases asked_of_crossed h (fun _ _ h => nomatch h) with ⟨_, hnot⟩ | ⟨_, hnot⟩ <;> cases hnot
  subscribed := fun m h => by
    rcases asked_of_crossed h (fun _ _ h => nomatch h) with ⟨_, hnot⟩ | ⟨_, hnot⟩ <;> cases hnot
  polls := ⟨rfl, rfl⟩
  start := ⟨by decide, rfl⟩
  shutdown := ⟨by decide, rfl⟩
  starts := fun k rq h hrq => by
    rcases asked_of_crossed h (fun _ _ h => nomatch h) with ⟨hk, _⟩ | ⟨_, hnot⟩
    · exact hk
    · cases hnot
      cases hrq
  stops := fun k rq h hrq => by
    rcases asked_of_crossed h (fun _ _ h => nomatch h) with ⟨_, hnot⟩ | ⟨hk, _⟩
    · cases hnot
      cases hrq
    · exact hk
  returned := ⟨List.isEmpty_iff.1 (by decide +kernel), List.isEmpty_iff.1 (by decide +kernel)⟩

/-- In that run, the shutdown looks for the task that applies updates before the start launches it, and the start registers a subscriber before
the shutdown forgets it. -/
theorem settled_crossed : (crossed.state 8).resolver.subscriber = some 0 ∧ (crossed.state 20).outcome? 2 = some .done ∧
    (crossed.state 20).background = none ∧
    ∃ register launch seek forget disband, crossed.Settled 0 8 28 register launch seek forget disband :=
  ⟨by decide +kernel, Balancer.outcome?_of_hasSucceeded (by decide +kernel), by decide +kernel, settled_of_crosses crosses_crossed⟩

/-- So it is not true that a balancer is stopped or live when a start and a shutdown have returned and no pass is under way. An exporter may
run while the resolver is stopped. -/
theorem adrift_crossed : (crossed.state 28).pool.running = [⟨"a"⟩] ∧ (crossed.state 28).background = some 3 ∧
    (crossed.state 28).resolver.poller = none ∧ (crossed.state 28).resolver.subscriber = none ∧
    ¬ ∀ (r : Run Unit) (c d n : Nat), r.Crosses c d n → (∀ t p, (r.state n).duty? t ≠ some (.pass p)) →
      (r.state n).Stopped ∨ (r.state n).Live := by
  have hbackground : (crossed.state 28).background = some 3 := by decide +kernel
  have hsubscriber : (crossed.state 28).resolver.subscriber = none := by decide +kernel
  refine ⟨by decide +kernel, hbackground, by decide +kernel, hsubscriber, fun hclaim => ?_⟩
  have hfree : ∀ t < 4, ((crossed.state 28).duty? t).isNone = true := by decide +kernel
  have hlength : (crossed.state 28).tasks.length = 4 := by decide +kernel
  have hidle : ∀ t p, (crossed.state 28).duty? t ≠ some (.pass p) := fun t p hp => by
    obtain ⟨_, hworks, _⟩ := Balancer.works_of_duty? hp
    have hlt : t < 4 := hlength ▸ Balancer.lt_of_works hworks
    cases (Option.isNone_iff_eq_none.1 (hfree t hlt)).symm.trans hp
  rcases hclaim crossed 0 8 28 crosses_crossed hidle with hstopped | hlive
  · cases hbackground.symm.trans hstopped.background
  · exact hlive.subscriber hsubscriber

end Run

end TelemetryRouter
