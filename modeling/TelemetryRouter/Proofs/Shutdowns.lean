import TelemetryRouter.Proofs.Accounts
import TelemetryRouter.Proofs.Clearances
import TelemetryRouter.Proofs.Ownership
import TelemetryRouter.Proofs.Services

/-!
# Shutting down

A shutdown stops the polls, lets the task that applies updates come to its end, and has a last pass empty the ring and the pool. Each
of the two tasks may be at a pass, or take an update that still waits, before it ends, but whatever it brings is cleared away by that
last pass. A shutdown that comes while another one waits for such a task does not wait for it. So it is when no stop is under
way any more that the balancer is shut, and it stays so until something is started or asked of it again.
-/

namespace TelemetryRouter

variable {α : Type}

/-- Whether a request starts something or asks for a pass. -/
def Request.stirs : Request α → Bool
  | .start => true
  | .startResolver _ => true
  | .update _ => true
  | .reconcile _ => true
  | .reconcileToRing => true
  | .retireAll => true
  | _ => false

namespace Post

/-- Whether a post is that of a start, or of a pass that was asked for. -/
def stirs : Post → Bool
  | .reconciles => true
  | post => post.isStart

theorem stirs_of_isStart {post : Post} (h : post.isStart = true) : post.stirs = true := by
  cases post <;> first | rfl | exact h

theorem not_isPast_of_not_stirs {s : Service} {post : Post} (h : post.stirs = false) : s.isPast post = false :=
  Bool.eq_false_iff.2 (fun hpast => Bool.eq_false_iff.1 h (stirs_of_isStart (Service.isStart_of_isPast (.inr hpast))))

/-- Whether a post is that of a stop. -/
def isStop : Post → Bool
  | .stops _ => true
  | .awaitsPolls _ _ => true
  | .forgets _ => true
  | .disbands => true
  | .awaitsConsumer _ => true
  | .clears => true
  | .empties => true
  | _ => false

/-- Whether a post is that of a stop that has a last pass ahead of it. -/
def isAhead : Post → Bool
  | .stops balancer => balancer
  | .awaitsPolls _ balancer => balancer
  | .forgets balancer => balancer
  | .disbands => true
  | .awaitsConsumer _ => true
  | .clears => true
  | _ => false

theorem isStop_of_isAhead {post : Post} (h : post.isAhead = true) : post.isStop = true := by
  cases post <;> first | rfl | cases h

/-- A stop of the balancer that has not let the task that applies updates be forgotten has its last pass ahead of it. -/
theorem isAhead_of_isStopping {post : Post} (h : Service.balancer.isStopping post = true) : post.isAhead = true := by
  cases post <;> first | exact h | cases h

/-- A stop that waits for the task that applies updates has its last pass ahead of it. -/
theorem isAhead_of_isAwaiting {post : Post} {x : TaskId} (h : Service.balancer.IsAwaiting x post) : post.isAhead = true := by
  cases post <;> first | rfl | cases h

theorem isStop_of_isAwaiting {s : Service} {post : Post} {x : TaskId} (h : s.IsAwaiting x post) : post.isStop = true := by
  cases s <;> cases post <;> first | rfl | cases h

end Post

/-- A request begins in the post of a start or of a pass exactly when it starts something or asks for a pass. -/
theorem Request.stirs_post (r : Request α) : r.post.stirs = r.stirs := by
  cases r <;> rfl

/-- A pass under way empties the ring and the pool, or it was asked for, or belongs to a start or to the task that applies updates. -/
theorem Script.empties_or {p : Pass} {rest : List (Work α)} {post : Post} (h : Script (.pass p :: rest) post) :
    p.Empties ∨ post.stirs = true ∨ Service.balancer.isServing post = true := by
  cases h with
  | plain h => cases h _ List.mem_cons_self
  | reconcile => exact .inr (.inl rfl)
  | firstPass => exact .inr (.inl rfl)
  | apply => exact .inr (.inr rfl)
  | lastPass h => exact .inl h

namespace Balancer

namespace Proceeds

variable {b b' : Balancer α} {a : Action α} {t : TaskId} {old new begun : Post} {background poller : Option TaskId}

/-- What was asked for, or started, was under way before, or it is asked for now. -/
theorem stirs (h : Proceeds b b' a t old new begun background poller) : begun.stirs = false ∧
    (new.stirs = true → old.stirs = true ∨ ∃ rq, a = .request rq ∧ rq.stirs = true ∧ t = b.nextTask) := by
  cases h with
  | stay => exact ⟨rfl, .inl⟩
  | @request rq action fresh =>
    refine ⟨rfl, fun hnew => .inr ⟨rq, action, ?_, fresh⟩⟩
    cases rq <;> first | rfl | cases hnew
  | _ =>
    (try cases ‹Bool›) <;> first | exact ⟨rfl, fun _ => .inl rfl⟩ | exact ⟨rfl, fun h => absurd h Bool.false_ne_true⟩

/-- A stop was under way before, or it is asked for now. -/
theorem isStop (h : Proceeds b b' a t old new begun background poller) : begun.isStop = false ∧
    (new.isStop = true → old.isStop = true ∨ ∃ rq, a = .request rq ∧ Service.resolver.isStop rq = true ∧ t = b.nextTask) := by
  cases h with
  | stay => exact ⟨rfl, .inl⟩
  | @request rq action fresh =>
    refine ⟨rfl, fun hnew => .inr ⟨rq, action, ?_, fresh⟩⟩
    cases rq <;> first | rfl | cases hnew
  | _ =>
    (try cases ‹Bool›) <;> first | exact ⟨rfl, fun _ => .inl rfl⟩ | exact ⟨rfl, fun h => absurd h Bool.false_ne_true⟩

/-- A stop that has a last pass ahead of it comes to that pass, unless it is given up. -/
theorem isAhead (h : Proceeds b b' a t old new begun background poller) (hold : old.isAhead = true) :
    new.isAhead = true ∨ new = .empties ∨ a = .abandon t := by
  cases h with
  | stay => exact .inl hold
  | abandon action => exact .inr (.inr action)
  | finish from_post => rcases from_post with rfl | rfl <;> cases hold
  | clear => exact .inr (.inl rfl)
  | _ => (try cases ‹Bool›) <;> first | exact .inl rfl | cases hold

/-- The last pass of a stop goes on until it is done, unless it is given up. -/
theorem empties (h : Proceeds b b' a t .empties new begun background poller) :
    new = .empties ∨ a = .abandon t ∨ ∀ p rest, b.works t = .pass p :: rest → p.IsDone := by
  cases h with
  | stay => exact .inl rfl
  | abandon action => exact .inr (.inl action)
  | finish from_post => rcases from_post with h | h <;> cases h
  | cleared done => exact .inr (.inr done)

end Proceeds

/-- Whether a balancer is shut: nothing is published and nothing listed, nobody applies updates or polls, and no connection is left. -/
structure Shut (b : Balancer α) : Prop where
  vacant : b.Vacant
  unknown : ∀ s : Service, s.task? b = none
  unserved : ∀ (s : Service) x, ¬ s.IsServedBy b x
  disconnected : ∀ id, .started ∈ b.history id → b.Disconnected id

end Balancer

namespace Run

/-- Whether a shutdown that was asked for in a step has returned before another step, with every other stop that was asked for. -/
structure ShutsDown (r : Run α) (d n : Nat) : Prop where
  kept : ∀ m t, r.action m ≠ .abandon t
  spaced : r.SpacesStarts
  unpolled : r.resolver.poller = none
  asked : d < n ∧ r.action d = .request .shutdown
  /-- Every start, and every pass that is asked for, is over by then, and none follows. -/
  unstirred : ∀ k rq, r.action k = .request rq → rq.stirs = true → k < d ∧ (r.state d).works (r.state k).nextTask = []
  /-- The shutdown and all other stops have returned. -/
  returned : ∀ k rq, k < n → r.action k = .request rq → Service.resolver.isStop rq = true →
    (r.state n).works (r.state k).nextTask = []

/-- What is so from a step on, once a balancer is shut. -/
structure StaysShut (r : Run α) (n : Nat) : Prop where
  shut : ∀ m, n ≤ m → (r.state m).Shut
  unmade : ∀ m, n ≤ m → (r.state m).pool.made.length = (r.state n).pool.made.length
  /-- An exporter is called only through a lease that was taken before. -/
  leased : ∀ m id what, n ≤ m → r.Says id m what → what.isExportCall = true → ∃ holder k, k < n ∧ r.HeldSince id holder k m
  /-- The dispatch of a batch with items ends if it is served, finds no endpoints, and leases nothing. -/
  refused : ∀ m batch context, n ≤ m → r.action m = .request (.dispatch batch context) → batch.isEmpty = false →
    (r.Serves (r.state m).nextTask →
      ∃ j, m < j ∧ (r.state j).outcome? (r.state m).nextTask = some (.dispatched (.failed (.routing .noEndpoints)))) ∧
    ∀ j result, m < j → (r.state j).outcome? (r.state m).nextTask = some (.dispatched result) →
      result = .failed (.routing .noEndpoints) ∧ r.Idle (r.state m).nextTask m j

variable {r : Run α}

/-- A resolver that does not poll has no task that polls. -/
theorem poller_eq_none (hkind : r.resolver.kind.isPolling = false) (hpoller : r.resolver.poller = none) (n : Nat) :
    Service.resolver.task? (r.state n) = none ∧ ∀ x, Service.resolver.isPast ((r.state n).post x) = false := by
  induction n with
  | zero => exact ⟨hpoller, fun _ => rfl⟩
  | succ n ih =>
    refine ⟨?_, fun x => Bool.eq_false_iff.2 (fun hx => ?_)⟩
    · rcases r.known_succ .resolver n with hsame | ⟨t, _, hpast, _⟩ | ⟨_, _, _, hnone, _⟩
      · exact hsame.trans ih.1
      · cases (ih.2 t).symm.trans hpast
      · exact hnone
    · rcases isPast_succ hx with hpast | ⟨_, _, hpolls⟩
      · cases (ih.2 x).symm.trans hpast
      · cases hkind.symm.trans (hpolls rfl)

/-- While no start is past its check, a stop that has not let the background task be forgotten yet is on its way to do so, or none is known
any more. -/
theorem isStopping_or {s : Service} (hkept : ∀ m t, r.action m ≠ .abandon t) (hpoller : r.resolver.poller = none) {x : TaskId} {e m : Nat}
    (hem : e ≤ m) (hquiet : ∀ k, e ≤ k → ∀ y, s.isPast ((r.state k).post y) = false) (hstops : s.isStopping ((r.state e).post x) = true) :
    s.isStopping ((r.state m).post x) = true ∨ s.task? (r.state m) = none := by
  induction m, hem using Nat.le_induction with
  | base => exact .inl hstops
  | succ m hm ih =>
    rcases ih with hstops | hnone
    · rcases isStopping_succ (hkept m _) hstops with hstops | hnone | ⟨rfl, hkind⟩
      · exact .inl hstops
      · exact .inr hnone
      · exact .inr (poller_eq_none hkind hpoller (m + 1)).1
    · rcases r.known_succ s m with hsame | ⟨t, _, hpast, _⟩ | ⟨_, _, _, hforgotten, _⟩
      · exact .inr (hsame.trans hnone)
      · cases (hquiet m hm t).symm.trans hpast
      · exact .inr hforgotten

/-! ## The last pass -/

/-- Whether from a step on nothing starts anything or asks for a pass any more, while a task stops the balancer that has not let the task
that applies updates be forgotten yet. -/
structure Winds (r : Run α) (d : TaskId) (e : Nat) : Prop where
  kept : ∀ m t, r.action m ≠ .abandon t
  spaced : r.SpacesStarts
  unpolled : r.resolver.poller = none
  quiet : ∀ m, e ≤ m → ∀ y, ((r.state m).post y).stirs = false
  stopping : Service.balancer.isStopping ((r.state e).post d) = true

section Winding

variable {d : TaskId} {e : Nat} (hr : r.Winds d e)

include hr

theorem Winds.finishesPasses : r.FinishesPasses := fun m t _ h => absurd h (hr.kept m t)

/-- The stop is on its way to let the task that applies updates be forgotten, or none is known any more. -/
theorem Winds.isStopping_or {m : Nat} (hm : e ≤ m) :
    Service.balancer.isStopping ((r.state m).post d) = true ∨ Service.balancer.task? (r.state m) = none :=
  Run.isStopping_or hr.kept hr.unpolled hm (fun k hk y => Post.not_isPast_of_not_stirs (hr.quiet k hk y)) hr.stopping

/-- While nobody applies updates, every pass empties the ring and the pool. -/
theorem Winds.empties {m : Nat} (hm : e ≤ m) (hidle : ∀ x, Service.balancer.isServing ((r.state m).post x) = false) {t : TaskId}
    {p : Pass} (hp : (r.state m).duty? t = some (.pass p)) : p.Empties := by
  obtain ⟨rest, hworks, _⟩ := Balancer.works_of_duty? hp
  rcases (hworks ▸ r.scripted m t).empties_or with hempties | hstirs | hserves
  · exact hempties
  · rw [hr.quiet m hm t] at hstirs
    cases hstirs
  · rw [hidle t] at hserves
    cases hserves

/-- While nobody applies updates, what is empty stays so, and no exporter is made. -/
theorem Winds.vacant_succ {m : Nat} (hm : e ≤ m) (hidle : ∀ x, Service.balancer.isServing ((r.state m).post x) = false)
    (hvacant : (r.state m).Vacant) :
    (r.state (m + 1)).Vacant ∧ (r.state (m + 1)).pool.made.length = (r.state m).pool.made.length := by
  refine (r.passing hr.finishesPasses m).vacant hvacant (fun t p hp => ?_)
  have hempties := hr.empties hm hidle (Balancer.insider?_eq_some_iff.1 hp).2
  exact ⟨hempties, r.clearing hr.finishesPasses m t p hp hempties⟩

/-- While no stop has its last pass ahead of it, nobody applies updates. -/
theorem Winds.idle_of_not_isAhead {m : Nat} (hm : e ≤ m) (hahead : ∀ y, ((r.state m).post y).isAhead = false) (x : TaskId) :
    Service.balancer.isServing ((r.state m).post x) = false := by
  refine Bool.eq_false_iff.2 (fun hx => ?_)
  have hnot : ∀ {y : TaskId}, ((r.state m).post y).isAhead = true → False := fun {y} h => by
    rw [hahead y] at h
    cases h
  rcases task?_of_isServing hr.spaced hr.kept m x hx with hknown | ⟨y, hawaits⟩
  · rcases hr.isStopping_or hm with hstops | hnone
    · exact hnot (Post.isAhead_of_isStopping hstops)
    · rw [hnone] at hknown
      cases hknown
  · exact hnot (Post.isAhead_of_isAwaiting hawaits)

/-- A pass that empties the ring and the pool has done so when it is done. -/
theorem Winds.vacant_of_isDone {m : Nat} {x : TaskId} (hx : (r.state m).post x = .empties)
    (hdone : ∀ p rest, (r.state m).works x = .pass p :: rest → p.IsDone) : (r.state m).Vacant := by
  have hscript := r.scripted m x
  rw [hx] at hscript
  generalize hworks : (r.state m).works x = ws at hscript
  cases hscript with
  | @lastPass p hempties =>
    have ho := r.orderly hr.finishesPasses m
    have hd := Balancer.duty?_of_works hworks rfl
    have hp := hdone p _ hworks
    have hinside : (r.state m).insider? = some (x, p) := by
      refine Balancer.insider?_eq_some_iff.2 ⟨ho.turn x p hd ?_, hd⟩
      obtain ⟨_, _, _, hphase, _⟩ := hp
      rw [hphase]
      exact fun h => nomatch h
    exact (r.clearing hr.finishesPasses m x p hinside hempties).vacant ho (r.grounded m) hinside hp

/-- A last pass is ahead or under way, or everything is empty. -/
theorem Winds.isAhead_or_vacant {m : Nat} (hm : e ≤ m) : (∃ y, ((r.state m).post y).isAhead = true) ∨
    (∃ x, (r.state m).post x = .empties) ∨ (r.state m).Vacant := by
  induction m, hm using Nat.le_induction with
  | base => exact .inl ⟨d, Post.isAhead_of_isStopping hr.stopping⟩
  | succ m hm ih =>
    by_cases hahead : ∃ y, ((r.state m).post y).isAhead = true
    · obtain ⟨y, hy⟩ := hahead
      rcases r.after_of_post (P := fun post => post.isAhead = true) Bool.false_ne_true hy with hstill | ⟨_, hproceeds⟩
      · exact .inl ⟨y, hstill⟩
      · rcases hproceeds.isAhead hy with hnew | hnew | habandon
        · exact .inl ⟨y, hnew⟩
        · exact .inr (.inl ⟨y, hnew⟩)
        · exact absurd habandon (hr.kept m y)
    · have hidle := hr.idle_of_not_isAhead hm (fun y => Bool.eq_false_iff.2 (fun hy => hahead ⟨y, hy⟩))
      have hstays := hr.vacant_succ hm hidle
      rcases ih.resolve_left hahead with ⟨x, hx⟩ | hvacant
      · rcases r.after_of_post (P := fun post => post = .empties) (fun h => nomatch h) hx with hstill | ⟨_, hproceeds⟩
        · exact .inr (.inl ⟨x, hstill⟩)
        · rw [hx] at hproceeds
          rcases hproceeds.empties with hnew | habandon | hdone
          · exact .inr (.inl ⟨x, hnew⟩)
          · exact absurd habandon (hr.kept m x)
          · exact .inr (.inr (hstays (hr.vacant_of_isDone hx hdone)).1)
      · exact .inr (.inr (hstays hvacant).1)

/-- When no stop is under way any more, the ring and the pool are empty. -/
theorem Winds.vacant {m : Nat} (hm : e ≤ m) (hover : ∀ y, ((r.state m).post y).isStop = false) : (r.state m).Vacant := by
  have hnot : ∀ {y : TaskId}, ((r.state m).post y).isStop = true → False := fun {y} h => by
    rw [hover y] at h
    cases h
  rcases hr.isAhead_or_vacant hm with ⟨y, hy⟩ | ⟨x, hx⟩ | hvacant
  · exact (hnot (Post.isStop_of_isAhead hy)).elim
  · exact (hnot (congrArg Post.isStop hx)).elim
  · exact hvacant

end Winding

/-! ## Shutdowns that have returned -/

section Shutting

variable {d n : Nat} (hr : r.ShutsDown d n)

include hr

theorem ShutsDown.finishesPasses : r.FinishesPasses := fun m t _ h => absurd h (hr.kept m t)

/-- From the request on, nothing starts and nobody has asked for a pass. -/
theorem ShutsDown.not_stirs {m : Nat} (hm : d ≤ m) (x : TaskId) : ((r.state m).post x).stirs = false := by
  refine Bool.eq_false_iff.2 (fun hx => ?_)
  obtain ⟨k, _, rq, haction, hrq, rfl⟩ := r.requested_of_post (P := Post.stirs) (Q := Request.stirs) rfl (fun h => h.stirs) m x hx
  obtain ⟨hkd, hover⟩ := hr.unstirred k rq haction hrq
  have hpost : rq.post ≠ .other := fun heq => by
    rw [← rq.stirs_post, heq] at hrq
    cases hrq
  rw [r.post_over_of_request haction hpost hkd hover hm] at hx
  cases hx

theorem ShutsDown.not_isStop (x : TaskId) : ((r.state n).post x).isStop = false := by
  refine Bool.eq_false_iff.2 (fun hx => ?_)
  obtain ⟨k, hk, rq, haction, hrq, rfl⟩ := r.requested_of_post (P := Post.isStop) (Q := Service.resolver.isStop) rfl
    (fun h => h.isStop) n x hx
  rw [Balancer.post_eq_over_iff.2 (hr.returned k rq hk haction hrq)] at hx
  cases hx

theorem ShutsDown.begins : (r.state (d + 1)).post (r.state d).nextTask = .stops true :=
  r.post_of_request hr.asked.2 rfl (fun h => nomatch h)

/-- From then on nothing starts anything, and the shutdown goes on to its last pass. -/
theorem ShutsDown.winds : r.Winds (r.state d).nextTask (d + 1) where
  kept := hr.kept
  spaced := hr.spaced
  unpolled := hr.unpolled
  quiet := fun _ hm => hr.not_stirs (Nat.le_of_lt hm)
  stopping := by
    rw [hr.begins]
    rfl

/-- In the end and from then on, no background task is known. -/
theorem ShutsDown.task?_eq_none (s : Service) {m : Nat} (hm : n ≤ m) : s.task? (r.state m) = none := by
  have hover : (r.state m).post (r.state d).nextTask = .over :=
    r.post_over_of_request hr.asked.2 (fun h => nomatch h) hr.asked.1 (hr.returned d .shutdown hr.asked.1 hr.asked.2 rfl) hm
  have hquiet : ∀ k, d + 1 ≤ k → ∀ y, s.isPast ((r.state k).post y) = false := fun k hk y =>
    Post.not_isPast_of_not_stirs (hr.not_stirs (Nat.le_of_lt hk) y)
  have hbegins : s.isStopping ((r.state (d + 1)).post (r.state d).nextTask) = true := by
    rw [hr.begins]
    cases s <;> rfl
  rcases isStopping_or hr.kept hr.unpolled (Nat.lt_of_lt_of_le hr.asked.1 hm) hquiet hbegins with hstops | hnone
  · rw [hover] at hstops
    cases s <;> cases hstops
  · exact hnone

/-- In the end and from then on, there is no background task. -/
theorem ShutsDown.not_isServing (s : Service) {m : Nat} (hm : n ≤ m) : ∀ x, s.isServing ((r.state m).post x) = false := by
  induction m, hm using Nat.le_induction with
  | base =>
    refine fun x => Bool.eq_false_iff.2 (fun hx => ?_)
    rcases task?_of_isServing hr.spaced hr.kept n x hx with hknown | ⟨y, hawaits⟩
    · cases (hr.task?_eq_none s (Nat.le_refl n)).symm.trans hknown
    · cases (hr.not_isStop y).symm.trans (Post.isStop_of_isAwaiting hawaits)
  | succ m hm ih =>
    refine fun x => Bool.eq_false_iff.2 (fun hx => ?_)
    rcases isServing_succ hx with hserving | ⟨_, _, _, hknown⟩
    · cases (ih x).symm.trans hserving
    · cases (hr.task?_eq_none s (Nat.le_succ_of_le hm)).symm.trans hknown

/-- In the end and from then on, the ring and the pool are empty, and no exporter is made. -/
theorem ShutsDown.vacant {m : Nat} (hm : n ≤ m) :
    (r.state m).Vacant ∧ (r.state m).pool.made.length = (r.state n).pool.made.length := by
  induction m, hm using Nat.le_induction with
  | base => exact ⟨hr.winds.vacant hr.asked.1 hr.not_isStop, rfl⟩
  | succ m hm ih =>
    obtain ⟨hvacant, hlength⟩ := hr.winds.vacant_succ (Nat.lt_of_lt_of_le hr.asked.1 hm) (hr.not_isServing .balancer hm) ih.1
    exact ⟨hvacant, hlength.trans ih.2⟩

/-! ## What stays -/

theorem ShutsDown.not_runsAt {m : Nat} (hm : n ≤ m) (id : ExporterId) : ¬ r.RunsAt id m := by
  rintro ⟨entry, he, hstate⟩
  have hlisted := ((r.orderly hr.finishesPasses m).kept.listed id entry he).1 (by rw [hstate]; exact fun h => nomatch h)
  rw [(hr.vacant hm).1.pool] at hlisted
  cases hlisted

theorem ShutsDown.shut {m : Nat} (hm : n ≤ m) : (r.state m).Shut where
  vacant := (hr.vacant hm).1
  unknown := fun s => hr.task?_eq_none s hm
  unserved := fun s x hx => by
    have hserving := isServedBy_iff.1 hx
    rw [hr.not_isServing s hm x] at hserving
    cases hserving
  disconnected := fun id hstarted => by
    have hrecalls := r.recalls hr.finishesPasses id m
    rcases he : (r.state m).pool.entry? id with _ | entry
    · rw [he] at hrecalls
      have hnil : (r.state m).history id = [] := hrecalls
      rw [hnil] at hstarted
      cases hstarted
    · refine r.disconnected_of_not_listed hr.finishesPasses (Balancer.endpointOf?_eq_some he) (fun hmem => ?_) hstarted
      rw [(hr.vacant hm).1.pool] at hmem
      cases hmem

/-- A dispatch of a batch with items that is asked for in the end or later finds no endpoints, and leases nothing. -/
theorem ShutsDown.refused {m j : Nat} {batch : Batch α} {context : DispatchContext} {result : DispatchResult α} (hm : n ≤ m)
    (haction : r.action m = .request (.dispatch batch context)) (hitems : batch.isEmpty = false) (hj : m < j)
    (houtcome : (r.state j).outcome? (r.state m).nextTask = some (.dispatched result)) :
    result = .failed (.routing .noEndpoints) ∧ r.Idle (r.state m).nextTask m j := by
  obtain ⟨task, ht, hstage⟩ := stage_of_lt haction hj
  obtain rfl : task = ⟨[], .dispatched result⟩ := Option.some.inj (ht.symm.trans (task?_of_outcome? houtcome))
  have hnil : ∀ {k : Nat}, m < k → (r.state k).ring.endpoints = [] := fun hk =>
    (hr.vacant (Nat.le_of_lt (Nat.lt_of_le_of_lt hm hk))).1.ring
  cases hstage with
  | ended answers =>
    cases answers with
    | empty items _ =>
      rw [hitems] at items
      cases items
    | unrouted _ _ _ _ _ idle => exact ⟨rfl, idle⟩
    | overflow lt _ _ _ members _ _ => exact absurd (hnil lt) members
    | delivered _ handles _ => exact absurd (hnil handles.lt) handles.members

/-- When a shutdown has returned and no other stop is under way, the balancer is shut, and it stays so. -/
theorem ShutsDown.staysShut : r.StaysShut n where
  shut := fun m hm => hr.shut hm
  unmade := fun m hm => (hr.vacant hm).2
  leased := fun m id what hm hsays hcall => by
    obtain ⟨holder, hleased, _⟩ := r.exports_of_says hsays hcall
    obtain ⟨k, hheld⟩ := r.held_since hleased
    exact ⟨holder, k, Nat.lt_of_not_le (fun hnk => hr.not_runsAt hnk id hheld.2.1), hheld⟩
  refused := fun m batch context hm haction hitems => by
    refine ⟨fun hserves => ?_, fun j result hj houtcome => hr.refused hm haction hitems hj houtcome⟩
    obtain ⟨j, result, hj, houtcome⟩ := hserves.ends haction
    refine ⟨j, hj, ?_⟩
    rw [houtcome, (hr.refused hm haction hitems hj houtcome).1]

end Shutting

/-- A run of a balancer whose resolver polls: it is started in the first step, other things are asked for in some of the steps, and in
all the others the given task makes a move in the given way. -/
def startedThen (asked? : Nat → Option (Action Unit)) (mover : Nat → TaskId × Nat) : Run Unit where
  options := ⟨⟨1, .ofSeconds 60, .ofSeconds 30⟩, none, none⟩
  adapter := ⟨.logs, fun _ _ => none⟩
  resolver := .polling (.listing "scripted" [.immediate (.ok [⟨"a"⟩])]) (.ofSeconds 30) (.ofSeconds 5)
  backends := ⟨[]⟩
  action := fun n => if n = 0 then .request .start else (asked? n).getD (.move (mover n).1 (mover n).2)

/-- What is no move in such a run is the start or is asked for. -/
theorem asked_of_startedThen {asked? : Nat → Option (Action Unit)} {mover : Nat → TaskId × Nat} {n : Nat} {a : Action Unit}
    (h : (startedThen asked? mover).action n = a) (hne : ∀ t way, a ≠ .move t way) :
    (n = 0 ∧ a = .request .start) ∨ asked? n = some a := by
  unfold startedThen at h
  dsimp only at h
  split at h
  · exact .inl ⟨by assumption, h.symm⟩
  · rcases hasked : asked? n with _ | a'
    · rw [hasked] at h
      exact absurd h.symm (hne _ _)
    · rw [hasked] at h
      exact .inr (congrArg some h)

/-- A balancer is shut down, and gets a batch afterwards. -/
def shutOnce : Run Unit := startedThen
  (fun n => if n = 16 then some (.request .shutdown) else if n = 34 then some (.request (.dispatch oneItem ⟨none, none⟩)) else none)
  (fun n => if n < 16 then (0, 0) else if n = 17 then (3, 0) else if n < 20 then (1, 0) else if n < 23 then (3, 0)
    else if n < 25 then (2, 0) else if n < 34 then (3, 0) else (4, 0))

theorem request_of_shutOnce {n : Nat} {rq : Request Unit} (h : shutOnce.action n = .request rq) :
    (n = 0 ∧ rq = .start) ∨ (n = 16 ∧ rq = .shutdown) ∨ (n = 34 ∧ rq = .dispatch oneItem ⟨none, none⟩) := by
  rcases asked_of_startedThen h (fun _ _ h => nomatch h) with ⟨hn, hrq⟩ | hasked
  · cases hrq
    exact .inl ⟨hn, rfl⟩
  · split at hasked
    · cases hasked
      exact .inr (.inl ⟨by assumption, rfl⟩)
    · split at hasked
      · cases hasked
        exact .inr (.inr ⟨by assumption, rfl⟩)
      · cases hasked

theorem shutsDown_shutOnce : shutOnce.ShutsDown 16 34 where
  kept := fun m t h => by
    rcases asked_of_startedThen h (fun _ _ h => nomatch h) with ⟨_, hnot⟩ | hasked
    · cases hnot
    · repeat' split at hasked
      all_goals cases hasked
  spaced := fun k n rq rq' hkn hk hn hrq hrq' => by
    rcases request_of_shutOnce hn with ⟨rfl, rfl⟩ | ⟨rfl, rfl⟩ | ⟨rfl, rfl⟩
    · exact absurd hkn (Nat.not_lt_zero k)
    · cases hrq'
    · cases hrq'
  unpolled := rfl
  asked := ⟨by decide, rfl⟩
  unstirred := fun k rq h hrq => by
    rcases request_of_shutOnce h with ⟨rfl, rfl⟩ | ⟨rfl, rfl⟩ | ⟨rfl, rfl⟩
    · exact ⟨by decide, List.isEmpty_iff.1 (by decide +kernel)⟩
    · cases hrq
    · cases hrq
  returned := fun k rq hk h hrq => by
    rcases request_of_shutOnce h with ⟨rfl, rfl⟩ | ⟨rfl, rfl⟩ | ⟨rfl, rfl⟩
    · cases hrq
    · exact List.isEmpty_iff.1 (by decide +kernel)
    · cases hrq

/-- In that run, the exporter is shut down once, and the batch finds no endpoints. -/
theorem staysShut_shutOnce : shutOnce.ShutsDown 16 34 ∧ Service.balancer.IsServedBy (shutOnce.state 16) 2 ∧
    Service.resolver.IsServedBy (shutOnce.state 16) 1 ∧ (shutOnce.state 16).pool.running = [⟨"a"⟩] ∧
    (shutOnce.state 34).history 0 = [.created, .starting, .started, .stopping 0, .stopped] ∧ shutOnce.StaysShut 34 :=
  ⟨shutsDown_shutOnce, by decide +kernel, by decide +kernel, by decide +kernel, by decide +kernel, shutsDown_shutOnce.staysShut⟩

/-- A balancer is shut down twice, while a resolution is under way that was begun by a poll. -/
def shutTwice : Run Unit := startedThen
  (fun n => if n = 17 then some (.advance 30000) else if n = 19 ∨ n = 21 then some (.request .shutdown) else none)
  (fun n => if n < 16 then (0, 0) else if n = 16 then (1, 0) else if n = 18 then (1, 1) else if n = 20 then (3, 0)
    else if n < 25 then (4, 0) else if n < 27 then (2, 0) else (4, 0))

theorem request_of_shutTwice {n : Nat} {rq : Request Unit} (h : shutTwice.action n = .request rq) :
    (n = 0 ∧ rq = .start) ∨ ((n = 19 ∨ n = 21) ∧ rq = .shutdown) := by
  rcases asked_of_startedThen h (fun _ _ h => nomatch h) with ⟨hn, hrq⟩ | hasked
  · cases hrq
    exact .inl ⟨hn, rfl⟩
  · split at hasked
    · cases hasked
    · split at hasked
      · cases hasked
        exact .inr ⟨by assumption, rfl⟩
      · cases hasked

/-- In that run, no call is given up, starts do not overlap, and nothing is started or asked for besides after the start. But when the
second shutdown has returned, the first one still waits for a task that polls. -/
theorem served_shutTwice : (∀ m t, shutTwice.action m ≠ .abandon t) ∧ shutTwice.SpacesStarts ∧
    shutTwice.resolver.poller = none ∧ shutTwice.action 21 = .request .shutdown ∧
    (∀ k rq, shutTwice.action k = .request rq → rq.stirs = true → k < 21 ∧ (shutTwice.state 21).works (shutTwice.state k).nextTask = []) ∧
    (shutTwice.state 21).nextTask = 4 ∧ (shutTwice.state 36).outcome? 4 = some .done ∧
    Service.resolver.IsServedBy (shutTwice.state 36) 1 ∧ ¬ (shutTwice.state 36).Shut := by
  have hserved : Service.resolver.IsServedBy (shutTwice.state 36) 1 := by decide +kernel
  refine ⟨fun m t h => ?_, fun k n rq rq' hkn hk hn hrq hrq' => ?_, rfl, rfl, fun k rq h hrq => ?_, by decide +kernel,
    Balancer.outcome?_of_hasSucceeded (by decide +kernel), hserved, fun h => h.unserved .resolver 1 hserved⟩
  · rcases asked_of_startedThen h (fun _ _ h => nomatch h) with ⟨_, hnot⟩ | hasked
    · cases hnot
    · repeat' split at hasked
      all_goals cases hasked
  · rcases request_of_shutTwice hn with ⟨rfl, rfl⟩ | ⟨_, rfl⟩
    · exact absurd hkn (Nat.not_lt_zero k)
    · cases hrq'
  · rcases request_of_shutTwice h with ⟨rfl, rfl⟩ | ⟨_, rfl⟩
    · exact ⟨by decide, List.isEmpty_iff.1 (by decide +kernel)⟩
    · cases hrq

end Run

end TelemetryRouter
