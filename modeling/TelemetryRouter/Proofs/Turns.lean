import TelemetryRouter.Proofs.InertCases
import TelemetryRouter.Proofs.OwnMoves

/-!
# What an action does to the works and to the feed

Seen from discovery, an action is a step of an inert work, a step of a pass, a step of an export, a request, a task that is given up, or
a change from outside. For each of them this module says which works the tasks have afterwards and whether the feed and the ring
are as before.
-/

namespace TelemetryRouter

variable {α : Type}

/-- Whether giving a work up is seen by discovery: it stands at the gate of the resolver or at a mailbox. -/
def Work.isAwaited : Work α → Bool
  | .resolution _ => true
  | .send _ _ => true
  | _ => false

namespace Balancer

section Turns

variable {b b' : Balancer α} {t : TaskId} {rest : List (Work α)} {way : Nat}

/-! ## Steps of duties -/

/-- A step of a pass leaves the pass, as it goes on, or the works under it. -/
theorem PassStep.leaves {p : Pass} (hw : b.works t = .pass p :: rest) (h : PassStep b t rest p b') :
    ∃ ws, Leaves b b' t ws [] ∧
      (ws = rest ∨ ∃ p', ws = .pass p' :: rest ∧ p'.target = p.target ∧ p'.publish = p.publish) := by
  have ht := lt_of_works hw
  cases h with
  | enter _ _ _ _ => exact ⟨_, leaves_withWorks ht rfl _, .inr ⟨_, rfl, rfl, rfl⟩⟩
  | attempt _ _ _ frame _ => exact ⟨_, leaves_withWorks ht frame.tasks _, .inr ⟨_, rfl, rfl, rfl⟩⟩
  | publish _ _ => exact ⟨_, leaves_withWorks ht rfl _, .inr ⟨_, rfl, rfl, rfl⟩⟩
  | retire _ _ _ frame _ _ => exact ⟨_, leaves_withWorks ht frame.tasks _, .inr ⟨_, rfl, rfl, rfl⟩⟩
  | @conclude added failed retirements _ _ =>
    obtain ⟨metrics, heq⟩ := concludePass_eq b t rest (b.passOutcome added failed retirements)
    rw [heq]
    exact ⟨_, leaves_finish ht rfl _ _, .inl rfl⟩

theorem PassStep.feed {p : Pass} (h : PassStep b t rest p b') : b'.feed = b.feed := by
  cases h with
  | enter _ _ _ _ => rfl
  | attempt _ _ _ frame _ => exact frame.feed
  | publish _ _ => rfl
  | retire _ _ _ frame _ _ => exact frame.feed
  | conclude _ _ => exact feed_concludePass _ _ _ _

/-- A step of an export: its task goes on with it or with the works under it, and feed and ring are as before. -/
structure Exporting (b b' : Balancer α) (t : TaskId) (rest ws : List (Work α)) : Prop where
  leaves : Leaves b b' t ws []
  goes : ws = rest ∨ ∃ w, ws = w :: rest ∧ w.isInert = false ∧ ∀ p, w ≠ .pass p
  feed : b'.feed = b.feed
  ring : b'.ring = b.ring

theorem DeliverStep.exporting {started : Nat} {deadline : Option Instant} {token : Option String} {parcels : List (Parcel α)}
    (hw : b.works t = .deliver started deadline token parcels :: rest)
    (h : DeliverStep b t rest started deadline token parcels way b') : ∃ ws, Exporting b b' t rest ws := by
  have ht := lt_of_works hw
  cases h with
  | parcel _ _ _ frame _ =>
    exact ⟨_, leaves_withWorks ht frame.tasks _, .inr ⟨_, rfl, rfl, fun _ h => nomatch h⟩, frame.feed, frame.ring⟩
  | finish _ => exact ⟨_, leaves_finish ht rfl _ _, .inl rfl, rfl, rfl⟩

/-- A step of an export through a lease held from outside is one. -/
theorem ExportStep.exporting {lease : LeaseId} {batch : Batch α} {held : HeldLease} {entry : Entry} {wake : Option Nat}
    (hw : b.works t = .exportLeased lease batch wake :: rest) (h : ExportStep b t rest lease batch held entry wake b') :
    ∃ ws, Exporting b b' t rest ws := by
  have ht := lt_of_works hw
  have hend : ∀ {c : Balancer α} {outcome : Outcome α}, Frame b c →
      Exporting b ((c.useLease lease (· - 1)).finish t rest outcome) t rest rest := by
    intro c outcome hframe
    have hresettles := resettles_useLease c lease (· - 1)
    exact ⟨leaves_finish ht (hresettles.tasks.trans hframe.tasks) _ _, .inl rfl, hresettles.feed.trans hframe.feed,
      hresettles.ring.trans hframe.ring⟩
  cases h with
  | refuse frame _ _ => exact ⟨_, hend frame⟩
  | call frame _ _ =>
    exact ⟨_, leaves_withWorks ht frame.tasks _, .inr ⟨_, rfl, rfl, fun _ h => nomatch h⟩, frame.feed, frame.ring⟩
  | finish frame _ _ _ => exact ⟨_, hend frame⟩

/-! ## Requests -/

/-- The works with which the task of a request begins. -/
def begun (b : Balancer α) : Request α → List (Work α)
  | .start => [.startBalancer]
  | .shutdown => [.stopResolver, .stopConsumer, .clear, .succeed]
  | .update endpoints => [.pass (b.applyPass endpoints)]
  | .reconcile endpoints => [.pass (Pass.of endpoints)]
  | .reconcileToRing => [.pass Pass.refresh]
  | .retireAll => [.pass (Pass.of [])]
  | .resolve => if b.resolver.kind.isPolling then [.resolution .queued] else []
  | .startResolver box => [.startResolver box]
  | .stopResolver => [.stopResolver]
  | .push endpoints => [.push endpoints]
  | .dispatch batch context => [.dispatch batch context]
  | .exportLeased lease batch => [.exportLeased lease batch none]
  | .pause milliseconds => [.pause (b.now + milliseconds)]

theorem works_request (b : Balancer α) (r : Request α) (x : TaskId) :
    (b.request r).1.works x = if x = b.nextTask then b.begun r else b.works x := by
  have ht := nextTask_lt_spawn b
  have hold : x ≠ b.nextTask → (b.spawn []).works x = b.works x := fun hx => by rw [works_spawn, if_neg hx]
  have hgo : ∀ {c : Balancer α} (ws : List (Work α)), c.tasks = (b.spawn []).tasks →
      (c.withWorks b.nextTask ws).works x = if x = b.nextTask then ws else b.works x := by
    intro c ws hts
    rw [works_withWorks (hts ▸ ht), works_congr hts]
    split
    · rfl
    · exact hold (by assumption)
  have hend : ∀ {c : Balancer α} (outcome : Outcome α), c.tasks = (b.spawn []).tasks →
      (c.finish b.nextTask [] outcome).works x = if x = b.nextTask then [] else b.works x := by
    intro c outcome hts
    rw [works_finish (hts ▸ ht), works_congr hts]
    split
    · rfl
    · exact hold (by assumption)
  show ((b.spawn []).begin b.nextTask r).works x = _
  cases r with
  | resolve =>
    rw [begin, begun]
    rcases hkind : b.resolver.kind.isPolling with _ | _
    · obtain ⟨metrics, heq⟩ := beginResolution_of_not_isPolling (b := b.spawn []) hkind b.nextTask []
      rw [heq]
      exact hend _ rfl
    · rw [beginResolution_of_isPolling (b := b.spawn []) hkind]
      exact hgo _ rfl
  | exportLeased lease batch =>
    let c := (b.spawn []).withWorks b.nextTask [.exportLeased lease batch none]
    have hc : c.works x = if x = b.nextTask then [.exportLeased lease batch none] else b.works x := hgo _ rfl
    rw [← works_congr (resettles_useLease c lease (· + 1)).tasks x] at hc
    exact hc
  | _ => exact hgo _ rfl

theorem leaves_request (b : Balancer α) (r : Request α) : Leaves b (b.request r).1 b.nextTask (b.begun r) [] :=
  leaves_nil_iff.2 (works_request b r)

theorem feed_request (b : Balancer α) {r : Request α} (hr : r ≠ .resolve) : (b.request r).1.feed = b.feed := by
  show ((b.spawn []).begin b.nextTask r).feed = _
  cases r with
  | resolve => exact absurd rfl hr
  | exportLeased lease batch => exact (resettles_useLease _ lease (· + 1)).feed
  | _ => rfl

/-- A request to resolve a polling resolver brings its task to the gate. -/
theorem feed_request_resolve (b : Balancer α) (hkind : b.resolver.kind.isPolling = true) :
    (b.request .resolve).1.feed =
      { b.feed with resolver := { b.resolver with gate := b.resolver.gate.join b.nextTask } } := by
  show ((b.spawn []).beginResolution b.nextTask []).feed = _
  rw [beginResolution_of_isPolling (b := b.spawn []) hkind]
  rfl

theorem ring_request (b : Balancer α) (r : Request α) : (b.request r).1.ring = b.ring := by
  show ((b.spawn []).begin b.nextTask r).ring = _
  cases r with
  | resolve =>
    rw [begin, beginResolution]
    split <;> rfl
  | exportLeased lease batch => exact (resettles_useLease _ lease (· + 1)).ring
  | _ => rfl

/-! ## Tasks that are given up -/

/-- Giving a task up takes its works, and leaves those of the others. -/
theorem works_abandon (b : Balancer α) (t x : TaskId) : (b.abandon t).works x = if x = t then [] else b.works x := by
  rw [abandon, works_withWorks_nil]
  split
  · rfl
  · exact works_congr (tasks_foldl_dropWork t (b.works t) b) x

theorem leaves_abandon (b : Balancer α) (t : TaskId) : Leaves b (b.abandon t) t [] [] := leaves_nil_iff.2 (works_abandon b t)

/-- Giving a work up leaves the feed alone, unless the work stands at the resolver's gate or at a mailbox. -/
theorem feed_dropWork (t : TaskId) (b : Balancer α) {w : Work α} (hw : w.isAwaited = false) : (dropWork t b w).feed = b.feed := by
  cases w with
  | resolution phase => cases hw
  | send box endpoints => cases hw
  | deliver started deadline token parcels => exact (frame_foldl_dropParcel parcels b).feed
  | exportLeased lease batch wake =>
    obtain ⟨c, heq, hframe⟩ := frame_dropWork_exportLeased t b lease batch wake
    rw [heq, (resettles_useLease c lease (· - 1)).feed, hframe.feed]
  | _ => rfl

/-- Giving a task up leaves the feed alone, unless it stands at the resolver's gate or at a mailbox. -/
theorem feed_abandon (b : Balancer α) {t : TaskId} (hw : ∀ w ∈ b.works t, w.isAwaited = false) : (b.abandon t).feed = b.feed :=
  foldl_dropWork_congr Balancer.feed (fun w hmem c => feed_dropWork t c (hw w hmem)) b

/-! ## All actions -/

/-- What an action does, as discovery sees it. -/
inductive Turn (b : Balancer α) : Action α → Balancer α → Prop
  | inert {t : TaskId} {way : Nat} {w : Work α} {rest ws started : List (Work α)} {b' : Balancer α}
    (works : b.works t = w :: rest) (rest_inert : ∀ x ∈ rest, x.isInert = true) (moves : b.move t way = some b')
    (step : InertStep b t rest way w ws started b') (core : b'.core = b.core) : Turn b (.move t way) b'
  | pass {t : TaskId} {way : Nat} {p : Pass} {rest : List (Work α)} {b' : Balancer α} (works : b.works t = .pass p :: rest)
    (rest_inert : ∀ x ∈ rest, x.isInert = true) (step : PassStep b t rest p b') : Turn b (.move t way) b'
  | exports {t : TaskId} {way : Nat} {w : Work α} {rest ws : List (Work α)} {b' : Balancer α} (works : b.works t = w :: rest)
    (duty : w.isInert = false) (noPass : ∀ p, w ≠ .pass p) (rest_inert : ∀ x ∈ rest, x.isInert = true)
    (exporting : Exporting b b' t rest ws) : Turn b (.move t way) b'
  | request {r : Request α} (allowed : b.allows r = true) : Turn b (.request r) (b.request r).1
  | abandon {t : TaskId} : Turn b (.abandon t) (b.abandon t)
  | answer {answers : List SourceAnswer} : Turn b (.answer answers) (b.extendScript answers)
  | unsubscribe : Turn b .unsubscribe b.unsubscribe
  | openInbox {capacity : Nat} : Turn b (.openInbox capacity) (b.openInbox capacity).1
  | keepInboxes {keep : List MailboxId} : Turn b (.keepInboxes keep) (b.keepInboxes keep)
  | receive {box : Option MailboxId} : Turn b (.receive box) (b.receive box).2.2
  | still {a : Action α} {b' : Balancer α} (blocked : ∀ t way, a = .move t way → b.move t way = none)
    (works : ∀ x, b'.works x = b.works x) (feed : b'.feed = b.feed) (ring : b'.ring = b.ring) : Turn b a b'

theorem turn_move (hb : b.Grounded) (t : TaskId) (way : Nat) : Turn b (.move t way) ((b.move t way).getD b) := by
  rcases hmove : b.move t way with _ | b'
  · refine .still (fun t' way' heq => ?_) (fun _ => rfl) rfl rfl
    injection heq with ht hway
    rw [← ht, ← hway, hmove]
  have hmoves := hmove
  rw [move] at hmove
  rcases hw : b.works t with _ | ⟨w, rest⟩
  · rw [hw] at hmove
    cases hmove
  rw [hw] at hmove
  have hrest : ∀ x ∈ rest, x.isInert = true := fun x hx => hb.tidy t x (by rw [hw]; exact hx)
  have hgrounded : w.isInert = false → w.IsGrounded b := fun hi => hb.duties t w (duty?_of_works hw hi)
  rcases hi : w.isInert with _ | _
  · cases w with
    | pass p => exact .pass hw hrest (stepPass_cases (hgrounded hi) hmove)
    | deliver started deadline token parcels =>
      obtain ⟨ws, hexporting⟩ := (stepDeliver_cases (hgrounded hi) hmove).exporting hw
      exact .exports hw hi (fun _ h => by cases h) hrest hexporting
    | exportLeased lease batch wake =>
      obtain ⟨held, entry, _, _, hstep⟩ := stepExportLeased_cases hb hmove
      obtain ⟨ws, hexporting⟩ := hstep.exporting hw
      exact .exports hw hi (fun _ h => by cases h) hrest hexporting
    | _ => cases hi
  · obtain ⟨ws, started, hstep⟩ := step_cases hi hmove
    exact .inert hw hrest hmoves hstep (calm_step (lt_of_works hw) hi hrest hmove).core

theorem turn_perform (hb : b.Grounded) (a : Action α) : Turn b a (b.perform a) := by
  cases a with
  | move t way => exact turn_move hb t way
  | request r =>
    rw [perform]
    split
    · rename_i hallowed
      exact .request hallowed
    · exact .still (fun _ _ h => by cases h) (fun _ => rfl) rfl rfl
  | abandon t => exact .abandon
  | advance tick => exact .still (fun _ _ h => by cases h) (fun _ => rfl) rfl rfl
  | lease e name =>
    rw [perform]
    rcases h : b.leaseAs e name with _ | b'
    · exact .still (fun _ _ h => by cases h) (fun _ => rfl) rfl rfl
    · obtain ⟨_, _, _, d, _, _, hframe, _, _, hresettles, rfl⟩ := leaseAs_spec h
      exact .still (fun _ _ h => by cases h) (works_congr (hresettles.tasks.trans hframe.tasks))
        (hresettles.feed.trans hframe.feed) (hresettles.ring.trans hframe.ring)
  | dropLease name =>
    have hresettles := resettles_dropName b name
    exact .still (fun _ _ h => by cases h) (works_congr hresettles.tasks) hresettles.feed hresettles.ring
  | notify id =>
    have hframe := (b.notify_spec id).1
    exact .still (fun _ _ h => by cases h) (works_congr hframe.tasks) hframe.feed hframe.ring
  | cancel token => exact .still (fun _ _ h => by cases h) (fun _ => rfl) rfl rfl
  | behave address behaviour => exact .still (fun _ _ h => by cases h) (fun _ => rfl) rfl rfl
  | answer answers => exact .answer
  | unsubscribe => exact .unsubscribe
  | openInbox capacity => exact .openInbox
  | keepInboxes keep => exact .keepInboxes
  | receive box => exact .receive

end Turns

end Balancer

theorem Run.turn (r : Run α) (n : Nat) : Balancer.Turn (r.state n) (r.action n) (r.state (n + 1)) :=
  Balancer.turn_perform (r.grounded n) (r.action n)

end TelemetryRouter
