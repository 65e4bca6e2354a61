import TelemetryRouter.Proofs.Exports
import TelemetryRouter.Proofs.InertSteps

/-!
# Runs

What happens to a balancer is a sequence of actions: moves of tasks in any order, requests from outside, giving tasks up, and time
that passes. A move that is blocked changes nothing, so every sequence of actions is a run, and every interleaving of what the
tasks do is among them. The notice that is owed for the last lease of an exporter is left by an action of its own, at any time after the
lease was counted down.

The changes of one action come in few kinds. Most of them leave the pool alone; the others are a step of a pass, of a delivery or
of an export, a lease taken or dropped from outside, a notice, and giving up a task with a duty.
-/

namespace TelemetryRouter

variable {α : Type}

/-- One thing that happens to a balancer. -/
inductive Action (α : Type) where
  /-- A task moves in one of its ways, if that is open. -/
  | move (t : TaskId) (way : Nat)
  /-- A request starts a task. -/
  | request (r : Request α)
  /-- A task is given up. -/
  | abandon (t : TaskId)
  /-- Time passes, up to a tick. -/
  | advance (tick : Nat)
  /-- The running exporter of an endpoint, if there is one, is leased under a name. -/
  | lease (e : Endpoint) (name : String)
  /-- The lease under a name is dropped. -/
  | dropLease (name : String)
  /-- A notice that is owed for an exporter is left. -/
  | notify (id : ExporterId)
  /-- A cancellation token fires. -/
  | cancel (token : String)
  /-- The exporters of an address behave in another way. -/
  | behave (address : String) (behaviour : Behaviour)
  /-- The source of the resolver has more answers. -/
  | answer (answers : List SourceAnswer)
  /-- The resolver loses its subscriber. -/
  | unsubscribe
  /-- A mailbox is opened that is read from outside. -/
  | openInbox (capacity : Nat)
  /-- All mailboxes that are read from outside are closed but some. -/
  | keepInboxes (keep : List MailboxId)
  /-- A mailbox is emptied from outside. -/
  | receive (box : Option MailboxId)

namespace Balancer

/-- Whether a lease is held from outside and was not given back. -/
def isHeld (b : Balancer α) (lease : LeaseId) : Bool := (b.leases[lease]?).any (fun l => !l.returned)

/-- Whether a request can be made: nobody can export through a lease that was given back. -/
def allows (b : Balancer α) : Request α → Bool
  | .exportLeased lease _ => b.isHeld lease
  | _ => true

/-- What an action makes of a balancer. -/
def perform (b : Balancer α) : Action α → Balancer α
  | .move t way => (b.move t way).getD b
  | .request r => if b.allows r then (b.request r).1 else b
  | .abandon t => b.abandon t
  | .advance tick => b.advanceTo tick
  | .lease e name => match b.leaseAs e name with
    | .ok b => b
    | .error _ => b
  | .dropLease name => b.dropName name
  | .notify id => b.notify id
  | .cancel token => b.cancel token
  | .behave address behaviour => b.changeBehaviour address (fun _ => behaviour)
  | .answer answers => b.extendScript answers
  | .unsubscribe => b.unsubscribe
  | .openInbox capacity => (b.openInbox capacity).1
  | .keepInboxes keep => b.keepInboxes keep
  | .receive box => (b.receive box).2.2

end Balancer

/-- A balancer before anything happened, and what happens to it. -/
structure Run (α : Type) where
  options : BalancerOptions
  adapter : Adapter α
  resolver : Resolver
  backends : Backends
  action : Nat → Action α

namespace Run

/-- The balancer after so many actions. -/
def state (r : Run α) : Nat → Balancer α
  | 0 => Balancer.new r.options r.adapter r.resolver r.backends
  | n + 1 => (r.state n).perform (r.action n)

/-- Whether something happens to an exporter in a step. -/
def Says (r : Run α) (id : ExporterId) (n : Nat) (what : Occurrence) : Prop :=
  ∃ said, (r.state (n + 1)).history id = (r.state n).history id ++ said ∧ what ∈ said

/-- What holds at the start and is kept by the actions of a run holds all along. -/
theorem invariant {P : Balancer α → Prop} (r : Run α)
    (start : P (Balancer.new r.options r.adapter r.resolver r.backends))
    (step : ∀ n, P (r.state n) → P ((r.state n).perform (r.action n))) : ∀ n, P (r.state n)
  | 0 => start
  | n + 1 => step n (r.invariant start step n)

end Run

namespace Balancer

/-! ## Undisturbed states -/

namespace Undisturbed

variable {b b' b'' : Balancer α}

theorem trans (h : Undisturbed b b') (h' : Undisturbed b' b'') : Undisturbed b b'' where
  core := h'.core.trans h.core
  grows := Nat.le_trans h.grows h'.grows
  duty := fun t => by
    rcases h.duty t with hd | ⟨hnone, w, hw, hfresh⟩
    · rcases h'.duty t with hd' | ⟨hnone', w, hw, hfresh⟩
      · exact .inl (hd'.trans hd)
      · exact .inr ⟨hd ▸ hnone', w, hw, hfresh⟩
    · rcases h'.duty t with hd' | ⟨hnone', _, _, _⟩
      · exact .inr ⟨hnone, w, hd'.trans hw, hfresh⟩
      · rw [hw] at hnone'
        cases hnone'
  tidy := fun hb => h'.tidy (h.tidy hb)

/-- Every task has the works it had, and so is what passes, exports and leases are about. -/
theorem of_works (hc : b'.core = b.core) (hl : b.tasks.length ≤ b'.tasks.length) (hw : ∀ t, b'.works t = b.works t) :
    Undisturbed b b' :=
  ⟨hc, hl, fun t => .inl (duty?_congr (hw t)), fun hb t w h => hb t w (by rw [hw] at h; exact h)⟩

/-- The tasks are as before, and so is what passes, exports and leases are about. -/
theorem of_eq (hc : b'.core = b.core) (hts : b'.tasks = b.tasks) : Undisturbed b b' :=
  of_works hc (Nat.le_of_eq (congrArg List.length hts.symm)) (works_congr hts)

theorem refl (b : Balancer α) : Undisturbed b b := of_eq rfl rfl

end Undisturbed

/-! ## Requests -/

theorem undisturbed_spawn_nil (b : Balancer α) : Undisturbed b (b.spawn []) := by
  refine .of_works rfl ?_ (fun t => ?_)
  · rw [spawn, List.length_append]
    exact Nat.le_add_right _ _
  · by_cases hlt : t < b.tasks.length
    · rw [works, works, task?, task?, spawn, List.getElem?_append_left hlt]
    · rw [works_of_le (Nat.le_of_not_lt hlt), works, task?, spawn, List.getElem?_append_right (Nat.le_of_not_lt hlt)]
      rcases t - b.tasks.length with _ | n <;> rfl

theorem nextTask_lt_spawn (b : Balancer α) : b.nextTask < (b.spawn []).tasks.length := by
  rw [nextTask, spawn, List.length_append]
  exact Nat.lt_succ_self _

theorem duty?_nextTask (b : Balancer α) : (b.spawn []).duty? b.nextTask = none := by
  refine duty?_eq_none (fun w hw => ?_)
  rw [works, task?, spawn, nextTask, List.getElem?_append_right (Nat.le_refl _), Nat.sub_self] at hw
  cases hw

/-- Beginning a request is calm, unless it is an export through a lease. -/
theorem calm_begin {b : Balancer α} {t : TaskId} (ht : t < b.tasks.length) {r : Request α}
    (hr : ∀ lease batch, r ≠ .exportLeased lease batch) : Calm b (b.begin t r) t := by
  have hnil : ∀ w ∈ ([] : List (Work α)), w.isInert = true := List.forall_mem_nil _
  cases r with
  | start => exact .of_withWorks ht rfl rfl trivial hnil
  | shutdown =>
    refine .of_withWorks ht rfl rfl trivial (fun w hw => ?_)
    simp only [List.mem_cons, List.not_mem_nil, or_false] at hw
    rcases hw with rfl | rfl | rfl <;> rfl
  | update endpoints => exact calm_beginPass ht rfl rfl (isFresh_applyPass b endpoints) hnil
  | reconcile endpoints => exact calm_beginPass ht rfl rfl (Pass.isFresh_of endpoints) hnil
  | reconcileToRing => exact calm_beginPass ht rfl rfl Pass.isFresh_refresh hnil
  | retireAll => exact calm_beginPass ht rfl rfl (Pass.isFresh_of []) hnil
  | resolve => exact calm_beginResolution ht hnil
  | startResolver box => exact .of_withWorks ht rfl rfl trivial hnil
  | stopResolver => exact .of_withWorks ht rfl rfl trivial hnil
  | push endpoints => exact .of_withWorks ht rfl rfl trivial hnil
  | dispatch batch context => exact .of_withWorks ht rfl rfl trivial hnil
  | exportLeased lease batch => exact absurd rfl (hr lease batch)
  | pause milliseconds => exact .of_withWorks ht rfl rfl trivial hnil

/-! ## The kinds of change -/

/-- What an action does to the pool, by kind. The works under a duty are inert. -/
inductive Change (b : Balancer α) : Action α → Balancer α → Prop
  | calm {a : Action α} {b' : Balancer α} (undisturbed : Undisturbed b b') : Change b a b'
  | advance {tick : Nat} : Change b (.advance tick) (b.advanceTo tick)
  | pass {t : TaskId} {way : Nat} {p : Pass} {rest : List (Work α)} {b' : Balancer α} (works : b.works t = .pass p :: rest)
    (inert : ∀ w ∈ rest, w.isInert = true) (step : b.stepPass t rest p way = some b') : Change b (.move t way) b'
  | deliver {t : TaskId} {way started : Nat} {deadline : Option Instant} {token : Option String} {parcels : List (Parcel α)}
    {rest : List (Work α)} {b' : Balancer α} (works : b.works t = .deliver started deadline token parcels :: rest)
    (inert : ∀ w ∈ rest, w.isInert = true) (step : b.stepDeliver t rest started deadline token parcels way = some b') :
    Change b (.move t way) b'
  | exportLeased {t : TaskId} {way : Nat} {lease : LeaseId} {batch : Batch α} {wake : Option Nat} {rest : List (Work α)}
    {b' : Balancer α} (works : b.works t = .exportLeased lease batch wake :: rest) (inert : ∀ w ∈ rest, w.isInert = true)
    (step : b.stepExportLeased t rest lease batch wake = some b') : Change b (.move t way) b'
  | use {lease : LeaseId} {batch : Batch α} (held : b.isHeld lease = true) :
    Change b (.request (.exportLeased lease batch)) (b.request (.exportLeased lease batch)).1
  | lease {e : Endpoint} {name : String} {b' : Balancer α} (taken : b.leaseAs e name = .ok b') : Change b (.lease e name) b'
  | dropLease {name : String} : Change b (.dropLease name) (b.dropName name)
  | notify {id : ExporterId} : Change b (.notify id) (b.notify id)
  | abandon {t : TaskId} {w : Work α} {rest : List (Work α)} {b' : Balancer α} (works : b.works t = w :: rest)
    (duty : w.isInert = false) (undisturbed : Undisturbed ((dropWork t b w).withWorks t []) b') : Change b (.abandon t) b'

/-- Giving up inert works changes the resolver and the mailboxes at most. -/
theorem undisturbed_foldl_dropWork (t : TaskId) (ws : List (Work α)) (hws : ∀ w ∈ ws, w.isInert = true) (b : Balancer α) :
    (ws.foldl (dropWork t) b).core = b.core ∧ (ws.foldl (dropWork t) b).tasks = b.tasks := by
  induction ws generalizing b with
  | nil => exact ⟨rfl, rfl⟩
  | cons w ws ih =>
    have hw : (dropWork t b w).core = b.core ∧ (dropWork t b w).tasks = b.tasks := by
      have hi : w.isInert = true := hws w List.mem_cons_self
      unfold dropWork
      cases w with
      | resolution phase => cases phase <;> exact ⟨rfl, rfl⟩
      | pass p => cases hi
      | deliver started deadline token parcels => cases hi
      | exportLeased lease batch wake => cases hi
      | _ => exact ⟨rfl, rfl⟩
    obtain ⟨hc, hts⟩ := ih (fun x hx => hws x (List.mem_cons_of_mem _ hx)) (dropWork t b w)
    exact ⟨hc.trans hw.1, hts.trans hw.2⟩

/-- Taking the works from a task leaves the others theirs. -/
theorem works_withWorks_nil (b : Balancer α) (t t' : TaskId) :
    (b.withWorks t []).works t' = if t' = t then [] else b.works t' := by
  by_cases hlt : t < b.tasks.length
  · have hr : Reworks b (b.withWorks t []) t [] := reworks_withWorks hlt rfl
    split
    · rename_i heq
      rw [heq, hr.self]
    · rename_i hne
      by_cases hlt' : t' < b.tasks.length
      · exact hr.works_of_ne hne hlt'
      · have hlen : (b.withWorks t []).tasks.length = b.tasks.length := List.length_modify _ _ _
        rw [works_of_le (Nat.le_of_not_lt hlt'), works_of_le (hlen ▸ Nat.le_of_not_lt hlt')]
  · have hsame : (b.withWorks t []).tasks = b.tasks := by
      rw [withWorks]
      exact List.modify_eq_self (Nat.le_of_not_lt hlt)
    rw [works_congr hsame]
    split
    · rename_i heq
      rw [heq, works_of_le (Nat.le_of_not_lt hlt)]
    · rfl

/-- Taking the works from a task without a duty leaves the pool alone. -/
theorem undisturbed_withWorks_nil {b c : Balancer α} {t : TaskId} (hd : b.duty? t = none) (hc : c.core = b.core)
    (hts : c.tasks = b.tasks) : Undisturbed b (c.withWorks t []) where
  core := hc
  grows := Nat.le_of_eq (by rw [withWorks, List.length_modify, hts])
  duty := fun t' => by
    refine .inl ?_
    by_cases heq : t' = t
    · subst heq
      rw [hd]
      exact duty?_eq_none (fun w hw => by rw [works_withWorks_nil, if_pos rfl] at hw; cases hw)
    · exact duty?_congr (by rw [works_withWorks_nil, if_neg heq, works_congr hts])
  tidy := fun hb t' w hw => by
    rw [works_withWorks_nil] at hw
    split at hw
    · cases hw
    · exact hb t' w (by rw [works_congr hts] at hw; exact hw)

theorem change_abandon {b : Balancer α} (hb : b.Tidy) (t : TaskId) : Change b (.abandon t) (b.abandon t) := by
  rw [abandon]
  by_cases hall : ∀ w ∈ b.works t, w.isInert = true
  · obtain ⟨hc, hts⟩ := undisturbed_foldl_dropWork t (b.works t) hall b
    exact .calm (undisturbed_withWorks_nil (duty?_eq_none hall) hc hts)
  · rcases hw : b.works t with _ | ⟨w, rest⟩
    · exact absurd (fun w hmem => by rw [hw] at hmem; cases hmem) hall
    have hrest : ∀ x ∈ rest, x.isInert = true := fun x hx => hb t x (by rw [hw]; exact hx)
    have hduty : w.isInert = false := by
      refine Bool.eq_false_iff.2 (fun hi => hall (fun x hx => ?_))
      rw [hw] at hx
      rcases List.mem_cons.1 hx with rfl | hx
      · exact hi
      · exact hrest x hx
    obtain ⟨hc, hts⟩ := undisturbed_foldl_dropWork t rest hrest (dropWork t b w)
    refine .abandon hw hduty (.of_eq hc ?_)
    rw [List.foldl_cons, withWorks, withWorks, hts]

/-- A move is calm if its work is inert, and otherwise a step of a duty. -/
theorem change_move {b : Balancer α} (hb : b.Tidy) (t : TaskId) (way : Nat) :
    Change b (.move t way) ((b.move t way).getD b) := by
  rcases hmove : b.move t way with _ | b'
  · exact .calm (.refl b)
  rw [move] at hmove
  rcases hw : b.works t with _ | ⟨w, rest⟩
  · rw [hw] at hmove
    cases hmove
  rw [hw] at hmove
  have hrest : ∀ x ∈ rest, x.isInert = true := fun x hx => hb t x (by rw [hw]; exact hx)
  rcases hi : w.isInert with _ | _
  · cases w with
    | pass p => exact .pass hw hrest hmove
    | deliver started deadline token parcels => exact .deliver hw hrest hmove
    | exportLeased lease batch wake => exact .exportLeased hw hrest hmove
    | _ => cases hi
  · have hall : ∀ x ∈ b.works t, x.isInert = true := fun x hx => by
      rw [hw] at hx
      rcases List.mem_cons.1 hx with rfl | hx
      · exact hi
      · exact hrest x hx
    exact .calm ((calm_step (lt_of_works hw) hi hrest hmove).undisturbed (duty?_eq_none hall))

/-- A request is calm, unless it is an export through a lease. -/
theorem change_request (b : Balancer α) (r : Request α) :
    Change b (.request r) (if b.allows r then (b.request r).1 else b) := by
  by_cases hr : ∃ lease batch, r = .exportLeased lease batch
  · obtain ⟨lease, batch, rfl⟩ := hr
    split
    · rename_i hheld
      exact .use hheld
    · exact .calm (.refl b)
  · have hr' : ∀ lease batch, r ≠ .exportLeased lease batch := fun lease batch h => hr ⟨lease, batch, h⟩
    split
    · exact .calm ((undisturbed_spawn_nil b).trans ((calm_begin (nextTask_lt_spawn b) hr').undisturbed (duty?_nextTask b)))
    · exact .calm (.refl b)

theorem change_perform {b : Balancer α} (hb : b.Tidy) (a : Action α) : Change b a (b.perform a) := by
  cases a with
  | move t way => exact change_move hb t way
  | request r => exact change_request b r
  | abandon t => exact change_abandon hb t
  | advance tick => exact .advance
  | lease e name =>
    rcases h : b.leaseAs e name with _ | b'
    · rw [perform, h]
      exact .calm (.refl b)
    · rw [perform, h]
      exact .lease h
  | dropLease name => exact .dropLease
  | notify id => exact .notify
  | cancel token => exact .calm (.of_eq rfl rfl)
  | behave address behaviour => exact .calm (.of_eq rfl rfl)
  | answer answers => exact .calm (.of_eq rfl rfl)
  | unsubscribe => exact .calm (.of_eq rfl rfl)
  | openInbox capacity => exact .calm (.of_eq rfl rfl)
  | keepInboxes keep => exact .calm (.of_eq rfl rfl)
  | receive box => cases box <;> exact .calm (.of_eq rfl rfl)

end Balancer

/-! ## Runs that are written down -/

/-- Whether an action gives no task up. -/
def Action.keepsTasks : Action α → Bool
  | .abandon _ => false
  | _ => true

/-- Whether an action does not ask for a pass with a list of its own that is not applied to the ring as well. -/
def Action.keepsAligned : Action α → Bool
  | .request (.reconcile _) => false
  | .request .retireAll => false
  | _ => true

/-- A run of a balancer with such exporters whose resolver knows nothing: these things happen in the steps with these numbers, and in all
the others the given task makes a move. -/
def Run.ofScript (backends : Backends) (script : List (Nat × Action Unit)) (mover : Nat → TaskId) : Run Unit where
  options := ⟨⟨1, .ofSeconds 30, .ofSeconds 30⟩, none, none⟩
  adapter := ⟨.logs, fun _ _ => none⟩
  resolver := .new .fixed []
  backends := backends
  action := fun n => (script.lookup n).getD (.move (mover n) 0)

theorem Run.mem_of_ofScript {backends : Backends} {script : List (Nat × Action Unit)} {mover : Nat → TaskId} {n : Nat}
    (hne : ∀ t way, (ofScript backends script mover).action n ≠ .move t way) :
    (n, (ofScript backends script mover).action n) ∈ script := by
  rcases hlookup : script.lookup n with _ | a
  · exact absurd (congrArg (Option.getD · _) hlookup) (hne _ _)
  · obtain ⟨before, after, heq, -⟩ := List.lookup_eq_some_iff.1 hlookup
    have haction : (ofScript backends script mover).action n = a := congrArg (Option.getD · _) hlookup
    rw [haction, heq]
    exact List.mem_append_right _ List.mem_cons_self

end TelemetryRouter
