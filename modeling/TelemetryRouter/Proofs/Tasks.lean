import TelemetryRouter.Balancer.Requests

/-!
# What a step does to the tasks

Most works have no part in the pool: they only move tasks, lists and mailboxes about. Such a work is inert. A work that is not
inert is always on top of its task's stack, and it is the task's duty. A step of an inert work leaves everything alone that
passes, exports and leases are about, and at most gives its task a fresh duty: a pass that waits at the gate, or a delivery of
which nothing has begun.
-/

namespace TelemetryRouter

variable {α : Type}

/-- Whether a ring is the ring of some list. -/
def Ring.IsBuilt (ring : Ring) : Prop := ∃ (endpoints : List Endpoint) (virtualNodes : Nat), ring = Ring.build endpoints virtualNodes

/-- A pass on its way to the gate. The ring it brings, if any, is the ring of a list. -/
def Pass.IsFresh (p : Pass) : Prop := p.phase = .queued ∧ ∀ ring ∈ p.publish, ring.IsBuilt

namespace Work

/-- Whether a work is no pass, holds no lease and uses none. -/
def isInert : Work α → Bool
  | .pass _ => false
  | .deliver _ _ _ _ => false
  | .exportLeased _ _ _ => false
  | _ => true

/-- Whether a work has done nothing to the pool yet. -/
def IsFresh : Work α → Prop
  | .pass p => p.IsFresh
  | .deliver _ _ _ parcels => ∀ p ∈ parcels, p.phase = .pending
  | .exportLeased _ _ _ => False
  | _ => True

theorem isFresh_of_isInert {w : Work α} (h : w.isInert = true) : w.IsFresh := by
  cases w <;> trivial

end Work

namespace Balancer

/-! ## The works of the tasks -/

theorem lt_of_works {b : Balancer α} {t : TaskId} {w : Work α} {rest : List (Work α)} (h : b.works t = w :: rest) :
    t < b.tasks.length := by
  refine Nat.lt_of_not_le (fun hle => ?_)
  rw [works, task?, List.getElem?_eq_none hle] at h
  cases h

theorem works_of_le {b : Balancer α} {t : TaskId} (h : b.tasks.length ≤ t) : b.works t = [] := by
  rw [works, task?, List.getElem?_eq_none h]
  rfl

theorem works_congr {b b' : Balancer α} (h : b'.tasks = b.tasks) (t : TaskId) : b'.works t = b.works t := by
  rw [works, works, task?, task?, h]

/-- One task has other works; the tasks there were besides are as before, and new tasks have inert works. -/
structure Reworks (b b' : Balancer α) (t : TaskId) (works : List (Work α)) : Prop where
  self : b'.works t = works
  other : ∀ t', t' ≠ t → t' < b.tasks.length → b'.task? t' = b.task? t'
  new : ∀ t', t' ≠ t → b.tasks.length ≤ t' → ∀ w ∈ b'.works t', w.isInert = true
  grows : b.tasks.length ≤ b'.tasks.length

theorem Reworks.works_of_ne {b b' : Balancer α} {t : TaskId} {ws : List (Work α)} (h : Reworks b b' t ws) {t' : TaskId}
    (hne : t' ≠ t) (hlt : t' < b.tasks.length) : b'.works t' = b.works t' := by
  rw [works, works, h.other t' hne hlt]

theorem Reworks.of_modify {b b' : Balancer α} {t : TaskId} {ws : List (Work α)} (ht : t < b.tasks.length)
    (f : Task α → Task α) (hf : ∀ task, (f task).works = ws) (h : b'.tasks = b.tasks.modify t f) : Reworks b b' t ws := by
  have hw : ∀ t', b'.works t' = (((b.tasks.modify t f)[t']?).map Task.works).getD [] := fun t' => by rw [works, task?, h]
  refine ⟨?_, ?_, ?_, ?_⟩
  · rw [hw t, List.getElem?_modify_eq, List.getElem?_eq_getElem ht]
    exact hf _
  · intro t' hne _
    rw [task?, task?, h, List.getElem?_modify_ne f _ (Ne.symm hne)]
  · intro t' hne hle w hmem
    rw [hw t', List.getElem?_modify_ne f _ (Ne.symm hne), List.getElem?_eq_none hle] at hmem
    cases hmem
  · exact Nat.le_of_eq (by rw [h, List.length_modify])

/-- Changing one task and starting another with inert works gives the first other works. -/
theorem Reworks.of_spawn_modify {b b' : Balancer α} {t : TaskId} {ws : List (Work α)} (ht : t < b.tasks.length)
    (started : Task α) (hs : ∀ w ∈ started.works, w.isInert = true) (f : Task α → Task α) (hf : ∀ task, (f task).works = ws)
    (h : b'.tasks = (b.tasks ++ [started]).modify t f) : Reworks b b' t ws := by
  have hw : ∀ t', b'.works t' = ((((b.tasks ++ [started]).modify t f)[t']?).map Task.works).getD [] :=
    fun t' => by rw [works, task?, h]
  refine ⟨?_, ?_, ?_, ?_⟩
  · rw [hw t, List.getElem?_modify_eq, List.getElem?_append_left ht, List.getElem?_eq_getElem ht]
    exact hf _
  · intro t' hne hlt
    rw [task?, task?, h, List.getElem?_modify_ne f _ (Ne.symm hne), List.getElem?_append_left hlt]
  · intro t' hne hle w hmem
    rw [hw t', List.getElem?_modify_ne f _ (Ne.symm hne), List.getElem?_append_right hle] at hmem
    rcases hi : [started][t' - b.tasks.length]? with _ | task
    · rw [hi] at hmem
      cases hmem
    · rw [hi] at hmem
      have htask : task = started := List.mem_singleton.1 (List.mem_of_getElem? hi)
      subst htask
      exact hs w hmem
  · rw [h, List.length_modify, List.length_append]
    exact Nat.le_add_right _ _

theorem reworks_withWorks {b b' : Balancer α} {t : TaskId} {ws : List (Work α)} (ht : t < b.tasks.length)
    (h : b'.tasks = b.tasks) : Reworks b (b'.withWorks t ws) t ws :=
  .of_modify ht (fun task => { task with works := ws }) (fun _ => rfl) (by rw [withWorks, h])

theorem reworks_finish {b b' : Balancer α} {t : TaskId} {rest : List (Work α)} {outcome : Outcome α}
    (ht : t < b.tasks.length) (h : b'.tasks = b.tasks) : Reworks b (b'.finish t rest outcome) t rest :=
  .of_modify ht (fun _ => ⟨rest, outcome⟩) (fun _ => rfl) (by rw [finish, h])

/-! ## Duties -/

/-- What a task has to do with the pool, if anything: its topmost work, unless that is inert. -/
def duty? (b : Balancer α) (t : TaskId) : Option (Work α) := (b.works t).head?.filter (fun w => !w.isInert)

/-- Whether only topmost works are other than inert. -/
def Tidy (b : Balancer α) : Prop := ∀ (t : TaskId), ∀ w ∈ (b.works t).tail, w.isInert = true

theorem duty?_of_works {b : Balancer α} {t : TaskId} {w : Work α} {rest : List (Work α)} (h : b.works t = w :: rest)
    (hw : w.isInert = false) : b.duty? t = some w := by
  rw [duty?, h, List.head?_cons, Option.filter_some, hw]
  rfl

theorem duty?_eq_none {b : Balancer α} {t : TaskId} (h : ∀ w ∈ b.works t, w.isInert = true) : b.duty? t = none := by
  rw [duty?]
  rcases hw : b.works t with _ | ⟨w, rest⟩
  · rfl
  · have hi : w.isInert = true := h w (by rw [hw]; exact List.mem_cons_self)
    rw [List.head?_cons, Option.filter_some, hi]
    rfl

theorem duty?_of_le {b : Balancer α} {t : TaskId} (h : b.tasks.length ≤ t) : b.duty? t = none :=
  duty?_eq_none (fun w hw => by rw [works_of_le h] at hw; cases hw)

theorem pass_eq_of_duty? {b : Balancer α} {t : TaskId} {p q : Pass} (h : b.duty? t = some (.pass p))
    (h' : b.duty? t = some (.pass q)) : q = p :=
  Work.pass.inj (Option.some.inj (h'.symm.trans h))

/-- A duty is the topmost work of its task and not inert. -/
theorem works_of_duty? {b : Balancer α} {t : TaskId} {w : Work α} (h : b.duty? t = some w) :
    ∃ rest, b.works t = w :: rest ∧ w.isInert = false := by
  rw [duty?] at h
  rcases hw : b.works t with _ | ⟨w', rest⟩
  · rw [hw] at h
    cases h
  · rw [hw, List.head?_cons, Option.filter_eq_some_iff] at h
    obtain ⟨hw', hi⟩ := h
    injection hw' with hw'
    subst hw'
    exact ⟨rest, rfl, by simpa using hi⟩

theorem duty?_congr {b b' : Balancer α} {t : TaskId} (h : b'.works t = b.works t) : b'.duty? t = b.duty? t := by
  rw [duty?, duty?, h]

namespace Reworks

variable {b b' : Balancer α} {t : TaskId} {ws : List (Work α)}

theorem duty?_of_ne (h : Reworks b b' t ws) {t' : TaskId} (hne : t' ≠ t) : b'.duty? t' = b.duty? t' := by
  by_cases hlt : t' < b.tasks.length
  · exact duty?_congr (h.works_of_ne hne hlt)
  · rw [duty?_of_le (Nat.le_of_not_lt hlt)]
    exact duty?_eq_none (h.new t' hne (Nat.le_of_not_lt hlt))

/-- The duty of the task is the first of its new works, if that is not inert. -/
theorem duty?_cons {w : Work α} {rest : List (Work α)} (h : Reworks b b' t (w :: rest)) (hw : w.isInert = false) :
    b'.duty? t = some w :=
  duty?_of_works h.self hw

theorem duty?_inert (h : Reworks b b' t ws) (hws : ∀ w ∈ ws, w.isInert = true) : b'.duty? t = none :=
  duty?_eq_none (fun w hw => hws w (by rw [h.self] at hw; exact hw))

theorem tidy (h : Reworks b b' t ws) (hb : b.Tidy) (hws : ∀ w ∈ ws.tail, w.isInert = true) : b'.Tidy := by
  intro t' w hw
  by_cases hne : t' = t
  · subst hne
    rw [h.self] at hw
    exact hws w hw
  by_cases hlt : t' < b.tasks.length
  · rw [h.works_of_ne hne hlt] at hw
    exact hb t' w hw
  · exact h.new t' hne (Nat.le_of_not_lt hlt) w (List.mem_of_mem_tail hw)

end Reworks

/-! ## The part of the state that passes, exports and leases are about -/

/-- What only passes, exports and leases change, and the settings and the clock. -/
structure Core (α : Type) where
  options : BalancerOptions
  adapter : Adapter α
  now : Nat
  ring : Ring
  made : List Entry
  current : List (Endpoint × ExporterId)
  inside : Option TaskId
  leases : List HeldLease
  events : List Event

/-- That part of a balancer. -/
def core (b : Balancer α) : Core α :=
  { options := b.options
    adapter := b.adapter
    now := b.now
    ring := b.ring
    made := b.pool.made
    current := b.pool.current
    inside := b.pool.gate.inside
    leases := b.leases
    events := b.events }

/-- Nothing that passes, exports and leases are about has changed, except that tasks without a duty may have got a fresh one. -/
structure Undisturbed (b b' : Balancer α) : Prop where
  core : b'.core = b.core
  grows : b.tasks.length ≤ b'.tasks.length
  duty : ∀ (t : TaskId), b'.duty? t = b.duty? t ∨ (b.duty? t = none ∧ ∃ w, b'.duty? t = some w ∧ w.IsFresh)
  tidy : b.Tidy → b'.Tidy

/-- A task goes on to other works, of which only the first may be other than inert, and that one fresh. Nothing else changes that
passes, exports and leases are about. -/
structure Calm (b b' : Balancer α) (t : TaskId) : Prop where
  core : b'.core = b.core
  works : ∃ ws, Reworks b b' t ws ∧ (∀ w ∈ ws.head?, w.IsFresh) ∧ ∀ w ∈ ws.tail, w.isInert = true

namespace Calm

variable {b b' : Balancer α} {t : TaskId}

theorem undisturbed (h : Calm b b' t) (hd : b.duty? t = none) : Undisturbed b b' := by
  obtain ⟨ws, hr, hhead, htail⟩ := h.works
  refine ⟨h.core, hr.grows, fun t' => ?_, fun hb => hr.tidy hb htail⟩
  by_cases hne : t' = t
  · subst hne
    rcases hd' : b'.duty? t' with _ | w
    · exact .inl hd.symm
    · obtain ⟨rest, hw, _⟩ := works_of_duty? hd'
      refine .inr ⟨hd, w, rfl, hhead w ?_⟩
      rw [← hr.self, hw]
      rfl
  · exact .inl (hr.duty?_of_ne hne)

theorem of_withWorks {c : Balancer α} {w : Work α} {rest : List (Work α)} (ht : t < b.tasks.length) (hc : c.core = b.core)
    (hts : c.tasks = b.tasks) (hw : w.IsFresh) (hrest : ∀ x ∈ rest, x.isInert = true) :
    Calm b (c.withWorks t (w :: rest)) t := by
  refine ⟨hc, w :: rest, reworks_withWorks ht hts, ?_, hrest⟩
  intro x hx
  injection hx with hx
  exact hx ▸ hw

theorem of_reworks {ws : List (Work α)} (hc : b'.core = b.core) (hr : Reworks b b' t ws)
    (hws : ∀ w ∈ ws, w.isInert = true) : Calm b b' t :=
  ⟨hc, ws, hr, fun w hw => Work.isFresh_of_isInert (hws w (List.mem_of_head? hw)),
    fun w hw => hws w (List.mem_of_mem_tail hw)⟩

theorem of_finish {c : Balancer α} {rest : List (Work α)} {outcome : Outcome α} (ht : t < b.tasks.length)
    (hc : c.core = b.core) (hts : c.tasks = b.tasks) (hrest : ∀ x ∈ rest, x.isInert = true) :
    Calm b (c.finish t rest outcome) t :=
  of_reworks hc (reworks_finish ht hts) hrest

/-- A task starts another one and ends its topmost work. -/
theorem of_spawn_finish {c : Balancer α} {started rest : List (Work α)} {outcome : Outcome α} (ht : t < b.tasks.length)
    (hc : c.core = b.core) (hts : c.tasks = b.tasks) (hs : ∀ x ∈ started, x.isInert = true)
    (hrest : ∀ x ∈ rest, x.isInert = true) : Calm b ((c.spawn started).finish t rest outcome) t :=
  of_reworks hc (.of_spawn_modify ht ⟨started, .done⟩ hs (fun _ => ⟨rest, outcome⟩) (fun _ => rfl) (by
    rw [finish, spawn, hts])) hrest

end Calm

end Balancer

end TelemetryRouter
