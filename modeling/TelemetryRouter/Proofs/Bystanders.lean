import TelemetryRouter.Proofs.Grounded

/-!
# What happens beside the passes

Only a pass makes an exporter, and only a pass brings one from one stage of its life to the next. Whatever else happens, deliveries
and leases and requests and the time that passes, leaves every exporter in its stage, adds nothing to its history but exports, and
leaves the pass that is under way where it is.
-/

namespace TelemetryRouter

variable {α : Type}

/-- Whether an occurrence is the call or the end of an export. -/
def Occurrence.isExport : Occurrence → Bool
  | .exporting _ => true
  | .exported => true
  | .exportFailed => true
  | .exportAbandoned => true
  | .exportRefused => true
  | _ => false

namespace Balancer

/-! ## Exporters that do not age -/

/-- No exporter was made, none has left the pool or gone on to another stage, and no history has more than exports to add. -/
structure Ageless (b b' : Balancer α) : Prop where
  entries : ∀ id entry, b.pool.entry? id = some entry → ∃ entry', b'.pool.entry? id = some entry' ∧ entry'.SameLife entry
  length : b'.pool.made.length = b.pool.made.length
  current : b'.pool.current = b.pool.current
  history : ∀ id, ∃ said, b'.history id = b.history id ++ said ∧ ∀ what ∈ said, what.isExport = true
  silent : ∀ id, b.pool.entry? id = none → b'.history id = b.history id

namespace Ageless

variable {b b' b'' : Balancer α}

theorem of_eq (hm : b'.pool.made = b.pool.made) (hc : b'.pool.current = b.pool.current) (he : b'.events = b.events) :
    Ageless b b' where
  entries := fun id entry hentry => ⟨entry, by rw [Pool.entry?, hm]; exact hentry, .refl entry⟩
  length := congrArg List.length hm
  current := hc
  history := fun id => SaysOnly.of_eq (history_congr he id)
  silent := fun id _ => history_congr he id

theorem trans (h : Ageless b b') (h' : Ageless b' b'') : Ageless b b'' where
  entries := fun id entry he => by
    obtain ⟨mid, hmid, hlife⟩ := h.entries id entry he
    obtain ⟨new, hnew, hlife'⟩ := h'.entries id mid hmid
    exact ⟨new, hnew, hlife'.trans hlife⟩
  length := h'.length.trans h.length
  current := h'.current.trans h.current
  history := fun id => SaysOnly.trans (h.history id) (h'.history id)
  silent := fun id hnone => by
    have hnone' : b'.pool.entry? id = none :=
      List.getElem?_eq_none (h.length ▸ List.getElem?_eq_none_iff.1 hnone)
    rw [h'.silent id hnone', h.silent id hnone]

/-- Touching one exporter in its stage of life, by exports only. -/
theorem of_touches {id : ExporterId} {old new : Entry} {said : List Occurrence} (h : Touches b b' id old new said)
    (hcurrent : b'.pool.current = b.pool.current) (hlife : new.SameLife old) (hsaid : ∀ what ∈ said, what.isExport = true) :
    Ageless b b' where
  entries := fun x entry he => by
    by_cases hx : x = id
    · subst hx
      rw [h.before] at he
      injection he with he
      subst he
      exact ⟨new, h.after, hlife⟩
    · exact ⟨entry, by rw [h.entries x hx]; exact he, .refl entry⟩
  length := h.length
  current := hcurrent
  history := fun _ => SaysOnly.of_touches h hsaid
  silent := h.silent

theorem of_relieves {given : ExporterId → Nat} (h : Relieves b b' given) : Ageless b b' where
  entries := fun id entry he => by
    obtain ⟨entry', he', hlife, _⟩ := h.entries id entry he
    exact ⟨entry', he', hlife⟩
  length := h.length
  current := h.current
  history := fun id => SaysOnly.mono (h.history id) (fun _ hwhat => by rw [hwhat]; rfl)
  silent := h.silent

/-- Every exporter was there before, in the same stage of its life. -/
theorem entry_before (h : Ageless b b') {id : ExporterId} {entry' : Entry} (he' : b'.pool.entry? id = some entry') :
    ∃ entry, b.pool.entry? id = some entry ∧ entry'.SameLife entry := by
  have hlt : id < b.pool.made.length := h.length ▸ (List.getElem?_eq_some_iff.1 he').1
  obtain ⟨entry, hentry, hlife⟩ := h.entries id _ (List.getElem?_eq_getElem hlt)
  rw [he'] at hentry
  injection hentry with hentry
  subst hentry
  exact ⟨_, List.getElem?_eq_getElem hlt, hlife⟩

end Ageless

theorem ParcelStep.ageless {b b' : Balancer α} {e : Endpoint} {batch : Batch α} {cut : Option RouterError}
    {phase phase' : ParcelPhase} (h : ParcelStep b e batch cut phase b' phase') : Ageless b b' := by
  cases h with
  | unready _ => exact .of_eq rfl rfl rfl
  | lease _ _ touches current => exact .of_touches touches current ⟨rfl, rfl, rfl⟩ (List.forall_mem_nil _)
  | cutEarly _ touches current => exact .of_touches touches current ⟨rfl, rfl, rfl⟩ (List.forall_mem_nil _)
  | refuse _ touches current => exact .of_touches touches current ⟨rfl, rfl, rfl⟩ (List.forall_mem_singleton.2 rfl)
  | call _ touches current => exact .of_touches touches current ⟨rfl, rfl, rfl⟩ (List.forall_mem_singleton.2 rfl)
  | cutLate _ touches current => exact .of_touches touches current ⟨rfl, rfl, rfl⟩ (List.forall_mem_singleton.2 rfl)
  | arrive _ _ _ touches current _ => exact .of_touches touches current ⟨rfl, rfl, rfl⟩ (List.forall_mem_singleton.2 rfl)
  | reject _ _ _ touches current => exact .of_touches touches current ⟨rfl, rfl, rfl⟩ (List.forall_mem_singleton.2 rfl)

/-- Ending the use of a lease held from outside ages no exporter, whatever touched its exporter before. -/
theorem ageless_useLease {b c : Balancer α} (h : Ageless b c) (lease : LeaseId) (f : Nat → Nat) :
    Ageless b (c.useLease lease f) :=
  h.trans (.of_relieves (resettles_useLease c lease f).relieves)

/-- A step of an export through a lease held from outside ages no exporter. -/
theorem ExportStep.ageless {b b' : Balancer α} {t : TaskId} {rest : List (Work α)} {lease : LeaseId} {batch : Batch α}
    {held : HeldLease} {entry : Entry} {wake : Option Nat} (h : ExportStep b t rest lease batch held entry wake b') :
    Ageless b b' := by
  cases h with
  | refuse _ current touches =>
    exact (ageless_useLease (.of_touches touches current ⟨rfl, rfl, rfl⟩ (List.forall_mem_singleton.2 rfl)) lease (· - 1)).trans (.of_eq rfl rfl rfl)
  | call _ current touches =>
    have hc := Ageless.of_touches touches current ⟨rfl, rfl, rfl⟩ (List.forall_mem_singleton.2 rfl)
    exact hc.trans (.of_eq rfl rfl rfl)
  | @finish c wake what _ _ current what_eq touches =>
    have hwhat : what.isExport = true := by rcases what_eq with rfl | rfl <;> rfl
    exact (ageless_useLease (.of_touches touches current ⟨rfl, rfl, rfl⟩ (List.forall_mem_singleton.2 hwhat)) lease (· - 1)).trans (.of_eq rfl rfl rfl)

theorem ageless_leaseAs {b b' : Balancer α} {e : Endpoint} {name : String} (h : b.leaseAs e name = .ok b') : Ageless b b' := by
  obtain ⟨id, entry, c, d, _, _, _, hcurrent, htouches, hresettles, rfl⟩ := leaseAs_spec h
  have hc := Ageless.of_touches htouches hcurrent ⟨rfl, rfl, rfl⟩ (fun _ h => nomatch h)
  exact (hc.trans (.of_relieves hresettles.relieves)).trans (.of_eq rfl rfl rfl)

theorem ageless_dropWork {b : Balancer α} (hb : b.Grounded) {t : TaskId} {w : Work α} (hd : b.duty? t = some w) :
    Ageless b (dropWork t b w) := by
  obtain ⟨rest, _, hduty⟩ := works_of_duty? hd
  cases w with
  | pass p => exact .of_eq rfl rfl rfl
  | deliver started deadline token parcels => exact .of_relieves (hb.dropWork_deliver hd).2
  | exportLeased lease batch wake =>
    obtain ⟨c, heq, _, hrelieves⟩ := hb.dropWork_exportLeased t lease batch wake
    rw [heq]
    exact ageless_useLease (.of_relieves hrelieves) lease (· - 1)
  | _ => cases hduty

/-! ## Changes beside the passes -/

/-- No exporter ages, nobody goes through the gate, and the pass that is under way stays where it is. -/
structure Aside (b b' : Balancer α) : Prop where
  ageless : Ageless b b'
  inside : b'.pool.gate.inside = b.pool.gate.inside
  passes : ∀ (t : TaskId) (p : Pass), p.phase ≠ .queued → (b'.duty? t = some (.pass p) ↔ b.duty? t = some (.pass p))

namespace Aside

variable {b b' b'' : Balancer α}

theorem trans (h : Aside b b') (h' : Aside b' b'') : Aside b b'' where
  ageless := h.ageless.trans h'.ageless
  inside := h'.inside.trans h.inside
  passes := fun t p hp => (h'.passes t p hp).trans (h.passes t p hp)

theorem of_tasks (h : Ageless b b') (hinside : b'.pool.gate.inside = b.pool.gate.inside) (hts : b'.tasks = b.tasks) : Aside b b' :=
  ⟨h, hinside, fun t _ _ => by rw [duty?_congr (works_congr hts t)]⟩

/-- A task whose duty is no pass under way goes on to other works without one. -/
theorem of_reworks {t : TaskId} {ws : List (Work α)} (h : Ageless b b') (hinside : b'.pool.gate.inside = b.pool.gate.inside)
    (hr : Reworks b b' t ws) (hbefore : ∀ p, b.duty? t = some (.pass p) → p.phase = .queued)
    (hafter : ∀ p, b'.duty? t = some (.pass p) → p.phase = .queued) : Aside b b' where
  ageless := h
  inside := hinside
  passes := fun t' p hp => by
    by_cases hne : t' = t
    · subst hne
      exact ⟨fun hd => absurd (hafter p hd) hp, fun hd => absurd (hbefore p hd) hp⟩
    · rw [hr.duty?_of_ne hne]

theorem of_undisturbed (h : Undisturbed b b') : Aside b b' where
  ageless := .of_eq (congrArg Core.made h.core) (congrArg Core.current h.core) (congrArg Core.events h.core)
  inside := congrArg Core.inside h.core
  passes := fun t p hp => by
    rcases h.duty t with hd | ⟨hnone, w, hw, hfresh⟩
    · rw [hd]
    · rw [hnone, hw]
      refine ⟨fun heq => ?_, fun heq => nomatch heq⟩
      injection heq with heq
      subst heq
      exact absurd hfresh.1 hp

end Aside

theorem queued_of_duty? {b : Balancer α} {t : TaskId} {w : Work α} (hd : b.duty? t = some w) (hw : ∀ p, w ≠ .pass p) (p : Pass)
    (hp : b.duty? t = some (.pass p)) : p.phase = .queued :=
  absurd (Option.some.inj (hd.symm.trans hp)) (hw p)

theorem queued_of_duty?_none {b : Balancer α} {t : TaskId} (hd : b.duty? t = none) (p : Pass)
    (hp : b.duty? t = some (.pass p)) : p.phase = .queued := by
  rw [hd] at hp
  cases hp

theorem DeliverStep.aside {b b' : Balancer α} {t : TaskId} {rest : List (Work α)} {started : Nat} {deadline : Option Instant}
    {token : Option String} {parcels : List (Parcel α)} {way : Nat}
    (hw : b.works t = .deliver started deadline token parcels :: rest) (hrest : ∀ w ∈ rest, w.isInert = true)
    (h : DeliverStep b t rest started deadline token parcels way b') : Aside b b' := by
  have ht := lt_of_works hw
  have hbefore := queued_of_duty? (duty?_of_works hw rfl) (fun p hp => nomatch hp)
  cases h with
  | @parcel p p' c _ _ _ frame step =>
    have hr : Reworks b (c.withWorks t (.deliver started deadline token (parcels.set way p') :: rest)) t _ :=
      reworks_withWorks ht frame.tasks
    have hafter := queued_of_duty? (hr.duty?_cons rfl) (fun p hp => nomatch hp)
    exact .of_reworks (step.ageless.trans (.of_eq rfl rfl rfl)) (congrArg Gate.inside frame.gate) hr hbefore hafter
  | finish _ =>
    have hr : Reworks b (b.finish t rest (.dispatched (Parcel.result parcels))) t rest := reworks_finish ht rfl
    exact .of_reworks (.of_eq rfl rfl rfl) rfl hr hbefore (queued_of_duty?_none (hr.duty?_inert hrest))

/-- A step of an export through a lease held from outside is beside the passes. -/
theorem ExportStep.aside {b b' : Balancer α} {t : TaskId} {rest : List (Work α)} {lease : LeaseId} {batch : Batch α}
    {held : HeldLease} {entry : Entry} {wake : Option Nat} (hw : b.works t = .exportLeased lease batch wake :: rest)
    (hrest : ∀ w ∈ rest, w.isInert = true) (h : ExportStep b t rest lease batch held entry wake b') : Aside b b' := by
  have ht := lt_of_works hw
  have hbefore := queued_of_duty? (duty?_of_works hw rfl) (fun p hp => nomatch hp)
  have hageless := h.ageless
  have hend : ∀ {c : Balancer α} {outcome : Outcome α}, Frame b c → Ageless b ((c.useLease lease (· - 1)).finish t rest outcome) →
      Aside b ((c.useLease lease (· - 1)).finish t rest outcome) := fun {c outcome} hframe hageless => by
    have hresettles := resettles_useLease c lease (· - 1)
    have hr : Reworks b ((c.useLease lease (· - 1)).finish t rest outcome) t rest :=
      reworks_finish ht (hresettles.tasks.trans hframe.tasks)
    exact .of_reworks hageless (congrArg Gate.inside (hresettles.gate.trans hframe.gate)) hr hbefore
      (queued_of_duty?_none (hr.duty?_inert hrest))
  cases h with
  | refuse frame _ _ => exact hend frame hageless
  | finish frame _ _ _ => exact hend frame hageless
  | @call c wake frame _ _ =>
    have hr : Reworks b (c.withWorks t (.exportLeased lease batch (some wake) :: rest)) t _ := reworks_withWorks ht frame.tasks
    exact .of_reworks hageless (congrArg Gate.inside frame.gate) hr hbefore
      (queued_of_duty? (hr.duty?_cons rfl) (fun p hp => nomatch hp))

/-- The request of an export through a lease is beside the passes. -/
theorem aside_requestExport (b : Balancer α) (lease : LeaseId) (batch : Batch α) :
    Aside b (b.request (.exportLeased lease batch)).1 := by
  let c := (b.spawn []).withWorks b.nextTask [.exportLeased lease batch none]
  have hr : Reworks (b.spawn []) c b.nextTask [.exportLeased lease batch none] := reworks_withWorks (nextTask_lt_spawn b) rfl
  have hc : Aside (b.spawn []) c := .of_reworks (.of_eq rfl rfl rfl) rfl hr (queued_of_duty?_none (duty?_nextTask b))
    (queued_of_duty? (hr.duty?_cons rfl) (fun p hp => nomatch hp))
  have hresettles := resettles_useLease c lease (· + 1)
  exact ((Aside.of_undisturbed (undisturbed_spawn_nil b)).trans hc).trans
    (.of_tasks (.of_relieves hresettles.relieves) (congrArg Gate.inside hresettles.gate) hresettles.tasks)

/-- Giving up a duty other than a pass under way is beside the passes. -/
theorem aside_abandon {b : Balancer α} (hb : b.Grounded)
    (hinside : ∀ t, b.pool.gate.inside = some t → ∃ p, b.duty? t = some (.pass p) ∧ p.phase ≠ .queued) {t : TaskId} {w : Work α}
    (hd : b.duty? t = some w) (hw : ∀ p, w = .pass p → p.phase = .queued) : Aside b ((dropWork t b w).withWorks t []) := by
  obtain ⟨rest, hworks, hduty⟩ := works_of_duty? hd
  have hnil : ∀ w ∈ ([] : List (Work α)), w.isInert = true := List.forall_mem_nil _
  have hageless : Ageless b ((dropWork t b w).withWorks t []) := (ageless_dropWork hb hd).trans (.of_eq rfl rfl rfl)
  have hbefore : ∀ p, b.duty? t = some (.pass p) → p.phase = .queued := fun p hp => hw p (Option.some.inj (hd.symm.trans hp))
  have haside : (dropWork t b w).tasks = b.tasks → (dropWork t b w).pool.gate.inside = b.pool.gate.inside →
      Aside b ((dropWork t b w).withWorks t []) := fun hts hgate => by
    have hr : Reworks b ((dropWork t b w).withWorks t []) t [] := reworks_withWorks (lt_of_works hworks) hts
    exact .of_reworks hageless hgate hr hbefore (queued_of_duty?_none (hr.duty?_inert hnil))
  cases w with
  | pass p =>
    refine haside rfl ?_
    have hne : b.pool.gate.inside ≠ some t := fun heq => by
      obtain ⟨p', hd', hp'⟩ := hinside t heq
      exact hp' (hbefore p' hd')
    exact if_neg hne
  | deliver started deadline token parcels =>
    have hframe := (hb.dropWork_deliver hd).1
    exact haside hframe.tasks (congrArg Gate.inside hframe.gate)
  | exportLeased lease batch wake =>
    obtain ⟨c, heq, hframe, _⟩ := hb.dropWork_exportLeased t lease batch wake
    have hresettles := resettles_useLease c lease (· - 1)
    refine haside ?_ ?_
    · rw [heq]
      exact hresettles.tasks.trans hframe.tasks
    · rw [heq]
      exact congrArg Gate.inside (hresettles.gate.trans hframe.gate)
  | _ => cases hduty

/-- A change is beside the passes or a step of one, unless it gives a pass up that is under way. -/
theorem Change.aside_or_pass {b b' : Balancer α} (hb : b.Grounded)
    (hinside : ∀ t, b.pool.gate.inside = some t → ∃ p, b.duty? t = some (.pass p) ∧ p.phase ≠ .queued) {a : Action α}
    (ha : ∀ t p, a = .abandon t → b.duty? t = some (.pass p) → p.phase = .queued) (h : Change b a b') :
    Aside b b' ∨ ∃ t way p rest, a = .move t way ∧ b.works t = .pass p :: rest ∧ (∀ w ∈ rest, w.isInert = true) ∧
      PassStep b t rest p b' := by
  cases h with
  | calm undisturbed => exact .inl (.of_undisturbed undisturbed)
  | advance => exact .inl (.of_tasks (.of_eq rfl rfl rfl) rfl rfl)
  | pass works inert step =>
    exact .inr ⟨_, _, _, _, rfl, works, inert, stepPass_cases (hb.duties _ _ (duty?_of_works works rfl)) step⟩
  | deliver works inert step =>
    exact .inl ((stepDeliver_cases (hb.duties _ _ (duty?_of_works works rfl)) step).aside works inert)
  | exportLeased works inert step =>
    obtain ⟨held, entry, _, _, hstep⟩ := stepExportLeased_cases hb step
    exact .inl (hstep.aside works inert)
  | use _ => exact .inl (aside_requestExport b _ _)
  | lease taken =>
    obtain ⟨_, _, _, d, _, _, hframe, _, _, hresettles, rfl⟩ := leaseAs_spec taken
    exact .inl (.of_tasks (ageless_leaseAs taken) (congrArg Gate.inside (hresettles.gate.trans hframe.gate))
      (hresettles.tasks.trans hframe.tasks))
  | @dropLease name =>
    have hresettles := resettles_dropName b name
    exact .inl (.of_tasks (.of_relieves hresettles.relieves) (congrArg Gate.inside hresettles.gate) hresettles.tasks)
  | @notify id =>
    obtain ⟨hframe, hrelieves⟩ := b.notify_spec id
    exact .inl (.of_tasks (.of_relieves hrelieves) (congrArg Gate.inside hframe.gate) hframe.tasks)
  | abandon works duty undisturbed =>
    have hd := duty?_of_works works duty
    exact .inl ((aside_abandon hb hinside hd (fun p hp => ha _ p rfl (hp ▸ hd))).trans (.of_undisturbed undisturbed))

end Balancer

end TelemetryRouter
