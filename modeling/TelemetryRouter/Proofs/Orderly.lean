import Mathlib.Data.List.Nodup
import Mathlib.Data.List.Perm.Basic
import TelemetryRouter.Proofs.Bystanders
import TelemetryRouter.Proofs.NormalForm

/-!
# One pass at a time

A pass that was let in is the only one, and what it has still to do accounts for every exporter that is neither running nor
stopped: its starts for those that are being started, its retirements for those that are being stopped. When nobody is inside the
gate, every exporter runs or is stopped. The pool lists the exporters that are not stopped, each once, under its endpoint. All of this
holds as long as no pass is given up once it was let in.
-/

namespace TelemetryRouter

variable {α : Type}

/-- Whether a start has not got its exporter yet, and still may. -/
def AttemptPhase.isUnmade : AttemptPhase → Bool
  | .pending => true
  | .creating _ _ _ => true
  | _ => false

/-- Whether an exporter is as far as a retirement in a phase has brought it. -/
def RetirementPhase.Fits : RetirementPhase → Entry → Prop
  | .pending, entry => entry.state = .running
  | .counting _, entry => entry.state = .stopping ∧ entry.closed = false
  | .registering _, entry => entry.state = .stopping ∧ entry.closed = false
  | .waiting _, entry => entry.state = .stopping ∧ entry.closed = false
  | .closing _, entry => entry.state = .stopping ∧ entry.closed = true
  | .retired, entry => entry.state = .stopped

theorem RetirementPhase.Fits.of_sameLife {phase : RetirementPhase} {entry entry' : Entry} (h : phase.Fits entry)
    (hlife : entry'.SameLife entry) : phase.Fits entry' := by
  cases phase <;> simpa only [Fits, hlife.state, hlife.closed] using h

/-- While a drain goes on, its exporter is being stopped and not shut down. -/
theorem RetirementPhase.fits_iff_of_deadline? {phase : RetirementPhase} {deadline : Instant}
    (h : phase.deadline? = some deadline) (entry : Entry) :
    phase.Fits entry ↔ entry.state = .stopping ∧ entry.closed = false := by
  cases phase <;> first | exact Iff.rfl | cases h

/-- Whether an exporter is in the stage to which a retirement in a phase has brought it, whatever has been done to it before. -/
def RetirementPhase.Suits : RetirementPhase → Entry → Prop
  | .pending, entry => entry.state ≠ .stopped
  | .retired, entry => entry.state = .stopped
  | _, entry => entry.state = .stopping

theorem RetirementPhase.suits_iff_of_deadline? {phase : RetirementPhase} {deadline : Instant}
    (h : phase.deadline? = some deadline) (entry : Entry) : phase.Suits entry ↔ entry.state = .stopping := by
  cases phase <;> first | exact Iff.rfl | cases h

/-- An exporter that is as far as a retirement has brought it is in its stage. -/
theorem RetirementPhase.Fits.suits {phase : RetirementPhase} {entry : Entry} (h : phase.Fits entry) : phase.Suits entry := by
  cases phase with
  | pending =>
    have hrunning : entry.state = .running := h
    exact fun hstopped => by
      rw [hrunning] at hstopped
      cases hstopped
  | retired => exact h
  | _ => exact h.1

namespace Balancer

/-! ## The order -/

/-- The pool lists the exporters that are not stopped, each under its endpoint, and an endpoint once. An exporter that starts or runs
was not shut down. -/
structure Kept (b : Balancer α) : Prop where
  distinct : (b.pool.current.map Prod.fst).Nodup
  listed : ∀ id entry, b.pool.entry? id = some entry → (entry.state ≠ .stopped ↔ (entry.endpoint, id) ∈ b.pool.current)
  unclosed : ∀ id entry, b.pool.entry? id = some entry → entry.state = .starting ∨ entry.state = .running → entry.closed = false

/-- The starts of a pass are for different endpoints; those without an exporter yet are for endpoints that have none; and the
exporters of the others are those that are being started. Nothing is being stopped. -/
structure Starts (b : Balancer α) (attempts : List Attempt) : Prop where
  once : (attempts.map Attempt.endpoint).Nodup
  absent : ∀ a ∈ attempts, a.phase.isUnmade = true → ∀ c ∈ b.pool.current, c.1 ≠ a.endpoint
  starting : ∀ id entry, b.pool.entry? id = some entry → (entry.state = .starting ↔ ∃ a ∈ attempts, a.phase.exporter? = some id)
  others : ∀ id entry, b.pool.entry? id = some entry → entry.state ≠ .stopping

/-- The retirements of a pass are of different exporters, all of them as far as their retirements have brought them, and no other
exporter is being stopped. Nothing is being started. -/
structure Retires (b : Balancer α) (retirements : List Retirement) : Prop where
  once : (retirements.map Retirement.id).Nodup
  fits : ∀ r ∈ retirements, ∃ entry, b.pool.entry? r.id = some entry ∧ r.phase.Fits entry
  stopping : ∀ id entry, b.pool.entry? id = some entry → entry.state = .stopping → ∃ r ∈ retirements, r.id = id
  others : ∀ id entry, b.pool.entry? id = some entry → entry.state ≠ .starting

end Balancer

/-- Whether a pass that was let in accounts for the exporters that are neither running nor stopped. -/
def PassPhase.Accounts (b : Balancer α) : PassPhase → Prop
  | .queued => False
  | .adding _ attempts => b.Starts attempts
  | .retiring _ _ retirements => b.Retires retirements

theorem PassPhase.Accounts.ne_queued {b : Balancer α} {phase : PassPhase} (h : phase.Accounts b) : phase ≠ .queued := by
  rintro rfl
  exact h

namespace Balancer

/-- One pass at a time is under way, and it accounts for what the exporters do. -/
structure Orderly (b : Balancer α) : Prop where
  kept : b.Kept
  turn : ∀ t p, b.duty? t = some (.pass p) → p.phase ≠ .queued → b.pool.gate.inside = some t
  free : b.pool.gate.inside = none → ∀ id entry, b.pool.entry? id = some entry → entry.state = .running ∨ entry.state = .stopped
  taken : ∀ t, b.pool.gate.inside = some t → ∃ p, b.duty? t = some (.pass p) ∧ p.phase.Accounts b

/-- A pass that was let in is the one of the task inside the gate, and the task inside has such a pass. -/
structure Guarded (b : Balancer α) : Prop where
  turn : ∀ t p, b.duty? t = some (.pass p) → p.phase ≠ .queued → b.pool.gate.inside = some t
  inside : ∀ t, b.pool.gate.inside = some t → ∃ p, b.duty? t = some (.pass p) ∧ p.phase ≠ .queued

theorem Orderly.inside {b : Balancer α} (hb : b.Orderly) (t : TaskId) (ht : b.pool.gate.inside = some t) :
    ∃ p, b.duty? t = some (.pass p) ∧ p.phase ≠ .queued := by
  obtain ⟨p, hd, haccounts⟩ := hb.taken t ht
  exact ⟨p, hd, haccounts.ne_queued⟩

theorem Orderly.guarded {b : Balancer α} (hb : b.Orderly) : b.Guarded := ⟨hb.turn, hb.inside⟩

theorem Orderly.accounts {b : Balancer α} (hb : b.Orderly) {t : TaskId} {p : Pass} (hd : b.duty? t = some (.pass p))
    (hp : p.phase ≠ .queued) : p.phase.Accounts b := by
  obtain ⟨p', hd', haccounts⟩ := hb.taken t (hb.turn t p hd hp)
  exact pass_eq_of_duty? hd hd' ▸ haccounts

/-- A pass that starts exporters accounts for them by its starts. -/
theorem Orderly.starts_of_adding {b : Balancer α} (hb : b.Orderly) {t : TaskId} {p : Pass} {wanted : List Endpoint}
    {attempts : List Attempt} (hd : b.duty? t = some (.pass p)) (hphase : p.phase = .adding wanted attempts) : b.Starts attempts := by
  have haccounts := hb.accounts hd (by rw [hphase]; exact fun h => nomatch h)
  rw [hphase] at haccounts
  exact haccounts

/-- A pass that retires exporters accounts for them by its retirements. -/
theorem Orderly.retires_of_retiring {b : Balancer α} (hb : b.Orderly) {t : TaskId} {p : Pass} {added failed : List Endpoint}
    {retirements : List Retirement} (hd : b.duty? t = some (.pass p)) (hphase : p.phase = .retiring added failed retirements) :
    b.Retires retirements := by
  have haccounts := hb.accounts hd (by rw [hphase]; exact fun h => nomatch h)
  rw [hphase] at haccounts
  exact haccounts

theorem orderly_new (options : BalancerOptions) (adapter : Adapter α) (resolver : Resolver) (backends : Backends) :
    (new options adapter resolver backends).Orderly where
  kept := ⟨List.nodup_nil, (fun _ _ he => nomatch he), (fun _ _ he => nomatch he)⟩
  turn := fun _ _ hd => nomatch hd
  free := fun _ _ _ he => nomatch he
  taken := fun _ ht => nomatch ht

/-! ## The gate -/

section Gate

variable {b b' : Balancer α} {t : TaskId}

theorem guarded_new (options : BalancerOptions) (adapter : Adapter α) (resolver : Resolver) (backends : Backends) :
    (new options adapter resolver backends).Guarded where
  turn := fun _ _ hd => nomatch hd
  inside := fun _ ht => nomatch ht

/-- What happens beside the passes leaves them guarded. -/
theorem Guarded.aside (hb : b.Guarded) (h : Aside b b') : b'.Guarded where
  turn := fun t p hd hp => by
    rw [h.inside]
    exact hb.turn t p ((h.passes t p hp).1 hd) hp
  inside := fun t ht => by
    obtain ⟨p, hd, hp⟩ := hb.inside t (h.inside ▸ ht)
    exact ⟨p, (h.passes t p hp).2 hd, hp⟩

/-- Beside the pass of the only task that may be inside, no other was let in. -/
theorem Guarded.queued_of_ne (hb : b.Guarded) (hinside : b.pool.gate.inside = none ∨ b.pool.gate.inside = some t) {t' : TaskId}
    (hne : t' ≠ t) {q : Pass} (hd : b.duty? t' = some (.pass q)) : q.phase = .queued := by
  by_contra hq
  have hturn := hb.turn t' q hd hq
  rcases hinside with h | h <;> rw [h] at hturn
  · cases hturn
  · exact hne (Option.some.inj hturn).symm

theorem Guarded.go (hb : b.Guarded) {rest : List (Work α)} {p : Pass} (hr : Reworks b b' t (.pass p :: rest))
    (hbefore : b.pool.gate.inside = none ∨ b.pool.gate.inside = some t) (hafter : b'.pool.gate.inside = some t)
    (hp : p.phase ≠ .queued) : b'.Guarded where
  turn := fun t' q hd hq => by
    by_cases hne : t' = t
    · rw [hne]
      exact hafter
    · rw [hr.duty?_of_ne hne] at hd
      exact absurd (hb.queued_of_ne hbefore hne hd) hq
  inside := fun t' ht' => by
    obtain rfl : t = t' := Option.some.inj (hafter.symm.trans ht')
    exact ⟨p, hr.duty?_cons rfl, hp⟩

theorem Guarded.leave (hb : b.Guarded) (hinside : b.pool.gate.inside = some t) (hfree : b'.pool.gate.inside = none)
    (hnone : ∀ q, b'.duty? t = some (.pass q) → q.phase = .queued)
    (hothers : ∀ t', t' ≠ t → ∀ q, b'.duty? t' = some (.pass q) → b.duty? t' = some (.pass q) ∨ q.phase = .queued) : b'.Guarded where
  turn := fun t' q hd hq => by
    refine absurd ?_ hq
    by_cases hne : t' = t
    · exact hnone q (hne ▸ hd)
    · exact (hothers t' hne q hd).elim (hb.queued_of_ne (.inr hinside) hne) id
  inside := fun t' ht' => by
    rw [hfree] at ht'
    cases ht'

theorem Guarded.passStep (hb : b.Guarded) {rest : List (Work α)} {p : Pass} (hw : b.works t = .pass p :: rest)
    (hrest : ∀ w ∈ rest, w.isInert = true) (h : PassStep b t rest p b') : b'.Guarded := by
  have ht := lt_of_works hw
  have hd := duty?_of_works hw rfl
  have hin : p.phase ≠ .queued → b.pool.gate.inside = some t := hb.turn t p hd
  cases h with
  | enter _ enters _ _ =>
    obtain ⟨hfree, _, hinside⟩ := (Gate.enter?_eq_some_iff _ _ _).1 enters
    exact hb.go (reworks_withWorks ht rfl) (.inl hfree) hinside (fun h => nomatch h)
  | attempt phase _ _ frame _ =>
    have hinside := hin (by rw [phase]; exact fun h => nomatch h)
    exact hb.go (reworks_withWorks ht frame.tasks) (.inr hinside) ((congrArg Gate.inside frame.gate).trans hinside) (fun h => nomatch h)
  | publish phase _ =>
    have hinside := hin (by rw [phase]; exact fun h => nomatch h)
    exact hb.go (reworks_withWorks ht rfl) (.inr hinside) hinside (fun h => nomatch h)
  | retire phase _ _ frame _ _ =>
    have hinside := hin (by rw [phase]; exact fun h => nomatch h)
    exact hb.go (reworks_withWorks ht frame.tasks) (.inr hinside) ((congrArg Gate.inside frame.gate).trans hinside) (fun h => nomatch h)
  | @conclude added failed retirements phase _ =>
    have hinside := hin (by rw [phase]; exact fun h => nomatch h)
    have hr := reworks_concludePass ht rest (b.passOutcome added failed retirements)
    refine hb.leave hinside ?_ (fun q hq => ?_) (fun t' hne q hq => .inl (by rwa [hr.duty?_of_ne hne] at hq))
    · obtain ⟨_, heq⟩ := concludePass_eq b t rest (b.passOutcome added failed retirements)
      rw [heq]
      exact if_pos hinside
    · rw [hr.duty?_inert hrest] at hq
      cases hq

end Gate

/-! ## Changes beside the passes -/

section Aside

variable {b b' : Balancer α}

/-- The pool lists what it should as long as no exporter ages. -/
theorem Kept.ageless (hb : b.Kept) (h : Ageless b b') : b'.Kept where
  distinct := by
    rw [h.current]
    exact hb.distinct
  listed := fun id entry' he' => by
    obtain ⟨entry, he, hlife⟩ := h.entry_before he'
    rw [hlife.state, hlife.endpoint, h.current]
    exact hb.listed id entry he
  unclosed := fun id entry' he' => by
    obtain ⟨entry, he, hlife⟩ := h.entry_before he'
    rw [hlife.state, hlife.closed]
    exact hb.unclosed id entry he

/-- Starts account for the exporters as long as no exporter ages. -/
theorem Starts.ageless {attempts : List Attempt} (hs : b.Starts attempts) (h : Ageless b b') : b'.Starts attempts where
  once := hs.once
  absent := fun a ha hunmade c hc => hs.absent a ha hunmade c (h.current ▸ hc)
  starting := fun id entry' he' => by
    obtain ⟨entry, he, hlife⟩ := h.entry_before he'
    rw [hlife.state]
    exact hs.starting id entry he
  others := fun id entry' he' => by
    obtain ⟨entry, he, hlife⟩ := h.entry_before he'
    rw [hlife.state]
    exact hs.others id entry he

/-- Retirements account for the exporters as long as no exporter ages. -/
theorem Retires.ageless {retirements : List Retirement} (hr : b.Retires retirements) (h : Ageless b b') :
    b'.Retires retirements where
  once := hr.once
  fits := fun r hmem => by
    obtain ⟨entry, he, hfits⟩ := hr.fits r hmem
    obtain ⟨entry', he', hlife⟩ := h.entries r.id entry he
    exact ⟨entry', he', hfits.of_sameLife hlife⟩
  stopping := fun id entry' he' hstate => by
    obtain ⟨entry, he, hlife⟩ := h.entry_before he'
    exact hr.stopping id entry he (hlife.state ▸ hstate)
  others := fun id entry' he' => by
    obtain ⟨entry, he, hlife⟩ := h.entry_before he'
    rw [hlife.state]
    exact hr.others id entry he

/-- A pass accounts for the exporters as long as no exporter ages. -/
theorem accounts_ageless {phase : PassPhase} (haccounts : phase.Accounts b) (h : Ageless b b') : phase.Accounts b' := by
  cases phase with
  | queued => exact haccounts
  | adding wanted attempts => exact Starts.ageless haccounts h
  | retiring added failed retirements => exact Retires.ageless haccounts h

/-- What happens beside the passes leaves an orderly state. -/
theorem Orderly.aside (hb : b.Orderly) (h : Aside b b') : b'.Orderly where
  kept := hb.kept.ageless h.ageless
  turn := (hb.guarded.aside h).turn
  free := fun hfree id entry' he' => by
    obtain ⟨entry, he, hlife⟩ := h.ageless.entry_before he'
    rw [hlife.state]
    exact hb.free (h.inside ▸ hfree) id entry he
  taken := fun t ht => by
    obtain ⟨p, hd, haccounts⟩ := hb.taken t (h.inside ▸ ht)
    exact ⟨p, (h.passes t p haccounts.ne_queued).2 hd, accounts_ageless haccounts h.ageless⟩

end Aside

/-! ## The list of the pool -/

section Kept

variable {b c : Balancer α} {id : ExporterId} {old new : Entry} {said : List Occurrence}

theorem Kept.eq_of_mem (hb : b.Kept) {e : Endpoint} {id id' : ExporterId} (h : (e, id) ∈ b.pool.current)
    (h' : (e, id') ∈ b.pool.current) : id = id' :=
  congrArg Prod.snd (List.inj_on_of_nodup_map hb.distinct h h' rfl)

/-- Touching an exporter that is listed before and after, or neither before nor after. -/
theorem Kept.touches (hb : b.Kept) (h : Touches b c id old new said) (hcurrent : c.pool.current = b.pool.current)
    (hendpoint : new.endpoint = old.endpoint) (hstate : new.state = .stopped ↔ old.state = .stopped)
    (hclosed : new.state = .starting ∨ new.state = .running → new.closed = false) : c.Kept where
  distinct := by
    rw [hcurrent]
    exact hb.distinct
  listed := fun x entry he => by
    by_cases hx : x = id
    · subst hx
      rw [h.after] at he
      injection he with he
      subst he
      rw [hcurrent, hendpoint, ← hb.listed x old h.before, ne_eq, ne_eq, hstate]
    · rw [h.entries x hx] at he
      rw [hcurrent]
      exact hb.listed x entry he
  unclosed := fun x entry he hlive => by
    by_cases hx : x = id
    · subst hx
      rw [h.after] at he
      injection he with he
      subst he
      exact hclosed hlive
    · rw [h.entries x hx] at he
      exact hb.unclosed x entry he hlive

theorem Kept.leave (hb : b.Kept) (h : Touches b c id old { old with state := .stopped } said) (hold : old.state ≠ .stopped)
    (hcurrent : c.pool.current = b.pool.current.filter (fun x => x.1 ≠ old.endpoint)) : c.Kept where
  distinct := by
    rw [hcurrent]
    exact hb.distinct.sublist (List.filter_sublist.map Prod.fst)
  listed := fun x entry he => by
    rw [hcurrent, List.mem_filter]
    by_cases hx : x = id
    · subst hx
      rw [h.after] at he
      injection he with he
      subst he
      simp
    · rw [h.entries x hx] at he
      rw [hb.listed x entry he]
      refine ⟨fun hmem => ⟨hmem, decide_eq_true (fun heq : entry.endpoint = old.endpoint => hx ?_)⟩, fun hmem => hmem.1⟩
      exact hb.eq_of_mem (heq ▸ hmem) ((hb.listed id old h.before).1 hold)
  unclosed := fun x entry he hlive => by
    by_cases hx : x = id
    · subst hx
      rw [h.after] at he
      injection he with he
      subst he
      rcases hlive with hlive | hlive <;> cases hlive
    · rw [h.entries x hx] at he
      exact hb.unclosed x entry he hlive

/-- Once an exporter is made, it is there besides those that were. -/
theorem entry?_of_make (hmade : c.pool.made = b.pool.made ++ [new]) {x : ExporterId} {entry : Entry}
    (he : c.pool.entry? x = some entry) :
    (b.pool.entry? x = some entry ∧ x ≠ b.pool.nextId) ∨ (x = b.pool.nextId ∧ entry = new) := by
  rw [Pool.entry?, hmade] at he
  by_cases hlt : x < b.pool.made.length
  · rw [List.getElem?_append_left hlt] at he
    exact .inl ⟨he, Nat.ne_of_lt hlt⟩
  · rw [List.getElem?_append_right (Nat.le_of_not_lt hlt)] at he
    have hlast : x - b.pool.made.length < 1 := (List.getElem?_eq_some_iff.1 he).1
    rw [Nat.lt_one_iff, Nat.sub_eq_zero_iff_le] at hlast
    exact .inr ⟨Nat.le_antisymm hlast (Nat.le_of_not_lt hlt), List.mem_singleton.1 (List.mem_of_getElem? he)⟩

/-- An exporter made for an endpoint that has none joins the list. -/
theorem Kept.make (hb : b.Kept) {e : Endpoint} {address : String} {plain : Bool}
    (hmade : c.pool.made = b.pool.made ++ [Entry.make e address plain])
    (hcurrent : c.pool.current = b.pool.current.filter (fun x => x.1 ≠ e) ++ [(e, b.pool.nextId)])
    (habsent : ∀ x ∈ b.pool.current, x.1 ≠ e) : c.Kept := by
  have hfilter : b.pool.current.filter (fun x => x.1 ≠ e) = b.pool.current :=
    List.filter_eq_self.2 (fun x hx => decide_eq_true (habsent x hx))
  rw [hfilter] at hcurrent
  refine ⟨?_, fun x entry he => ?_, fun x entry he hlive => ?_⟩
  · rw [hcurrent, List.map_append, List.map_singleton, List.nodup_append]
    refine ⟨hb.distinct, List.nodup_singleton _, fun x hx y hy => ?_⟩
    obtain ⟨z, hz, rfl⟩ := List.mem_map.1 hx
    rw [List.mem_singleton.1 hy]
    exact habsent z hz
  · rw [hcurrent, List.mem_append, List.mem_singleton]
    rcases entry?_of_make hmade he with ⟨he, hne⟩ | ⟨rfl, rfl⟩
    · rw [hb.listed x entry he]
      exact ⟨.inl, fun hmem => hmem.resolve_right (fun heq => hne (congrArg Prod.snd heq))⟩
    · exact ⟨fun _ => .inr rfl, fun _ => fun hstate => nomatch hstate⟩
  · rcases entry?_of_make hmade he with ⟨he, _⟩ | ⟨_, rfl⟩
    · exact hb.unclosed x entry he hlive
    · rfl

theorem Kept.attemptStep (hb : b.Kept) {e : Endpoint} {phase phase' : AttemptPhase} (h : AttemptStep b e phase c phase')
    (habsent : phase.isUnmade = true → ∀ x ∈ b.pool.current, x.1 ≠ e)
    (hstarting : ∀ id ∈ phase.exporter?, ∀ entry, b.pool.entry? id = some entry → entry.state = .starting ∧ entry.endpoint = e) :
    c.Kept := by
  have hsame : SameExporters b c → c.Kept := fun same => by
    have hentry : ∀ x, c.pool.entry? x = b.pool.entry? x := fun x => by rw [Pool.entry?, same.made]; rfl
    refine ⟨by rw [same.current]; exact hb.distinct, fun x entry he => ?_, fun x entry he => ?_⟩
    · rw [same.current]
      exact hb.listed x entry (hentry x ▸ he)
    · exact hb.unclosed x entry (hentry x ▸ he)
  cases h with
  | call same => exact hsame same
  | refuse same => exact hsame same
  | make made current _ _ => exact hb.make made current (habsent rfl)
  | run touches current =>
    obtain ⟨hstate, _⟩ := hstarting _ rfl _ touches.before
    have hclosed := hb.unclosed _ _ touches.before (.inl hstate)
    exact hb.touches touches current rfl (by simp [hstate]) (fun _ => hclosed)
  | stumble touches current =>
    obtain ⟨hstate, hendpoint⟩ := hstarting _ rfl _ touches.before
    exact hb.leave touches (by simp [hstate]) (by rw [hendpoint]; exact current)

/-- An exporter that a retirement makes a step of is not stopped. -/
theorem RetirementStep.ne_stopped {entry : Entry} {phase phase' : RetirementPhase} (hsuits : phase.Suits entry)
    (h : RetirementStep b id entry phase c phase') : entry.state ≠ .stopped := by
  have hne : entry.state = .stopping → entry.state ≠ .stopped := fun hstate => by
    rw [hstate]
    exact fun h => nomatch h
  cases h with
  | mark _ _ => exact hsuits
  | drain before _ _ _ => exact hne ((RetirementPhase.suits_iff_of_deadline? before entry).1 hsuits)
  | close _ _ _ => exact hne hsuits
  | giveUp _ _ _ _ => exact hne hsuits
  | leave _ _ _ => exact hne hsuits

theorem Kept.retirementStep (hb : b.Kept) {entry : Entry} {phase phase' : RetirementPhase} (hsuits : phase.Suits entry)
    (h : RetirementStep b id entry phase c phase') : c.Kept := by
  have hold := h.ne_stopped hsuits
  have hstopping : ∀ {new : Entry} {said : List Occurrence}, Touches b c id entry new said → new.state = .stopping →
      new.endpoint = entry.endpoint → c.pool.current = b.pool.current → c.Kept := fun touches hnew hendpoint current => by
    refine hb.touches touches current hendpoint (by simp [hold, hnew]) (fun hlive => ?_)
    rcases hlive with hlive | hlive <;> rw [hnew] at hlive <;> cases hlive
  cases h with
  | mark touches current => exact hstopping touches rfl rfl current
  | drain before _ touches current =>
    exact hstopping touches ((RetirementPhase.suits_iff_of_deadline? before entry).1 hsuits) rfl current
  | close _ touches current => exact hstopping touches hsuits rfl current
  | giveUp _ _ touches current => exact hstopping touches hsuits rfl current
  | leave _ touches current => exact hb.leave touches hold current

end Kept

/-! ## What a pass has still to do -/

section Passes

variable {b c : Balancer α}

/-- Replacing one member of a list by another with the same key, where no two have one. -/
theorem mem_set_of_key {β κ : Type} {l : List β} {i : Nat} {x x' : β} {key : β → κ} (h : l[i]? = some x)
    (hkey : key x' = key x) (hdistinct : (l.map key).Nodup) :
    ∃ others : List β, (∀ y, y ∈ l ↔ y = x ∨ y ∈ others) ∧ (∀ y, y ∈ l.set i x' ↔ y = x' ∨ y ∈ others) ∧
      (∀ y ∈ others, key y ≠ key x) ∧ ((l.set i x').map key).Nodup := by
  obtain ⟨hlt, hget⟩ := List.getElem?_eq_some_iff.1 h
  have hbefore : (x :: l.eraseIdx i).Perm l := by
    rw [← hget]
    exact List.getElem_cons_eraseIdx_perm hlt
  have hafter : (l.set i x').Perm (x' :: l.eraseIdx i) := List.set_perm_cons_eraseIdx hlt x'
  have hnodup : (key x :: (l.eraseIdx i).map key).Nodup := (hbefore.map key).nodup_iff.2 hdistinct
  refine ⟨l.eraseIdx i, fun y => ?_, fun y => ?_, fun y hy heq => ?_, ?_⟩
  · rw [← hbefore.mem_iff, List.mem_cons]
  · rw [hafter.mem_iff, List.mem_cons]
  · exact (List.nodup_cons.1 hnodup).1 (heq ▸ List.mem_map_of_mem hy)
  · refine (hafter.map key).nodup_iff.2 ?_
    rw [List.map_cons, hkey]
    exact hnodup

/-- A start that is over with an exporter that was being started is still one of several for different endpoints. -/
theorem Starts.settle {attempts : List Attempt} {way : Nat} {a a' : Attempt} {id : ExporterId} {old new : Entry}
    {said : List Occurrence} (hs : b.Starts attempts) (hat : attempts[way]? = some a) (hendpoint : a'.endpoint = a.endpoint)
    (hown : ∀ x ∈ attempts, ∀ id ∈ x.phase.exporter?, b.endpointOf? id = some x.endpoint)
    (hphase : a.phase.exporter? = some id) (hover : a'.isOver = true) (touches : Touches b c id old new said)
    (hcurrent : ∀ x ∈ c.pool.current, x ∈ b.pool.current) (hnew : new.state = .running ∨ new.state = .stopped) :
    c.Starts (attempts.set way a') := by
  obtain ⟨others, hmem, hmem', hne, hnodup⟩ := mem_set_of_key hat hendpoint hs.once
  have ha : a ∈ attempts := List.mem_of_getElem? hat
  have hunmade : a'.phase.isUnmade = false ∧ a'.phase.exporter? = none := by
    unfold Attempt.isOver at hover
    rcases h : a'.phase with _ | _ | _ | _ | _ <;> simp [h, AttemptPhase.isUnmade, AttemptPhase.exporter?] at hover ⊢
  refine ⟨hnodup, fun x hx hx' y hy => ?_, fun x entry he => ?_, fun x entry he => ?_⟩
  · rcases (hmem' x).1 hx with rfl | hx
    · rw [hunmade.1] at hx'
      cases hx'
    · exact hs.absent x ((hmem x).2 (.inr hx)) hx' y (hcurrent y hy)
  · by_cases hxid : x = id
    · subst hxid
      rw [touches.after] at he
      injection he with he
      subst he
      refine ⟨fun hstate => ?_, fun ⟨y, hy, hy'⟩ => ?_⟩
      · rcases hnew with hnew | hnew <;> rw [hnew] at hstate <;> cases hstate
      · rcases (hmem' y).1 hy with rfl | hy
        · rw [hunmade.2] at hy'
          cases hy'
        · have hboth := (hown y ((hmem y).2 (.inr hy)) x hy').symm.trans (hown a ha x hphase)
          exact absurd (Option.some.inj hboth) (hne y hy)
    · rw [touches.entries x hxid] at he
      rw [hs.starting x entry he]
      refine ⟨fun ⟨y, hy, hy'⟩ => ?_, fun ⟨y, hy, hy'⟩ => ?_⟩
      · rcases (hmem y).1 hy with rfl | hy
        · rw [hphase] at hy'
          exact absurd (Option.some.inj hy').symm hxid
        · exact ⟨y, (hmem' y).2 (.inr hy), hy'⟩
      · rcases (hmem' y).1 hy with rfl | hy
        · rw [hunmade.2] at hy'
          cases hy'
        · exact ⟨y, (hmem y).2 (.inr hy), hy'⟩
  · by_cases hxid : x = id
    · subst hxid
      rw [touches.after] at he
      injection he with he
      subst he
      rcases hnew with hnew | hnew <;> rw [hnew] <;> exact fun h => nomatch h
    · rw [touches.entries x hxid] at he
      exact hs.others x entry he

/-- A start without an exporter that does not get one is still one of several for different endpoints. -/
theorem Starts.same {attempts : List Attempt} {way : Nat} {a a' : Attempt} (hs : b.Starts attempts)
    (hat : attempts[way]? = some a) (hendpoint : a'.endpoint = a.endpoint) (hunmade : a.phase.isUnmade = true)
    (hnone : a.phase.exporter? = none) (hnone' : a'.phase.exporter? = none) (same : SameExporters b c) :
    c.Starts (attempts.set way a') := by
  obtain ⟨others, hmem, hmem', _, hnodup⟩ := mem_set_of_key hat hendpoint hs.once
  have hentry : ∀ x, c.pool.entry? x = b.pool.entry? x := fun x => by rw [Pool.entry?, same.made]; rfl
  refine ⟨hnodup, fun x hx hx' y hy => ?_, fun x entry he => ?_, fun x entry he => hs.others x entry (hentry x ▸ he)⟩
  · rw [same.current] at hy
    rcases (hmem' x).1 hx with rfl | hx
    · rw [hendpoint]
      exact hs.absent a (List.mem_of_getElem? hat) hunmade y hy
    · exact hs.absent x ((hmem x).2 (.inr hx)) hx' y hy
  · rw [hs.starting x entry (hentry x ▸ he)]
    constructor
    · rintro ⟨y, hy, hy'⟩
      rcases (hmem y).1 hy with rfl | hy
      · rw [hnone] at hy'
        cases hy'
      · exact ⟨y, (hmem' y).2 (.inr hy), hy'⟩
    · rintro ⟨y, hy, hy'⟩
      rcases (hmem' y).1 hy with rfl | hy
      · rw [hnone'] at hy'
        cases hy'
      · exact ⟨y, (hmem y).2 (.inr hy), hy'⟩

/-- A start that gets an exporter is still one of several for different endpoints. -/
theorem Starts.make {attempts : List Attempt} {way : Nat} {a a' : Attempt} {address : String} {plain : Bool}
    (hs : b.Starts attempts) (hat : attempts[way]? = some a) (hendpoint : a'.endpoint = a.endpoint)
    (hnone : a.phase.exporter? = none) (hsome : a'.phase.exporter? = some b.pool.nextId) (hmade' : a'.phase.isUnmade = false)
    (hmade : c.pool.made = b.pool.made ++ [Entry.make a.endpoint address plain])
    (hcurrent : c.pool.current = b.pool.current.filter (fun x => x.1 ≠ a.endpoint) ++ [(a.endpoint, b.pool.nextId)]) :
    c.Starts (attempts.set way a') := by
  obtain ⟨others, hmem, hmem', hne, hnodup⟩ := mem_set_of_key hat hendpoint hs.once
  refine ⟨hnodup, fun x hx hx' y hy => ?_, fun x entry he => ?_, fun x entry he => ?_⟩
  · rcases (hmem' x).1 hx with rfl | hx
    · rw [hmade'] at hx'
      cases hx'
    · rw [hcurrent] at hy
      rcases List.mem_append.1 hy with hy | hy
      · exact hs.absent x ((hmem x).2 (.inr hx)) hx' y (List.mem_filter.1 hy).1
      · rw [List.mem_singleton.1 hy]
        exact (hne x hx).symm
  · rcases entry?_of_make hmade he with ⟨he, hxid⟩ | ⟨rfl, rfl⟩
    · rw [hs.starting x entry he]
      refine ⟨fun ⟨y, hy, hy'⟩ => ?_, fun ⟨y, hy, hy'⟩ => ?_⟩
      · rcases (hmem y).1 hy with rfl | hy
        · rw [hnone] at hy'
          cases hy'
        · exact ⟨y, (hmem' y).2 (.inr hy), hy'⟩
      · rcases (hmem' y).1 hy with rfl | hy
        · rw [hsome] at hy'
          exact absurd (Option.some.inj hy').symm hxid
        · exact ⟨y, (hmem y).2 (.inr hy), hy'⟩
    · exact ⟨fun _ => ⟨a', (hmem' a').2 (.inl rfl), hsome⟩, fun _ => rfl⟩
  · rcases entry?_of_make hmade he with ⟨he, _⟩ | ⟨_, rfl⟩
    · exact hs.others x entry he
    · exact fun h => nomatch h

/-- After a step of one of them, the starts of a pass still account for the exporters. -/
theorem Starts.attemptStep {attempts : List Attempt} {way : Nat} {a a' : Attempt} (hs : b.Starts attempts)
    (hat : attempts[way]? = some a) (hendpoint : a'.endpoint = a.endpoint)
    (hown : ∀ x ∈ attempts, ∀ id ∈ x.phase.exporter?, b.endpointOf? id = some x.endpoint)
    (h : AttemptStep b a.endpoint a.phase c a'.phase) : c.Starts (attempts.set way a') := by
  obtain ⟨e, phase⟩ := a
  obtain ⟨e', phase'⟩ := a'
  dsimp only at h
  cases h with
  | call same => exact hs.same hat hendpoint rfl rfl rfl same
  | refuse same => exact hs.same hat hendpoint rfl rfl rfl same
  | make made current _ _ => exact hs.make hat hendpoint rfl rfl rfl made current
  | run touches current =>
    exact hs.settle hat hendpoint hown rfl rfl touches (fun x hx => current ▸ hx) (.inl rfl)
  | stumble touches current =>
    refine hs.settle hat hendpoint hown rfl rfl touches (fun x hx => ?_) (.inr rfl)
    rw [current] at hx
    exact (List.mem_filter.1 hx).1

/-- A step of a retirement brings its exporter as far as it says. -/
theorem RetirementStep.fits {id : ExporterId} {entry : Entry} {phase phase' : RetirementPhase} (hfits : phase.Fits entry)
    (hclosed : entry.state = .running → entry.closed = false) (h : RetirementStep b id entry phase c phase') :
    ∃ new said, Touches b c id entry new said ∧ phase'.Fits new ∧ new.state ≠ .starting := by
  have hstopping : ∀ {new : Entry}, new.state = .stopping → new.state ≠ .starting := fun h h' => by
    rw [h] at h'
    cases h'
  cases h with
  | mark touches _ => exact ⟨_, _, touches, ⟨rfl, hclosed hfits⟩, fun h => nomatch h⟩
  | drain before after touches _ =>
    have hbefore := (RetirementPhase.fits_iff_of_deadline? before entry).1 hfits
    exact ⟨_, _, touches, (RetirementPhase.fits_iff_of_deadline? after _).2 hbefore, hstopping hbefore.1⟩
  | close _ touches _ => exact ⟨_, _, touches, ⟨hfits.1, rfl⟩, hstopping hfits.1⟩
  | giveUp _ _ touches _ => exact ⟨_, _, touches, ⟨hfits.1, rfl⟩, hstopping hfits.1⟩
  | leave _ touches _ => exact ⟨_, _, touches, rfl, fun h => nomatch h⟩

/-- After a step of one of them, the retirements of a pass still account for the exporters. -/
theorem Retires.retirementStep {retirements : List Retirement} {way : Nat} {r r' : Retirement} {entry : Entry}
    (hr : b.Retires retirements) (hk : b.Kept) (hat : retirements[way]? = some r) (hid : r'.id = r.id)
    (made : b.pool.entry? r.id = some entry) (h : RetirementStep b r.id entry r.phase c r'.phase) :
    c.Retires (retirements.set way r') := by
  obtain ⟨others, hmem, hmem', hne, hnodup⟩ := mem_set_of_key hat hid hr.once
  obtain ⟨entry₀, he₀, hfits⟩ := hr.fits r (List.mem_of_getElem? hat)
  rw [made] at he₀
  injection he₀ with he₀
  subst he₀
  obtain ⟨new, said, touches, hfits', hnew⟩ := h.fits hfits (fun hstate => hk.unclosed r.id entry made (.inr hstate))
  refine ⟨hnodup, fun x hx => ?_, fun x entry' he hstate => ?_, fun x entry' he => ?_⟩
  · rcases (hmem' x).1 hx with rfl | hx
    · exact ⟨new, hid ▸ touches.after, hfits'⟩
    · obtain ⟨entry', he', hfits'⟩ := hr.fits x ((hmem x).2 (.inr hx))
      exact ⟨entry', by rw [touches.entries x.id (hne x hx)]; exact he', hfits'⟩
  · by_cases hxid : x = r.id
    · exact ⟨r', (hmem' r').2 (.inl rfl), hid.trans hxid.symm⟩
    · rw [touches.entries x hxid] at he
      obtain ⟨y, hy, hyid⟩ := hr.stopping x entry' he hstate
      rcases (hmem y).1 hy with rfl | hy
      · exact absurd hyid.symm hxid
      · exact ⟨y, (hmem' y).2 (.inr hy), hyid⟩
  · by_cases hxid : x = r.id
    · subst hxid
      rw [touches.after] at he
      injection he with he
      exact he ▸ hnew
    · rw [touches.entries x hxid] at he
      exact hr.others x entry' he

/-! ## Steps of passes -/

theorem ne_of_not_contains {p : Pool} {e : Endpoint} (h : p.contains e = false) : ∀ c ∈ p.current, c.1 ≠ e := by
  intro c hc heq
  have hnone : p.current.lookup e = none := by simpa [Pool.contains, Pool.find?] using h
  exact absurd (List.lookup_eq_none_iff.1 hnone c hc) (by simp [heq])

theorem nodup_missing (p : Pool) (wanted : List Endpoint) : (p.missing wanted).Nodup :=
  ((Endpoint.pairwise_normalize wanted).imp (fun h => h.2)).sublist List.filter_sublist

/-- The endpoints of the starts that a pass begins with are those that are missing. -/
theorem map_endpoint_missing (missing : List Endpoint) :
    (missing.map (fun e => Attempt.mk e .pending)).map Attempt.endpoint = missing := by
  rw [List.map_map]
  exact List.map_id' missing

/-- The starts of a pass that has just been let in are for the endpoints that have no exporter. -/
theorem Orderly.starts (hb : b.Orderly) (hfree : b.pool.gate.inside = none) (wanted : List Endpoint) :
    b.Starts ((b.pool.missing wanted).map (fun e => ⟨e, .pending⟩)) where
  once := by
    rw [map_endpoint_missing]
    exact nodup_missing b.pool wanted
  absent := fun a ha _ c hc => by
    obtain ⟨e, he, rfl⟩ := List.mem_map.1 ha
    exact ne_of_not_contains (by simpa using (List.mem_filter.1 he).2) c hc
  starting := fun id entry he => by
    refine ⟨fun hstate => ?_, fun ⟨a, ha, hid⟩ => ?_⟩
    · rcases hb.free hfree id entry he with h | h <;> rw [h] at hstate <;> cases hstate
    · obtain ⟨e, _, rfl⟩ := List.mem_map.1 ha
      cases hid
  others := fun id entry he hstate => by
    rcases hb.free hfree id entry he with h | h <;> rw [h] at hstate <;> cases hstate

theorem Kept.nodup_listed (hk : b.Kept) (hg : b.Grounded) : (b.pool.current.map Prod.snd).Nodup := by
  refine List.Nodup.map_on (fun x hx y hy heq => Prod.ext ?_ heq) hk.distinct.of_map
  have hx' := hg.current x hx
  rw [heq, hg.current y hy] at hx'
  exact (Option.some.inj hx').symm

theorem Kept.nodup_extra (hk : b.Kept) (hg : b.Grounded) (wanted : List Endpoint) :
    (((b.pool.extra wanted).map (fun id => Retirement.mk id .pending)).map Retirement.id).Nodup := by
  rw [List.map_map]
  refine (List.map_id' (b.pool.extra wanted)).symm ▸ ?_
  exact (hk.nodup_listed hg).sublist (List.filter_sublist.map Prod.snd)

/-- Once all its starts are over, what a pass has to retire are running exporters. -/
theorem Starts.retires {attempts : List Attempt} (hs : b.Starts attempts) (hk : b.Kept) (hg : b.Grounded)
    (hover : attempts.all Attempt.isOver = true) (wanted : List Endpoint) :
    b.Retires ((b.pool.extra wanted).map (fun id => ⟨id, .pending⟩)) := by
  have hnone : ∀ id entry, b.pool.entry? id = some entry → entry.state ≠ .starting := fun id entry he hstate => by
    obtain ⟨a, ha, hid⟩ := (hs.starting id entry he).1 hstate
    have hend := List.all_eq_true.1 hover a ha
    unfold Attempt.isOver at hend
    rcases h : a.phase with _ | _ | _ | _ | _ <;> simp [h, AttemptPhase.exporter?] at hend hid
  refine ⟨hk.nodup_extra hg wanted, fun r hr => ?_, fun id entry he hstate => absurd hstate (hs.others id entry he), hnone⟩
  · obtain ⟨id, hid, rfl⟩ := List.mem_map.1 hr
    obtain ⟨c, hc, rfl⟩ := List.mem_map.1 hid
    have hmem : c ∈ b.pool.current := (List.mem_filter.1 hc).1
    obtain ⟨entry, he, hendpoint⟩ := entry?_of_endpointOf? (hg.current c hmem)
    have hlive : entry.state ≠ .stopped := (hk.listed c.2 entry he).2 (hendpoint ▸ hmem)
    refine ⟨entry, he, ?_⟩
    rcases hstate : entry.state with _ | _ | _ | _
    · exact absurd hstate (hnone c.2 entry he)
    · exact hstate
    · exact absurd hstate (hs.others c.2 entry he)
    · exact absurd hstate hlive

/-- Once all its retirements are over, a pass leaves every exporter running or stopped. -/
theorem Retires.free {retirements : List Retirement} (hr : b.Retires retirements)
    (hover : retirements.all Retirement.isOver = true) (id : ExporterId) (entry : Entry) (he : b.pool.entry? id = some entry) :
    entry.state = .running ∨ entry.state = .stopped := by
  rcases hstate : entry.state with _ | _ | _ | _
  · exact absurd hstate (hr.others id entry he)
  · exact .inl rfl
  · obtain ⟨r, hmem, rfl⟩ := hr.stopping id entry he hstate
    obtain ⟨entry', he', hfits⟩ := hr.fits r hmem
    rw [he] at he'
    injection he' with he'
    subst he'
    have hretired : r.phase = .retired := of_decide_eq_true (List.all_eq_true.1 hover r hmem)
    rw [hretired] at hfits
    rw [RetirementPhase.Fits, hstate] at hfits
    cases hfits
  · exact .inr rfl

theorem Orderly.concludePass (hb : b.Orderly) {t : TaskId} {rest : List (Work α)} {p : Pass} {added failed : List Endpoint}
    {retirements : List Retirement} (hd : b.duty? t = some (.pass p)) (hphase : p.phase = .retiring added failed retirements)
    (hended : retirements.all Retirement.isOver = true)
    (hguarded : (b.concludePass t rest (b.passOutcome added failed retirements)).Guarded) :
    (b.concludePass t rest (b.passOutcome added failed retirements)).Orderly := by
  have hr := hb.retires_of_retiring hd hphase
  have hinside := hb.turn t p hd (fun h => nomatch hphase.symm.trans h)
  obtain ⟨metrics, heq⟩ := concludePass_eq b t rest (b.passOutcome added failed retirements)
  have hleft : (b.concludePass t rest (b.passOutcome added failed retirements)).pool.gate.inside = none := by
    rw [heq]
    exact if_pos hinside
  have hsame : Ageless b (b.concludePass t rest (b.passOutcome added failed retirements)) := by
    rw [heq]
    exact .of_eq rfl rfl rfl
  refine ⟨hb.kept.ageless hsame, hguarded.turn, fun _ id entry' he' => ?_, fun t' ht' => ?_⟩
  · obtain ⟨entry, he, hlife⟩ := hsame.entry_before he'
    rw [hlife.state]
    exact hr.free hended id entry he
  · rw [hleft] at ht'
    cases ht'

theorem Orderly.passStep {b' : Balancer α} (hb : b.Orderly) (hg : b.Grounded) {t : TaskId} {rest : List (Work α)} {p : Pass}
    (hw : b.works t = .pass p :: rest) (hrest : ∀ w ∈ rest, w.isInert = true) (h : PassStep b t rest p b') : b'.Orderly := by
  have hd := duty?_of_works hw rfl
  have hown : (Work.pass p : Work α).IsGrounded b := hg.duties t _ hd
  have hguarded := hb.guarded.passStep hw hrest h
  obtain ⟨target, publish, phase⟩ := p
  have hgo : ∀ {c : Balancer α} {p' : Pass}, c.tasks = b.tasks → (c.withWorks t (.pass p' :: rest)).Guarded → c.Kept →
      p'.phase.Accounts c → (c.withWorks t (.pass p' :: rest)).Orderly := by
    intro c p' hts hguarded hkept haccounts
    have hr : Reworks b (c.withWorks t (.pass p' :: rest)) t (.pass p' :: rest) := reworks_withWorks (lt_of_works hw) hts
    have hsame : Ageless c (c.withWorks t (.pass p' :: rest)) := .of_eq rfl rfl rfl
    have hinside := hguarded.turn t p' (hr.duty?_cons rfl) haccounts.ne_queued
    refine ⟨hkept.ageless hsame, hguarded.turn, fun hfree => ?_, fun t' ht' => ?_⟩
    · rw [hinside] at hfree
      cases hfree
    · obtain rfl : t = t' := Option.some.inj (hinside.symm.trans ht')
      exact ⟨p', hr.duty?_cons rfl, accounts_ageless haccounts hsame⟩
  cases h with
  | @enter gate wanted attempts phase_eq enters _ attempts_eq =>
    have hfree := ((Gate.enter?_eq_some_iff _ _ _).1 enters).1
    have hsame : Ageless b { b with pool := { b.pool with gate := gate } } := .of_eq rfl rfl rfl
    refine hgo rfl hguarded (hb.kept.ageless hsame) (accounts_ageless ?_ hsame)
    rw [attempts_eq]
    exact hb.starts hfree wanted
  | @attempt wanted attempts way a a' c phase_eq at_way endpoint frame step =>
    have hs := hb.starts_of_adding hd phase_eq
    dsimp only at phase_eq
    subst phase_eq
    have ha := List.mem_of_getElem? at_way
    refine hgo frame.tasks hguarded ?_ (hs.attemptStep at_way endpoint hown step)
    refine hb.kept.attemptStep step (hs.absent a ha) (fun id hid entry he => ⟨(hs.starting id entry he).2 ⟨a, ha, hid⟩, ?_⟩)
    have hendpoint := hown a ha id hid
    rw [endpointOf?_eq_some he] at hendpoint
    exact Option.some.inj hendpoint
  | @publish wanted attempts phase_eq ended =>
    have hs := hb.starts_of_adding hd phase_eq
    dsimp only at phase_eq
    subst phase_eq
    have hsame : Ageless b (b.publishPass ⟨target, publish, .adding wanted attempts⟩ wanted attempts).1 := .of_eq rfl rfl rfl
    have hr : PassPhase.Accounts b (.retiring (Pass.endpointsIn attempts .started) (Pass.endpointsIn attempts .failed)
        ((b.pool.extra wanted).map (fun id => ⟨id, .pending⟩))) := hs.retires hb.kept hg ended wanted
    exact hgo rfl hguarded (hb.kept.ageless hsame) (accounts_ageless hr hsame)
  | @retire added failed retirements way r r' entry c phase_eq at_way id_eq frame made step =>
    have hr := hb.retires_of_retiring hd phase_eq
    dsimp only at phase_eq
    subst phase_eq
    obtain ⟨entry₀, he₀, hfits⟩ := hr.fits r (List.mem_of_getElem? at_way)
    obtain rfl := Option.some.inj (made.symm.trans he₀)
    exact hgo frame.tasks hguarded (hb.kept.retirementStep hfits.suits step) (hr.retirementStep hb.kept at_way id_eq made step)
  | @conclude added failed retirements phase_eq ended =>
    exact hb.concludePass hd phase_eq ended hguarded

end Passes

/-! ## Runs that finish their passes -/

/-- Every change leaves an orderly state, unless it gives a pass up that is under way. -/
theorem Orderly.change {b b' : Balancer α} (hb : b.Orderly) (hg : b.Grounded) {a : Action α}
    (ha : ∀ t p, a = .abandon t → b.duty? t = some (.pass p) → p.phase = .queued) (h : Change b a b') : b'.Orderly := by
  rcases h.aside_or_pass hg hb.inside ha with haside | ⟨t, way, p, rest, _, hw, hrest, hstep⟩
  · exact hb.aside haside
  · exact hb.passStep hg hw hrest hstep

end Balancer

/-- Whether no pass of a run is given up once it was let in. -/
def Run.FinishesPasses (r : Run α) : Prop :=
  ∀ n t p, r.action n = .abandon t → (r.state n).duty? t = some (.pass p) → p.phase = .queued

/-- A run finishes its passes if its script gives no task up. -/
theorem Run.finishesPasses_ofScript {backends : Backends} {script : List (Nat × Action Unit)} {mover : Nat → TaskId}
    (h : ∀ x ∈ script, x.2.keepsTasks = true) : (ofScript backends script mover).FinishesPasses := fun n t p haction _ => by
  have hmem := mem_of_ofScript (n := n) (fun t' way hmove => nomatch haction.symm.trans hmove)
  rw [haction] at hmem
  exact nomatch h _ hmem

theorem Run.orderly (r : Run α) (hr : r.FinishesPasses) : ∀ n, (r.state n).Orderly
  | 0 => Balancer.orderly_new _ _ _ _
  | n + 1 => (r.orderly hr n).change (r.grounded n) (hr n) (r.change n)

end TelemetryRouter
