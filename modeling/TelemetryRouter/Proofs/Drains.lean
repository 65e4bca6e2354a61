import TelemetryRouter.Proofs.Stages

/-!
# Drains

When an exporter is to be stopped, its drain gets a deadline, as far away as the settings say. The shutdown is called when there are no
leases, or when the deadline is over; only then does the drain time out.
-/

namespace TelemetryRouter

variable {α : Type}

namespace Balancer

/-- Whether the retirement of an exporter by the pass under way is in a phase. -/
def Retiring (b : Balancer α) (id : ExporterId) (phase : RetirementPhase) : Prop :=
  ∃ t p added failed retirements, b.duty? t = some (.pass p) ∧ p.phase = .retiring added failed retirements ∧
    Retirement.mk id phase ∈ retirements

section Deadlines

variable {b b' : Balancer α} {id : ExporterId}

/-- What happens beside the passes brings no retirement on. -/
theorem Aside.retiring_iff (h : Aside b b') (phase : RetirementPhase) : b'.Retiring id phase ↔ b.Retiring id phase := by
  constructor
  · rintro ⟨t, p, added, failed, retirements, hd, hphase, hmem⟩
    exact ⟨t, p, added, failed, retirements, (h.passes t p (by rw [hphase]; exact fun h => nomatch h)).1 hd, hphase, hmem⟩
  · rintro ⟨t, p, added, failed, retirements, hd, hphase, hmem⟩
    exact ⟨t, p, added, failed, retirements, (h.passes t p (by rw [hphase]; exact fun h => nomatch h)).2 hd, hphase, hmem⟩

/-- When one task goes on to other works, the retirements of the passes of other tasks stay as they are. -/
theorem Reworks.retiring {t : TaskId} {ws : List (Work α)} {phase : RetirementPhase} (h : b'.Retiring id phase)
    (hr : Reworks b b' t ws) : b.Retiring id phase ∨ ∃ p added failed retirements, b'.duty? t = some (.pass p) ∧
      p.phase = .retiring added failed retirements ∧ Retirement.mk id phase ∈ retirements := by
  obtain ⟨t', p, added, failed, retirements, hd, hphase, hmem⟩ := h
  by_cases hne : t' = t
  · exact .inr ⟨p, added, failed, retirements, hne ▸ hd, hphase, hmem⟩
  · exact .inl ⟨t', p, added, failed, retirements, hr.duty?_of_ne hne ▸ hd, hphase, hmem⟩

/-- When one task goes on with a pass, a retirement is one of that pass, or went on before. -/
theorem Reworks.retiring_pass {t : TaskId} {p : Pass} {rest : List (Work α)} {phase : RetirementPhase} (h : b'.Retiring id phase)
    (hr : Reworks b b' t (.pass p :: rest)) : b.Retiring id phase ∨ ∃ added failed retirements,
      p.phase = .retiring added failed retirements ∧ Retirement.mk id phase ∈ retirements := by
  refine (hr.retiring h).imp_right (fun ⟨q, added, failed, retirements, hq, hphase, hmem⟩ => ?_)
  obtain rfl := pass_eq_of_duty? (hr.duty?_cons rfl) hq
  exact ⟨added, failed, retirements, hphase, hmem⟩

/-- A drain that goes on after a step of its retirement went on before, with the same deadline, or has just begun. -/
theorem RetirementStep.drains {entry : Entry} {phase phase' : RetirementPhase} (hfits : phase.Fits entry)
    (h : RetirementStep b id entry phase b' phase') {deadline : Instant} (hdeadline : phase'.deadline? = some deadline) :
    phase.deadline? = some deadline ∨ ((∃ entry, b.pool.entry? id = some entry ∧ entry.state = .running) ∧
      (∃ entry, b'.pool.entry? id = some entry ∧ entry.state = .stopping) ∧
        deadline = Instant.after b.now b.options.settings.drainTimeout) := by
  cases h with
  | mark touches _ =>
    injection hdeadline with hdeadline
    exact .inr ⟨⟨entry, touches.before, hfits⟩, ⟨_, touches.after, rfl⟩, hdeadline.symm⟩
  | drain before after _ _ =>
    rw [after] at hdeadline
    exact .inl (before.trans hdeadline)
  | close _ _ _ => cases hdeadline
  | giveUp _ _ _ _ => cases hdeadline
  | leave _ _ _ => cases hdeadline

/-- A drain that goes on after a step of a pass went on before, with the same deadline, or has just begun. -/
theorem PassStep.drains (hb : b.Orderly) {t : TaskId} {rest : List (Work α)} {p : Pass} (hw : b.works t = .pass p :: rest)
    (hrest : ∀ w ∈ rest, w.isInert = true) (h : PassStep b t rest p b') {phase' : RetirementPhase} {deadline : Instant}
    (hretiring : b'.Retiring id phase') (hdeadline : phase'.deadline? = some deadline) :
    (∃ phase, b.Retiring id phase ∧ phase.deadline? = some deadline) ∨
      ((∃ entry, b.pool.entry? id = some entry ∧ entry.state = .running) ∧
        (∃ entry, b'.pool.entry? id = some entry ∧ entry.state = .stopping) ∧
          deadline = Instant.after b.now b.options.settings.drainTimeout) := by
  have ht := lt_of_works hw
  have hd := duty?_of_works hw rfl
  cases h with
  | enter _ _ _ _ =>
    rcases Reworks.retiring_pass hretiring (reworks_withWorks ht rfl) with hbefore | ⟨_, _, _, hphase, _⟩
    · exact .inl ⟨phase', hbefore, hdeadline⟩
    · cases hphase
  | attempt _ _ _ frame _ =>
    rcases Reworks.retiring_pass hretiring (reworks_withWorks ht frame.tasks) with hbefore | ⟨_, _, _, hphase, _⟩
    · exact .inl ⟨phase', hbefore, hdeadline⟩
    · cases hphase
  | publish _ _ =>
    rcases Reworks.retiring_pass hretiring (reworks_withWorks ht rfl) with hbefore | ⟨_, _, _, hphase, hmem⟩
    · exact .inl ⟨phase', hbefore, hdeadline⟩
    · injection hphase with _ _ hretirements
      rw [← hretirements] at hmem
      obtain ⟨x, _, hx⟩ := List.mem_map.1 hmem
      injection hx with _ hx
      subst hx
      cases hdeadline
  | @retire added failed retirements way r r' entry c phase_eq at_way id_eq frame made step =>
    rcases Reworks.retiring_pass hretiring (reworks_withWorks ht frame.tasks) with hbefore | ⟨_, _, _, hphase, hmem⟩
    · exact .inl ⟨phase', hbefore, hdeadline⟩
    · injection hphase with _ _ hretirements
      rw [← hretirements] at hmem
      rcases List.mem_or_eq_of_mem_set hmem with hmem | hmem
      · exact .inl ⟨phase', ⟨t, p, added, failed, retirements, hd, phase_eq, hmem⟩, hdeadline⟩
      · subst hmem
        have hbefore : r ∈ retirements := List.mem_of_getElem? at_way
        obtain ⟨entry₀, he₀, hfits⟩ := (hb.retires_of_retiring hd phase_eq).fits r hbefore
        rw [made] at he₀
        injection he₀ with he₀
        subst he₀
        dsimp only at id_eq step
        subst id_eq
        rcases step.drains hfits hdeadline with hsame | hmark
        · exact .inl ⟨r.phase, ⟨t, p, added, failed, retirements, hd, phase_eq, hbefore⟩, hsame⟩
        · exact .inr hmark
  | @conclude added failed retirements _ _ =>
    have hr := reworks_concludePass ht rest (b.passOutcome added failed retirements)
    rcases hr.retiring hretiring with hbefore | ⟨q, _, _, _, hq, _, _⟩
    · exact .inl ⟨phase', hbefore, hdeadline⟩
    · rw [hr.duty?_inert hrest] at hq
      cases hq

/-- Touching one exporter closes no other, and not that one if it stays open. -/
theorem Touches.closed_eq {x : ExporterId} {old new : Entry} {said : List Occurrence} (h : Touches b b' x old new said)
    (hclosed : new.closed = old.closed) {entry entry' : Entry} (he : b.pool.entry? id = some entry)
    (he' : b'.pool.entry? id = some entry') : entry'.closed = entry.closed := by
  by_cases hid : id = x
  · subst hid
    rw [h.before] at he
    rw [h.after] at he'
    injection he with he
    injection he' with he'
    rw [← he, ← he', hclosed]
  · rw [h.entries id hid, he] at he'
    injection he' with he'
    rw [he']

theorem AttemptStep.closed_eq {e : Endpoint} {phase phase' : AttemptPhase} (h : AttemptStep b e phase b' phase')
    {entry entry' : Entry} (he : b.pool.entry? id = some entry) (he' : b'.pool.entry? id = some entry') :
    entry'.closed = entry.closed := by
  have hsame : b'.pool.entry? id = b.pool.entry? id → entry'.closed = entry.closed := fun heq => by
    rw [heq, he] at he'
    injection he' with he'
    rw [he']
  cases h with
  | call same => exact hsame (by rw [Pool.entry?, same.made]; rfl)
  | refuse same => exact hsame (by rw [Pool.entry?, same.made]; rfl)
  | make made _ _ _ =>
    refine hsame ?_
    rw [Pool.entry?, made, List.getElem?_append_left (List.getElem?_eq_some_iff.1 he).1]
    rfl
  | run touches _ => exact touches.closed_eq rfl he he'
  | stumble touches _ => exact touches.closed_eq rfl he he'

/-- A step of a pass closes an exporter only if that has no leases, or if its drain times out. -/
theorem PassStep.closes {t : TaskId} {rest : List (Work α)} {p : Pass} (hw : b.works t = .pass p :: rest)
    (h : PassStep b t rest p b') {entry entry' : Entry} (he : b.pool.entry? id = some entry)
    (he' : b'.pool.entry? id = some entry') (hopen : entry.closed = false) (hclosed : entry'.closed = true) :
    entry.leases = 0 ∨ ∃ deadline wake, b.Retiring id (.waiting deadline) ∧ Instant.reached deadline b.now = true ∧
      b'.Retiring id (.closing wake) := by
  have ht := lt_of_works hw
  have hd := duty?_of_works hw rfl
  have hne : entry'.closed ≠ entry.closed := by
    rw [hopen, hclosed]
    exact fun h => nomatch h
  have hsame : b'.pool.entry? id = b.pool.entry? id → False := fun heq => by
    rw [heq, he] at he'
    injection he' with he'
    exact hne (congrArg Entry.closed he'.symm)
  cases h with
  | enter _ _ _ _ => exact (hsame rfl).elim
  | attempt _ _ _ _ step => exact absurd (step.closed_eq he he') hne
  | publish _ _ => exact (hsame rfl).elim
  | @retire added failed retirements way r r' entry₀ c phase_eq at_way id_eq frame made step =>
    have hr : Reworks b (c.withWorks t (.pass { p with phase := .retiring added failed (retirements.set way r') } :: rest)) t _ :=
      reworks_withWorks ht frame.tasks
    have hd' := hr.duty?_cons rfl
    have hlt : way < retirements.length := (List.getElem?_eq_some_iff.1 at_way).1
    have hid : ∀ {new : Entry} {said : List Occurrence}, Touches b c r.id entry₀ new said → id = r.id := fun touches => by
      by_cases hid : id = r.id
      · exact hid
      · exact absurd (touches.entries id hid) hsame
    have hafter : r' ∈ retirements.set way r' := List.mem_set hlt r'
    obtain ⟨x, phase⟩ := r
    obtain ⟨x', phase'⟩ := r'
    dsimp only at id_eq step hid made
    subst id_eq
    cases step with
    | mark touches _ => exact absurd (touches.closed_eq rfl he he') hne
    | drain _ _ touches _ => exact absurd (touches.closed_eq rfl he he') hne
    | close idle touches _ =>
      have hx := hid touches
      subst hx
      rw [made] at he
      injection he with he
      exact .inl (he ▸ idle)
    | giveUp _ late touches _ =>
      have hx := hid touches
      subst hx
      exact .inr ⟨_, _, ⟨t, p, added, failed, retirements, hd, phase_eq, List.mem_of_getElem? at_way⟩, late,
        ⟨t, _, added, failed, _, hd', rfl, hafter⟩⟩
    | leave _ touches _ => exact absurd (touches.closed_eq rfl he he') hne
  | @conclude added failed retirements _ _ =>
    obtain ⟨metrics, heq⟩ := concludePass_eq b t rest (b.passOutcome added failed retirements)
    exact (hsame (by rw [heq]; rfl)).elim

end Deadlines

end Balancer

/-! ## Drains in a run -/

namespace Run

/-- A drain that goes on has the deadline that it got in the step in which its exporter was marked. -/
theorem drain_began (r : Run α) (hr : r.FinishesPasses) (id : ExporterId) (n : Nat) :
    ∀ phase deadline, (r.state n).Retiring id phase → phase.deadline? = some deadline → ∃ k, k < n ∧
      (∃ entry, (r.state k).pool.entry? id = some entry ∧ entry.state = .running) ∧
      (∃ entry, (r.state (k + 1)).pool.entry? id = some entry ∧ entry.state = .stopping) ∧
      deadline = Instant.after (r.state k).now r.options.settings.drainTimeout := by
  induction n with
  | zero =>
    rintro phase deadline ⟨t, p, _, _, _, hd, _⟩ _
    cases hd
  | succ n ih =>
    intro phase deadline hretiring hdeadline
    have hbefore : (∃ phase, (r.state n).Retiring id phase ∧ phase.deadline? = some deadline) →
        ∃ k, k < n + 1 ∧ (∃ entry, (r.state k).pool.entry? id = some entry ∧ entry.state = .running) ∧
          (∃ entry, (r.state (k + 1)).pool.entry? id = some entry ∧ entry.state = .stopping) ∧
          deadline = Instant.after (r.state k).now r.options.settings.drainTimeout := by
      rintro ⟨phase, hretiring, hdeadline⟩
      obtain ⟨k, hk, hmark⟩ := ih phase deadline hretiring hdeadline
      exact ⟨k, Nat.lt_succ_of_lt hk, hmark⟩
    rcases (r.change n).aside_or_pass (r.grounded n) (r.orderly hr n).inside (hr n) with haside | ⟨t, _, p, rest, _, hw, hrest, hstep⟩
    · exact hbefore ⟨phase, (haside.retiring_iff phase).1 hretiring, hdeadline⟩
    · rcases hstep.drains (r.orderly hr n) hw hrest hretiring hdeadline with hsame | ⟨hrunning, hstopping, heq⟩
      · exact hbefore hsame
      · exact ⟨n, Nat.lt_succ_self n, hrunning, hstopping, by rw [heq, r.options_state n]⟩

end Run

end TelemetryRouter
