import TelemetryRouter.Proofs.Rounds

/-!
# The last start of an endpoint

An exporter comes to run only by a start that succeeds. So an endpoint with a running exporter is one whose last start has not
failed, and when no pass is under way the pool has exporters for just those members of the ring whose last start has not failed.
-/

namespace TelemetryRouter

variable {α : Type}

namespace Balancer

section Runs

variable {b b' c : Balancer α} {e : Endpoint}

theorem Ageless.runs_iff (h : Ageless b b') : b'.Runs e ↔ b.Runs e := by
  refine ⟨fun ⟨id, entry', hmem, he', hstate⟩ => ?_, fun hruns => hruns.ageless h⟩
  obtain ⟨entry, he, hlife⟩ := h.entry_before he'
  exact ⟨id, entry, h.current ▸ hmem, he, hlife.state ▸ hstate⟩

theorem AttemptStep.ne_started {phase phase' : AttemptPhase} (h : AttemptStep b e phase c phase') : phase ≠ .started := by
  cases h <;> exact fun h => nomatch h

/-- A start for an endpoint with a running exporter has succeeded. -/
theorem Covered.started_of_runs {failed : Endpoint → Prop} (hb : b.Covered failed) (ho : b.Orderly) {phase : AttemptPhase}
    (hattempting : b.Attempting e phase) (hruns : b.Runs e) : phase = .started := by
  obtain ⟨t, p, wanted, attempts, hd, hadding, hmem⟩ := hattempting
  have hs := ho.starts_of_adding hd hadding
  have hreached : b.Reached e phase := (hb.covers hd hadding).2.reached _ hmem
  cases phase with
  | pending => exact absurd hreached hruns.not_lacks
  | creating _ _ _ => exact absurd hreached hruns.not_lacks
  | failed => exact absurd hreached hruns.not_lacks
  | started => rfl
  | starting id wake =>
    obtain ⟨id', entry, hlisted, he, hstate⟩ := hruns
    have hid : id' = id := ho.kept.eq_of_mem hlisted hreached
    have hstarting := (hs.starting id' entry he).2 ⟨_, hmem, by rw [hid]; rfl⟩
    rw [hstate] at hstarting
    cases hstarting

/-- After a step of a start, the running exporters of other endpoints are those that ran before. -/
theorem AttemptStep.runs_before {x : Endpoint} {phase phase' : AttemptPhase} (h : AttemptStep b e phase c phase') (hx : x ≠ e)
    (hg : b.Grounded) (hown : ∀ id ∈ phase.exporter?, b.endpointOf? id = some e) (hruns : c.Runs x) : b.Runs x := by
  obtain ⟨id, entry, hmem, he, hstate⟩ := hruns
  have hlisted := (h.mem_current_iff hx).1 hmem
  have hendpoint := hg.current _ hlisted
  refine ⟨id, entry, hlisted, h.entry?_before (fun hid => hx ?_) (fun hid => hx ?_) he, hstate⟩
  · exact Option.some.inj (hendpoint.symm.trans (hown id hid))
  · exact Option.some.inj ((h.keeps id x hendpoint).symm.trans (h.grounded id hid))

/-- An exporter that runs after a step of a retirement ran before. -/
theorem RetirementStep.runs_before {id : ExporterId} {entry : Entry} {phase phase' : RetirementPhase}
    (h : RetirementStep b id entry phase c phase') (hruns : c.Runs e) : b.Runs e := by
  obtain ⟨id', entry', hmem, he, hstate⟩ := hruns
  have htouched : ∀ {new : Entry} {said : List Occurrence}, Touches b c id entry new said →
      (new.state = .running → entry.state = .running) → ∃ old, b.pool.entry? id' = some old ∧ old.state = .running := by
    intro new said touches hnew
    by_cases hid : id' = id
    · subst hid
      rw [touches.after] at he
      injection he with he
      exact ⟨entry, touches.before, hnew (he ▸ hstate)⟩
    · rw [touches.entries id' hid] at he
      exact ⟨entry', he, hstate⟩
  have hlisted := h.mem_current hmem
  have hbefore : ∃ old, b.pool.entry? id' = some old ∧ old.state = .running := by
    cases h with
    | mark touches _ => exact htouched touches (fun h => nomatch h)
    | drain _ _ touches _ => exact htouched touches (fun h => h)
    | close _ touches _ => exact htouched touches (fun h => h)
    | giveUp _ _ touches _ => exact htouched touches (fun h => h)
    | leave _ touches _ => exact htouched touches (fun h => nomatch h)
  obtain ⟨old, hold, hrunning⟩ := hbefore
  exact ⟨id', old, hlisted, hold, hrunning⟩

theorem Orderly.attempting_iff_insider (ho : b.Orderly) {t : TaskId} {p : Pass} (h : b.insider? = some (t, p))
    (phase : AttemptPhase) :
    b.Attempting e phase ↔ ∃ wanted attempts, p.phase = .adding wanted attempts ∧ Attempt.mk e phase ∈ attempts :=
  ho.attempting_iff (insider?_eq_some_iff.1 h).2 (ho.ne_queued h)

/-- An endpoint gets a running exporter only by a start that succeeds. -/
theorem Passing.runs_or_comes {failed' : Endpoint → Prop} (h : Passing b b') (ho : b.Orderly) (ho' : b'.Orderly) (hg : b.Grounded)
    (hb' : b'.Covered failed') (hruns : b'.Runs e) :
    b.Runs e ∨ (b'.Attempting e .started ∧ ¬ b.Attempting e .started) := by
  cases h with
  | aside ageless _ _ _ => exact .inl (ageless.runs_iff.1 hruns)
  | enter _ _ _ _ _ ageless _ => exact .inl (ageless.runs_iff.1 hruns)
  | publish _ _ _ _ ageless _ => exact .inl (ageless.runs_iff.1 hruns)
  | conclude _ _ _ _ ageless _ _ => exact .inl (ageless.runs_iff.1 hruns)
  | retire _ _ _ _ _ _ step ageless _ => exact .inl (step.runs_before (ageless.runs_iff.1 hruns))
  | @attempt t p wanted attempts way a a' c before phase after at_way endpoint step ageless _ =>
    have hd := (insider?_eq_some_iff.1 before).2
    have ha : a ∈ attempts := List.mem_of_getElem? at_way
    by_cases he : e = a.endpoint
    · subst he
      have hlt := (List.getElem?_eq_some_iff.1 at_way).1
      have hafter : b'.Attempting a.endpoint a'.phase := by
        rw [ho'.attempting_iff_insider after]
        refine ⟨wanted, attempts.set way a', rfl, ?_⟩
        rw [← endpoint]
        exact List.mem_iff_getElem?.2 ⟨way, List.getElem?_set_self hlt⟩
      have hstarted := hb'.started_of_runs ho' hafter hruns
      rw [hstarted] at hafter
      exact .inr ⟨hafter, fun hbefore => step.ne_started ((ho.attempting_own hd phase ha _).1 hbefore).symm⟩
    · have hgrounded := hg.duties t _ hd
      unfold Work.IsGrounded at hgrounded
      dsimp only at hgrounded
      rw [phase] at hgrounded
      exact .inl (step.runs_before he hg (hgrounded a ha) (ageless.runs_iff.1 hruns))

end Runs

end Balancer

namespace Run

section Aligned

variable (r : Run α) (hr : r.FinishesPasses) (ha : r.KeepsAligned) {e : Endpoint}

include hr ha

/-- The last start of an endpoint with a running exporter has not failed. -/
theorem not_lastFailed (n : Nat) (hruns : (r.state n).Runs e) : ¬ r.LastFailed e n := by
  induction n with
  | zero =>
    rintro ⟨k, hk, _⟩
    exact absurd hk (Nat.not_lt_zero k)
  | succ n ih =>
    rintro ⟨k, hk, hfails, hlast⟩
    rcases Nat.lt_or_eq_of_le (Nat.le_of_lt_succ hk) with hkn | rfl
    · rcases (r.passing hr n).runs_or_comes (r.orderly hr n) (r.orderly hr (n + 1)) (r.grounded n) (r.covered hr ha (n + 1)) hruns
        with hbefore | hcomes
      · exact ih hbefore ⟨k, hkn, hfails, fun j hkj hjn => hlast j hkj (Nat.lt_succ_of_lt hjn)⟩
      · exact (hlast n hkn (Nat.lt_succ_self n)).1 hcomes
    · cases (r.covered hr ha (k + 1)).started_of_runs (r.orderly hr (k + 1)) hfails.1 hruns

/-- When no pass is under way, the pool has exporters for the members of the ring whose last start has not failed. -/
theorem listed_iff {n : Nat} (hfree : (r.state n).pool.gate.inside = none) :
    (∃ id, (e, id) ∈ (r.state n).pool.current) ↔ e ∈ (r.state n).ring.endpoints ∧ ¬ r.LastFailed e n := by
  have hb := r.covered hr ha n
  have ho := r.orderly hr n
  constructor
  · rintro ⟨id, hmem⟩
    exact ⟨hb.within hfree _ hmem, r.not_lastFailed hr ha n (ho.runs_of_free (r.grounded n) hfree hmem)⟩
  · rintro ⟨hring, hlast⟩
    rcases hb.served e hring with ⟨id, _, hmem, _⟩ | ⟨hfailed, _⟩
    · exact ⟨id, hmem⟩
    · exact absurd hfailed hlast

end Aligned

end Run

end TelemetryRouter
