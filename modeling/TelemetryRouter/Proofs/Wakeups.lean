import Mathlib.Data.Nat.Count
import TelemetryRouter.Proofs.Leftovers
import TelemetryRouter.Proofs.Lifecycle
import TelemetryRouter.Proofs.Notices

/-!
# Drains that miss no notice

A drain reads the count of its exporter's leases, and if there are any, registers for the notice that there are none, waits for it, and
reads again. The last lease may be counted down anywhere in between, and its notice left at any time after that; a notice may also be left
from an earlier time when there were no leases. What carries the argument is that from the reading on the entry is alert: without leases it
has its notice, or is owed one (`Run.alert`). Only the drain takes the notice, and then it reads again. So a drain never waits for what has
happened already, but for the notice of a lease that is just being given back (`Run.wakeful`), and not even for that where the notice is
left at once (`Run.DropsAtOnce`).
-/

namespace TelemetryRouter

variable {α : Type}

/-! ## The next step of a drain -/

/-- How many steps a drain is away from reading the count, if its notice is there. -/
def RetirementPhase.detour : RetirementPhase → Nat
  | .waiting _ => 1
  | .registering _ => 2
  | _ => 0

/-- What the next step of a drain finds in the entry of its exporter, to which phase it brings the drain, and how it leaves the entry. -/
inductive DrainStep (now : Nat) (entry : Entry) (deadline : Instant) : RetirementPhase → RetirementPhase → Entry → Prop
  | busy (leases : entry.leases ≠ 0) : DrainStep now entry deadline (.counting deadline) (.registering deadline) entry
  | idle {wake : Nat} (leases : entry.leases = 0) :
    DrainStep now entry deadline (.counting deadline) (.closing wake) { entry with closed := true }
  | register : DrainStep now entry deadline (.registering deadline) (.waiting deadline) entry.await
  | notified (notice : entry.idleNotice = true) :
    DrainStep now entry deadline (.waiting deadline) (.counting deadline) entry.takeNotice
  | late {wake : Nat} (notice : entry.idleNotice = false) (reached : Instant.reached deadline now = true) :
    DrainStep now entry deadline (.waiting deadline) (.closing wake) { entry with closed := true }

namespace Balancer

section Steps

variable {b : Balancer α} {id : ExporterId}

/-- A drain makes one of these steps, unless it waits, there is no notice, and the time is not up. -/
theorem stepRetirement_drain {entry : Entry} (he : b.pool.entry? id = some entry) {phase : RetirementPhase} {deadline : Instant}
    (hdeadline : phase.deadline? = some deadline) :
    (∃ c phase' entry' said, b.stepRetirement ⟨id, phase⟩ = some (c, ⟨id, phase'⟩) ∧ Frame b c ∧ Touches b c id entry entry' said ∧
      DrainStep b.now entry deadline phase phase' entry') ∨
      (b.stepRetirement ⟨id, phase⟩ = none ∧ phase = .waiting deadline ∧ entry.idleNotice = false ∧
        Instant.reached deadline b.now = false) := by
  obtain ⟨hframe, ⟨wake, hwake⟩, htouches, -⟩ := callStop_spec he
  cases phase with
  | counting d =>
    obtain rfl := Option.some.inj hdeadline
    by_cases hidle : entry.leases = 0
    · have hstep : b.stepRetirement ⟨id, .counting d⟩ = some ((b.callStop id).1, ⟨id, .closing wake⟩) := by
        simp [stepRetirement, he, hidle, hwake]
      exact .inl ⟨_, _, _, _, hstep, hframe, htouches, .idle hidle⟩
    · have hstep : b.stepRetirement ⟨id, .counting d⟩ = some (b, ⟨id, .registering d⟩) := by
        simp [stepRetirement, he, hidle]
      exact .inl ⟨_, _, _, _, hstep, .refl b, touches_refl he, .busy hidle⟩
  | registering d =>
    obtain rfl := Option.some.inj hdeadline
    exact .inl ⟨_, _, _, _, rfl, .change (.refl b), touches_changeEntry he _, .register⟩
  | waiting d =>
    obtain rfl := Option.some.inj hdeadline
    by_cases hnotice : entry.idleNotice = true
    · have hstep : b.stepRetirement ⟨id, .waiting d⟩ =
          some (b.changeEntry id Entry.takeNotice, ⟨id, .counting d⟩) := by
        simp [stepRetirement, he, hnotice]
      exact .inl ⟨_, _, _, _, hstep, .change (.refl b), touches_changeEntry he _, .notified hnotice⟩
    · have hnone : entry.idleNotice = false := by simpa using hnotice
      cases hreached : Instant.reached d b.now with
      | true =>
        have hstep : b.stepRetirement ⟨id, .waiting d⟩ = some ((b.callStop id).1, ⟨id, .closing wake⟩) := by
          simp [stepRetirement, he, hnone, hreached, hwake]
        exact .inl ⟨_, _, _, _, hstep, hframe, htouches, .late hnone hreached⟩
      | false =>
        have hstep : b.stepRetirement ⟨id, .waiting d⟩ = none := by simp [stepRetirement, he, hnone, hreached]
        exact .inr ⟨hstep, rfl, hnone, rfl⟩
  | _ => cases hdeadline

/-- A task whose pass retires exporters moves by a step of the retirement in that way, as long as not all of them are over. -/
theorem move_of_retiring {t : TaskId} {p : Pass} {added failed : List Endpoint} {retirements : List Retirement}
    (hd : b.duty? t = some (.pass p)) (hphase : p.phase = .retiring added failed retirements)
    (hmore : retirements.all Retirement.isOver = false) (way : Nat) :
    ∃ rest, b.works t = .pass p :: rest ∧ b.move t way = (retirements[way]?.bind (b.stepRetirement ·)).map
      (fun x => x.1.withWorks t (.pass { p with phase := .retiring added failed (retirements.set way x.2) } :: rest)) := by
  obtain ⟨rest, hw, -⟩ := works_of_duty? hd
  refine ⟨rest, hw, ?_⟩
  have hmove : b.move t way = b.stepPass t rest p way := by
    rw [move, hw]
    rfl
  rw [hmove, stepPass, hphase]
  dsimp only
  rw [if_neg (by rw [hmore]; exact Bool.false_ne_true)]
  cases retirements[way]?.bind (b.stepRetirement ·) <;> rfl

/-- A pass that waits is not let in while somebody is inside. -/
theorem move_of_queued {t t' : TaskId} {p : Pass} {rest : List (Work α)} (hw : b.works t = .pass p :: rest)
    (hqueued : p.phase = .queued) (hinside : b.pool.gate.inside = some t') (way : Nat) : b.move t way = none := by
  rw [move, hw]
  show b.stepPass t rest p way = none
  unfold stepPass
  rw [hqueued]
  simp only [Gate.enter?, hinside, Option.bind_none]

/-- While a drain goes on, not all retirements of its pass are over. -/
theorem not_all_over {retirements : List Retirement} {phase : RetirementPhase} {deadline : Instant}
    (hmem : Retirement.mk id phase ∈ retirements) (hdeadline : phase.deadline? = some deadline) :
    retirements.all Retirement.isOver = false := by
  refine List.all_eq_false.2 ⟨_, hmem, ?_⟩
  cases phase with
  | retired => cases hdeadline
  | _ => simp [Retirement.isOver]

theorem Guarded.insider_of_retiring (hb : b.Guarded) {phase : RetirementPhase} (h : b.Retiring id phase) :
    ∃ t p added failed retirements, b.insider? = some (t, p) ∧ p.phase = .retiring added failed retirements ∧
      Retirement.mk id phase ∈ retirements := by
  obtain ⟨t, p, added, failed, retirements, hd, hphase, hmem⟩ := h
  have hinside := hb.turn t p hd (by rw [hphase]; exact fun h => nomatch h)
  exact ⟨t, p, added, failed, retirements, insider?_eq_some_iff.2 ⟨hinside, hd⟩, hphase, hmem⟩

theorem retiring_of_insider {t : TaskId} {p : Pass} {added failed : List Endpoint} {retirements : List Retirement}
    (hp : b.insider? = some (t, p)) (hphase : p.phase = .retiring added failed retirements) {phase : RetirementPhase}
    (hmem : Retirement.mk id phase ∈ retirements) : b.Retiring id phase :=
  ⟨t, p, added, failed, retirements, (insider?_eq_some_iff.1 hp).2, hphase, hmem⟩

theorem Guarded.not_retiring (hb : b.Guarded) (hfree : b.pool.gate.inside = none) (phase : RetirementPhase) :
    ¬ b.Retiring id phase := by
  intro h
  obtain ⟨_, _, _, _, _, hp, -⟩ := hb.insider_of_retiring h
  rw [insider?_eq_none hfree] at hp
  cases hp

/-- The retirements of the pass inside are of different exporters. -/
theorem Tended.closes (hb : b.Tended) {t : TaskId} {p : Pass} {added failed : List Endpoint} {retirements : List Retirement}
    (hp : b.insider? = some (t, p)) (hphase : p.phase = .retiring added failed retirements) : b.Closes retirements := by
  have hmatches := hb.matched t p hp
  rw [hphase] at hmatches
  exact hmatches

theorem Tended.retiring_inj (ht : b.Tended) (hb : b.Guarded) {phase phase' : RetirementPhase} (h : b.Retiring id phase)
    (h' : b.Retiring id phase') : phase' = phase := by
  obtain ⟨t, p, added, failed, retirements, hp, hphase, hmem⟩ := hb.insider_of_retiring h
  obtain ⟨t', p', added', failed', retirements', hp', hphase', hmem'⟩ := hb.insider_of_retiring h'
  obtain ⟨rfl, rfl⟩ := insider?_inj hp hp'
  rw [hphase] at hphase'
  injection hphase' with _ _ hsame
  subst hsame
  exact congrArg Retirement.phase (List.inj_on_of_nodup_map (ht.closes hp hphase).once hmem' hmem rfl)

theorem Tended.stopping (ht : b.Tended) (hb : b.Guarded) {phase : RetirementPhase} {deadline : Instant} (h : b.Retiring id phase)
    (hdeadline : phase.deadline? = some deadline) : ∃ entry, b.pool.entry? id = some entry ∧ entry.state = .stopping := by
  obtain ⟨t, p, added, failed, retirements, hp, hphase, hmem⟩ := hb.insider_of_retiring h
  obtain ⟨entry, he, hsuits⟩ := (ht.closes hp hphase).suits _ hmem
  exact ⟨entry, he, (RetirementPhase.suits_iff_of_deadline? hdeadline entry).1 hsuits⟩

end Steps

end Balancer

/-! ## Drains in a run -/

/-- Whether an action is the move of a pass in the way of the retirement of an exporter. -/
def Balancer.attends (b : Balancer α) (id : ExporterId) : Action α → Bool
  | .move t way =>
    match b.duty? t with
    | some (.pass p) =>
      match p.phase with
      | .retiring _ _ retirements => (retirements[way]?).any (fun x => x.id == id)
      | _ => false
    | _ => false
  | _ => false

theorem Balancer.attends_iff {b : Balancer α} {id : ExporterId} {a : Action α} : b.attends id a = true ↔
    ∃ t way p added failed retirements phase, a = .move t way ∧ b.duty? t = some (.pass p) ∧
      p.phase = .retiring added failed retirements ∧ retirements[way]? = some ⟨id, phase⟩ := by
  constructor
  · intro h
    unfold attends at h
    split at h
    · rename_i t way
      split at h
      · rename_i p hd
        split at h
        · rename_i added failed retirements hphase
          cases hat : retirements[way]? with
          | none =>
            rw [hat] at h
            cases h
          | some x =>
            rw [hat, Option.any_some] at h
            exact ⟨t, way, p, added, failed, retirements, x.phase, rfl, hd, hphase, by rw [hat, ← eq_of_beq h]⟩
        · cases h
      · cases h
    · cases h
  · rintro ⟨t, way, p, added, failed, retirements, phase, rfl, hd, hphase, hat⟩
    simp only [attends, hd, hphase, hat, Option.any_some, beq_self_eq_true]

namespace Run

/-- Whether a step of a run is one of the retirement of an exporter. -/
def Attends (r : Run α) (id : ExporterId) (n : Nat) : Prop := (r.state n).attends id (r.action n) = true

instance (r : Run α) (id : ExporterId) (n : Nat) : Decidable (r.Attends id n) := inferInstanceAs (Decidable (_ = true))

/-- Whether a step of a run gives up the pass inside. -/
def GivesUp (r : Run α) (n : Nat) : Prop := ∃ t, r.action n = .abandon t ∧ (r.state n).pool.gate.inside = some t

/-- What a step of a run is to a drain that goes on. -/
inductive DrainTurn (r : Run α) (id : ExporterId) (n : Nat) (entry : Entry) (deadline : Instant) (phase : RetirementPhase) : Prop
  | givenUp (gives : r.GivesUp n) (free : (r.state (n + 1)).pool.gate.inside = none)
  | aside (idle : ¬ r.Attends id n) {entry' : Entry} (retiring : (r.state (n + 1)).Retiring id phase)
    (made : (r.state (n + 1)).pool.entry? id = some entry') (heeds : entry'.Heeds entry)
  | told (action : r.action n = .notify id) (idle : ¬ r.Attends id n) (retiring : (r.state (n + 1)).Retiring id phase)
    (made : (r.state (n + 1)).pool.entry? id = some entry.notify)
  | attended (attends : r.Attends id n) {phase' : RetirementPhase} {entry' : Entry} (retiring : (r.state (n + 1)).Retiring id phase')
    (made : (r.state (n + 1)).pool.entry? id = some entry') (step : DrainStep (r.state n).now entry deadline phase phase' entry')
  | blocked (attends : r.Attends id n) (same : r.state (n + 1) = r.state n) (waits : phase = .waiting deadline)
    (notice : entry.idleNotice = false) (early : Instant.reached deadline (r.state n).now = false)

section Turns

variable {r : Run α} {id : ExporterId} {n : Nat} {phase : RetirementPhase} {deadline : Instant}

theorem state_succ_of_move {t : TaskId} {way : Nat} (haction : r.action n = .move t way) :
    r.state (n + 1) = ((r.state n).move t way).getD (r.state n) := by
  rw [state, haction]
  rfl

theorem entry?_of_notify (haction : r.action n = .notify id) {entry : Entry} (he : (r.state n).pool.entry? id = some entry) :
    (r.state (n + 1)).pool.entry? id = some entry.notify := by
  have hleft := Balancer.entry?_notify (r.state n) id he
  rw [if_pos rfl] at hleft
  rw [state, haction]
  exact hleft

/-- A step of the retirement of another exporter leaves a drain where it is, and its exporter as it is. -/
theorem drain_aside_of_retirement {t : TaskId} {p : Pass} {added failed : List Endpoint} {retirements : List Retirement}
    (hp : (r.state n).insider? = some (t, p)) (hphase : p.phase = .retiring added failed retirements)
    (hmem : Retirement.mk id phase ∈ retirements) (hdeadline : phase.deadline? = some deadline) {way : Nat}
    (haction : r.action n = .move t way) (hother : ∀ x, retirements[way]? = some x → x.id ≠ id) :
    (r.state (n + 1)).Retiring id phase ∧ (r.state (n + 1)).pool.entry? id = (r.state n).pool.entry? id := by
  have hd := (Balancer.insider?_eq_some_iff.1 hp).2
  have hnext := state_succ_of_move haction
  obtain ⟨rest, hw, hmove⟩ := Balancer.move_of_retiring hd hphase (Balancer.not_all_over hmem hdeadline) way
  rw [hmove] at hnext
  cases hat : retirements[way]? with
  | none =>
    rw [hat] at hnext
    rw [hnext]
    exact ⟨Balancer.retiring_of_insider hp hphase hmem, rfl⟩
  | some x =>
    have hne := hother x hat
    rw [hat, Option.bind_some] at hnext
    cases hstep : (r.state n).stepRetirement x with
    | none =>
      rw [hstep] at hnext
      rw [hnext]
      exact ⟨Balancer.retiring_of_insider hp hphase hmem, rfl⟩
    | some stepped =>
      obtain ⟨c, x'⟩ := stepped
      rw [hstep, Option.map_some, Option.getD_some] at hnext
      obtain ⟨entry, hentry, -⟩ := ((r.tended n).closes hp hphase).suits x (List.mem_of_getElem? hat)
      obtain ⟨-, hframe, hretire⟩ := Balancer.stepRetirement_spec hentry hstep
      have hr : Balancer.Reworks (r.state n) (r.state (n + 1)) t _ :=
        hnext ▸ Balancer.reworks_withWorks (Balancer.lt_of_works hw) hframe.tasks
      obtain ⟨i, hi⟩ := List.getElem?_of_mem hmem
      have hiway : way ≠ i := fun heq => hne (by rw [← heq, hat] at hi; exact congrArg Retirement.id (Option.some.inj hi))
      refine ⟨⟨t, _, added, failed, _, hr.duty?_cons rfl, rfl, ?_⟩, ?_⟩
      · exact List.mem_of_getElem? ((List.getElem?_set_ne hiway).trans hi)
      · rw [hnext]
        exact hretire.entry?_of_ne (Ne.symm hne)

/-- A move of a pass that does not attend to a drain leaves it where it is, and its exporter as it is. -/
theorem drain_aside_of_pass (hret : (r.state n).Retiring id phase) (hdeadline : phase.deadline? = some deadline)
    (hidle : ¬ r.Attends id n) {t : TaskId} {way : Nat} {p : Pass} {rest : List (Work α)} (haction : r.action n = .move t way)
    (hw : (r.state n).works t = .pass p :: rest) :
    (r.state (n + 1)).Retiring id phase ∧ (r.state (n + 1)).pool.entry? id = (r.state n).pool.entry? id := by
  have hd := Balancer.duty?_of_works hw rfl
  obtain ⟨t', q, added, failed, retirements, hq, hphase, hmem⟩ := (r.guarded n).insider_of_retiring hret
  obtain ⟨hinside, hdq⟩ := Balancer.insider?_eq_some_iff.1 hq
  by_cases hqueued : p.phase = .queued
  · have hnext := state_succ_of_move haction
    rw [Balancer.move_of_queued hw hqueued hinside way] at hnext
    rw [hnext]
    exact ⟨hret, rfl⟩
  · obtain rfl : t = t' := Option.some.inj (((r.guarded n).turn t p hd hqueued).symm.trans hinside)
    obtain rfl := Balancer.pass_eq_of_duty? hd hdq
    refine drain_aside_of_retirement hq hphase hmem hdeadline haction (fun x hat hid => hidle (Balancer.attends_iff.2 ?_))
    exact ⟨t, way, q, added, failed, retirements, x.phase, haction, hd, hphase, by rw [hat, ← hid]⟩

/-- Every step of a run is one of these to a drain that goes on. -/
theorem drain_turn (hret : (r.state n).Retiring id phase) (hdeadline : phase.deadline? = some deadline) :
    ∃ entry, (r.state n).pool.entry? id = some entry ∧ entry.state ≠ .running ∧ r.DrainTurn id n entry deadline phase := by
  obtain ⟨entry, he, hstopping⟩ := (r.tended n).stopping (r.guarded n) hret hdeadline
  refine ⟨entry, he, (fun hrunning => nomatch hstopping.symm.trans hrunning), ?_⟩
  by_cases hattends : r.Attends id n
  · obtain ⟨t, way, p, added, failed, retirements, phase', haction, hd, hphase, hat⟩ := Balancer.attends_iff.1 hattends
    have hmem := List.mem_of_getElem? hat
    obtain rfl := (r.tended n).retiring_inj (r.guarded n) hret ⟨t, p, added, failed, retirements, hd, hphase, hmem⟩
    obtain ⟨rest, hw, hmove⟩ := Balancer.move_of_retiring hd hphase (Balancer.not_all_over hmem hdeadline) way
    have hnext := state_succ_of_move haction
    rw [hmove, hat, Option.bind_some] at hnext
    rcases Balancer.stepRetirement_drain he hdeadline with
      ⟨c, phase'', entry', said, hstep, hframe, htouches, hdrain⟩ | ⟨hnone, hwaits, hnotice, hearly⟩
    · rw [hstep, Option.map_some, Option.getD_some] at hnext
      have hr : Balancer.Reworks (r.state n) (r.state (n + 1)) t _ :=
        hnext ▸ Balancer.reworks_withWorks (Balancer.lt_of_works hw) hframe.tasks
      have hlt : way < retirements.length := (List.getElem?_eq_some_iff.1 hat).1
      refine .attended hattends ⟨t, _, added, failed, _, hr.duty?_cons rfl, rfl, List.mem_set hlt _⟩ ?_ hdrain
      rw [hnext]
      exact htouches.after
    · rw [hnone] at hnext
      exact .blocked hattends hnext hwaits hnotice hearly
  · by_cases hpass : ∃ t way p rest, r.action n = .move t way ∧ (r.state n).works t = .pass p :: rest
    · obtain ⟨t, way, p, rest, haction, hw⟩ := hpass
      obtain ⟨hafter, hsame⟩ := drain_aside_of_pass hret hdeadline hattends haction hw
      exact .aside hattends hafter (hsame.trans he) (.refl entry)
    · rcases (r.change n).aside_or_pass_or_drops (r.guarded n) (r.grounded n) with haside | ⟨t, way, p, rest, haction, hw, -⟩ | hdrops
      · have hafter := (haside.retiring_iff phase).2 hret
        rcases (r.change n).heeds_or_pass (r.grounded n) with hheeds | ⟨id', haction, hnext⟩ | ⟨t, way, p, rest, haction, hw, -⟩
        · obtain ⟨entry', he', hentry⟩ := hheeds id entry he
          exact .aside hattends hafter he' hentry
        · have he' := Balancer.entry?_notify (r.state n) id' he
          rw [← hnext] at he'
          by_cases hid : id' = id
          · rw [if_pos hid] at he'
            exact .told (hid ▸ haction) hattends hafter he'
          · rw [if_neg hid] at he'
            exact .aside hattends hafter he' (.refl entry)
        · exact absurd ⟨t, way, p, rest, haction, hw⟩ hpass
      · exact absurd ⟨t, way, p, rest, haction, hw⟩ hpass
      · obtain ⟨t, p, haction, hdrops⟩ := hdrops
        exact .givenUp ⟨t, haction, (Balancer.insider?_eq_some_iff.1 hdrops.before).1⟩ hdrops.free

/-- A drain that goes on has gone on before, with the same deadline, or is about to read the count for the first time. -/
theorem drain_before (hret : (r.state (n + 1)).Retiring id phase) (hdeadline : phase.deadline? = some deadline) :
    (∃ phase, (r.state n).Retiring id phase ∧ phase.deadline? = some deadline) ∨ phase = .counting deadline := by
  obtain ⟨t, p, added, failed, retirements, hp, hphase, hmem⟩ := (r.guarded (n + 1)).insider_of_retiring hret
  have hfree : (r.state (n + 1)).pool.gate.inside ≠ none := fun h => (r.guarded (n + 1)).not_retiring h phase hret
  rcases r.passing_or_drops n with hpassing | ⟨_, _, _, hdrops⟩
  · cases hpassing with
    | aside _ inside _ _ => exact .inl ⟨phase, Balancer.retiring_of_insider (inside ▸ hp) hphase hmem, hdeadline⟩
    | enter _ _ after _ _ _ _ =>
      obtain ⟨rfl, rfl⟩ := Balancer.insider?_inj hp after
      cases hphase
    | attempt _ _ after _ _ _ _ _ =>
      obtain ⟨rfl, rfl⟩ := Balancer.insider?_inj hp after
      cases hphase
    | publish _ _ after _ _ _ =>
      obtain ⟨rfl, rfl⟩ := Balancer.insider?_inj hp after
      injection hphase with _ _ hretirements
      rw [← hretirements] at hmem
      obtain ⟨x, _, hx⟩ := List.mem_map.1 hmem
      obtain ⟨-, rfl⟩ := Retirement.mk.inj hx
      cases hdeadline
    | @retire t' q _ _ rs way x x' entry c before phase_eq after at_way same made step _ _ =>
      obtain ⟨rfl, rfl⟩ := Balancer.insider?_inj hp after
      injection hphase with _ _ hretirements
      rw [← hretirements] at hmem
      rcases List.mem_or_eq_of_mem_set hmem with hmem | rfl
      · exact .inl ⟨phase, Balancer.retiring_of_insider before phase_eq hmem, hdeadline⟩
      · obtain ⟨x, phase₀⟩ := x
        dsimp only at same step
        subst same
        have hbefore := Balancer.retiring_of_insider before phase_eq (List.mem_of_getElem? at_way)
        cases step with
        | mark _ _ => exact .inr (by rw [Option.some.inj hdeadline])
        | drain earlier later _ _ => exact .inl ⟨phase₀, hbefore, earlier.trans (later.symm.trans hdeadline)⟩
        | close _ _ _ => cases hdeadline
        | giveUp _ _ _ _ => cases hdeadline
        | leave _ _ _ => cases hdeadline
    | conclude _ _ after _ _ _ _ => exact absurd after hfree
  · exact absurd hdrops.free hfree

/-- While a drain goes on and is not about to read the count, its exporter is alert. -/
theorem alert (r : Run α) (id : ExporterId) (n : Nat) : ∀ phase deadline entry, (r.state n).Retiring id phase →
    phase.deadline? = some deadline → phase ≠ .counting deadline → (r.state n).pool.entry? id = some entry → entry.Alert := by
  induction n with
  | zero =>
    rintro phase deadline entry ⟨t, p, _, _, _, hd, _⟩
    cases hd
  | succ n ih =>
    intro phase deadline entry hret hdeadline hne he
    obtain ⟨phase₀, hret₀, hdeadline₀⟩ := (drain_before hret hdeadline).resolve_right hne
    obtain ⟨entry₀, he₀, hstate, hturn⟩ := drain_turn hret₀ hdeadline₀
    have hbefore : phase₀ ≠ .counting deadline → entry₀.Alert := fun hne₀ => ih phase₀ deadline entry₀ hret₀ hdeadline₀ hne₀ he₀
    have hphase : ∀ {phase'}, (r.state (n + 1)).Retiring id phase' → phase' = phase :=
      fun h => (r.tended (n + 1)).retiring_inj (r.guarded (n + 1)) hret h
    cases hturn with
    | givenUp _ free => exact absurd hret ((r.guarded (n + 1)).not_retiring free phase)
    | aside _ retiring made heeds =>
      obtain rfl := Option.some.inj (made.symm.trans he)
      exact heeds.alert hstate (hbefore (hphase retiring ▸ hne))
    | told _ _ retiring made =>
      obtain rfl := Option.some.inj (made.symm.trans he)
      exact (hbefore (hphase retiring ▸ hne)).notify
    | attended _ retiring made step =>
      obtain rfl := Option.some.inj (made.symm.trans he)
      obtain rfl := hphase retiring
      cases step with
      | busy leases => exact fun hzero => absurd hzero leases
      | idle _ => cases hdeadline
      | register => exact hbefore (fun h => nomatch h)
      | notified _ => exact absurd rfl hne
      | late _ _ => cases hdeadline
    | blocked _ same waits _ _ =>
      rw [same, he₀] at he
      obtain rfl := Option.some.inj he
      exact hbefore (fun h => nomatch waits.symm.trans h)

end Turns

/-! ## What a drain reports -/

/-- Whether the drain of an exporter reads so many leases in a step. -/
def Reads (r : Run α) (id : ExporterId) (n count : Nat) : Prop :=
  r.Attends id n ∧ (∃ deadline, (r.state n).Retiring id (.counting deadline)) ∧
    ∃ entry, (r.state n).pool.entry? id = some entry ∧ entry.leases = count

/-- Whether the drain of an exporter observes in a step that its time is up, while it waits and there is no notice. -/
def Observes (r : Run α) (id : ExporterId) (n : Nat) : Prop :=
  r.Attends id n ∧ ∃ deadline entry, (r.state n).Retiring id (.waiting deadline) ∧ (r.state n).pool.entry? id = some entry ∧
    entry.idleNotice = false ∧ Instant.reached deadline (r.state n).now = true

/-- Whether the drain of an exporter is over with a step, and whether it has come to its end or timed out. -/
def Reports (r : Run α) (id : ExporterId) (n : Nat) : Bool → Prop
  | true => ∃ deadline wake, (r.state n).Retiring id (.counting deadline) ∧ (r.state (n + 1)).Retiring id (.closing wake)
  | false => r.TimesOut id n

/-- Whether a drain of an exporter goes on all along from a step to a later state. -/
def Drains (r : Run α) (id : ExporterId) (k n : Nat) : Prop :=
  ∃ deadline, ∀ j, k < j → j ≤ n → ∃ phase, (r.state j).Retiring id phase ∧ phase.deadline? = some deadline

/-- How many of so many steps from a state on are steps of the retirement of an exporter. -/
def attendances (r : Run α) (id : ExporterId) (n l : Nat) : Nat :=
  Nat.count (fun i => r.Attends id (n + i)) l

section Reports

variable {r : Run α} {id : ExporterId} {n : Nat} {phase : RetirementPhase} {deadline : Instant}

theorem Attends.not_givesUp (h : r.Attends id n) : ¬ r.GivesUp n := by
  rintro ⟨t, haction, -⟩
  rw [Attends, haction] at h
  cases h

theorem Attends.ne_notify (h : r.Attends id n) (x : ExporterId) : r.action n ≠ .notify x := by
  intro haction
  rw [Attends, haction] at h
  cases h

theorem attendances_succ (h : ¬ r.Attends id n) (l : Nat) : r.attendances id n (l + 1) = r.attendances id (n + 1) l := by
  have hshift : (fun i => n + (i + 1)) = fun i => n + 1 + i := funext (fun i => (Nat.succ_add_eq_add_succ n i).symm)
  rw [attendances, Nat.count_succ', if_neg (show ¬ r.Attends id (n + 0) from h)]
  exact congrArg (fun f : Nat → Nat => Nat.count (fun i => r.Attends id (f i)) l) hshift

/-- A drain that is over with a step has made the step. -/
theorem attended_of_closing (hret : (r.state n).Retiring id phase) (hdeadline : phase.deadline? = some deadline) {wake : Nat}
    (hclosing : (r.state (n + 1)).Retiring id (.closing wake)) :
    ∃ entry entry', (r.state n).pool.entry? id = some entry ∧ r.Attends id n ∧
      DrainStep (r.state n).now entry deadline phase (.closing wake) entry' := by
  obtain ⟨entry, he, -, hturn⟩ := drain_turn hret hdeadline
  cases hturn with
  | givenUp _ free => exact absurd hclosing ((r.guarded (n + 1)).not_retiring free _)
  | aside _ retiring _ _ | told _ _ retiring _ =>
    obtain rfl := (r.tended (n + 1)).retiring_inj (r.guarded (n + 1)) hclosing retiring
    cases hdeadline
  | @attended attends phase' entry' retiring _ step =>
    obtain rfl := (r.tended (n + 1)).retiring_inj (r.guarded (n + 1)) hclosing retiring
    exact ⟨entry, entry', he, attends, step⟩
  | blocked _ same waits _ _ =>
    rw [same] at hclosing
    obtain rfl := (r.tended n).retiring_inj (r.guarded n) hclosing hret
    cases waits

/-- A drain makes a step whenever its retirement does, unless it waits for a notice or for its time to be up. -/
theorem step_of_attends (hret : (r.state n).Retiring id phase) (hdeadline : phase.deadline? = some deadline)
    (hattends : r.Attends id n) {entry : Entry} (he : (r.state n).pool.entry? id = some entry) :
    (∃ phase' entry', (r.state (n + 1)).Retiring id phase' ∧ DrainStep (r.state n).now entry deadline phase phase' entry') ∨
      (phase = .waiting deadline ∧ Instant.reached deadline (r.state n).now = false) := by
  obtain ⟨entry₀, he₀, -, hturn⟩ := drain_turn hret hdeadline
  obtain rfl := Option.some.inj (he₀.symm.trans he)
  cases hturn with
  | givenUp gives _ => exact absurd gives hattends.not_givesUp
  | aside idle _ _ _ | told _ idle _ _ => exact absurd hattends idle
  | attended _ retiring _ step => exact .inl ⟨_, _, retiring, step⟩
  | blocked _ _ waits _ early => exact .inr ⟨waits, early⟩

/-- A drain comes to its end exactly with the step in which it reads that there are no leases. -/
theorem reports_true_iff : r.Reports id n true ↔ r.Reads id n 0 := by
  constructor
  · rintro ⟨deadline, wake, hret, hclosing⟩
    obtain ⟨entry, entry', he, hattends, hstep⟩ := attended_of_closing hret rfl hclosing
    cases hstep with
    | idle leases => exact ⟨hattends, ⟨deadline, hret⟩, entry, he, leases⟩
  · rintro ⟨hattends, ⟨deadline, hret⟩, entry, he, hzero⟩
    rcases step_of_attends hret rfl hattends he with ⟨phase', entry', retiring, step⟩ | ⟨waits, -⟩
    · cases step with
      | busy leases => exact absurd hzero leases
      | idle _ => exact ⟨deadline, _, hret, retiring⟩
    · cases waits

/-- A drain times out exactly with the step in which it observes that its time is up. -/
theorem reports_false_iff : r.Reports id n false ↔ r.Observes id n := by
  constructor
  · rintro ⟨deadline, wake, hret, hclosing⟩
    obtain ⟨entry, entry', he, hattends, hstep⟩ := attended_of_closing hret rfl hclosing
    cases hstep with
    | late notice reached => exact ⟨hattends, deadline, entry, hret, he, notice, reached⟩
  · rintro ⟨hattends, deadline, entry, hret, he, hnotice, hreached⟩
    rcases step_of_attends hret rfl hattends he with ⟨phase', entry', retiring, step⟩ | ⟨-, early⟩
    · cases step with
      | notified notice =>
        rw [hnotice] at notice
        cases notice
      | late _ _ => exact ⟨deadline, _, hret, retiring⟩
    · rw [hreached] at early
      cases early

/-- A drain that reports has gone on until then, and is over. -/
theorem Reports.over {ok : Bool} (h : r.Reports id n ok) {phase : RetirementPhase} (hret : (r.state (n + 1)).Retiring id phase) :
    phase.deadline? = none := by
  have hclosing : ∃ wake, (r.state (n + 1)).Retiring id (.closing wake) := by
    cases ok with
    | true =>
      obtain ⟨_, wake, -, hclosing⟩ := h
      exact ⟨wake, hclosing⟩
    | false =>
      obtain ⟨_, wake, -, hclosing⟩ := h
      exact ⟨wake, hclosing⟩
  obtain ⟨wake, hclosing⟩ := hclosing
  obtain rfl := (r.tended (n + 1)).retiring_inj (r.guarded (n + 1)) hclosing hret
  rfl

theorem Drains.not_reports {k j : Nat} (h : r.Drains id k n) (hkj : k ≤ j) (hjn : j < n) (ok : Bool) : ¬ r.Reports id j ok := by
  intro hreports
  obtain ⟨deadline, hall⟩ := h
  obtain ⟨phase, hret, hdeadline⟩ := hall (j + 1) (Nat.lt_succ_of_le hkj) hjn
  rw [hreports.over hret] at hdeadline
  cases hdeadline

theorem Reports.inj {ok ok' : Bool} (h : r.Reports id n ok) (h' : r.Reports id n ok') : ok' = ok := by
  have hne : r.Reports id n true → ¬ r.Reports id n false := by
    rintro ⟨deadline, _, hcounting, -⟩ ⟨deadline', _, hwaiting, -⟩
    exact nomatch (r.tended n).retiring_inj (r.guarded n) hcounting hwaiting
  cases ok <;> cases ok'
  · rfl
  · exact absurd h (hne h')
  · exact absurd h' (hne h)
  · rfl

/-- A drain without leases that has its notice, or is about to read the count, comes to its end with the next step of its own, or the next
but one or two if it has to take the notice first, unless its pass is given up. Until then nobody leases the exporter again. -/
theorem idle_drain (hret : (r.state n).Retiring id phase) (hdeadline : phase.deadline? = some deadline) {entry : Entry}
    (he : (r.state n).pool.entry? id = some entry) (hidle : entry.leases = 0)
    (hready : phase ≠ .counting deadline → entry.idleNotice = true) (l : Nat) (hkept : ∀ i < l, ¬ r.GivesUp (n + i)) :
    (∃ i < l, r.Reports id (n + i) true) ∨ ∃ phase' entry', (r.state (n + l)).Retiring id phase' ∧
      phase'.deadline? = some deadline ∧ (r.state (n + l)).pool.entry? id = some entry' ∧ entry'.leases = 0 ∧
      (phase' ≠ .counting deadline → entry'.idleNotice = true) ∧ r.attendances id n l + phase'.detour = phase.detour := by
  induction l with
  | zero => exact .inr ⟨phase, entry, hret, hdeadline, he, hidle, hready, Nat.zero_add _⟩
  | succ l ih =>
    rcases ih (fun i hi => hkept i (Nat.lt_succ_of_lt hi)) with
      ⟨i, hi, hreports⟩ | ⟨phase₁, entry₁, hret₁, hdeadline₁, he₁, hidle₁, hready₁, hcount⟩
    · exact .inl ⟨i, Nat.lt_succ_of_lt hi, hreports⟩
    have hsucc : r.attendances id n (l + 1) = r.attendances id n l + if r.Attends id (n + l) then 1 else 0 := Nat.count_succ _ l
    obtain ⟨entry₀, he₀, hstate, hturn⟩ := drain_turn hret₁ hdeadline₁
    obtain rfl := Option.some.inj (he₁.symm.trans he₀)
    cases hturn with
    | givenUp gives _ => exact absurd gives (hkept l (Nat.lt_succ_self l))
    | @aside idle entry' retiring made heeds =>
      have hfewer := heeds.fewer hstate
      refine .inr ⟨phase₁, entry', retiring, hdeadline₁, made, by omega, fun hne => heeds.notice.trans (hready₁ hne), ?_⟩
      rw [hsucc, if_neg idle, Nat.add_zero, hcount]
    | told _ idle retiring made =>
      refine .inr ⟨phase₁, _, retiring, hdeadline₁, made, entry₁.leases_notify.trans hidle₁,
        fun hne => entry₁.idleNotice_notify (hready₁ hne), ?_⟩
      rw [hsucc, if_neg idle, Nat.add_zero, hcount]
    | attended attends retiring made step =>
      rw [if_pos attends] at hsucc
      cases step with
      | busy leases => exact absurd hidle₁ leases
      | idle _ => exact .inl ⟨l, Nat.lt_succ_self l, deadline, _, hret₁, retiring⟩
      | register =>
        refine .inr ⟨_, _, retiring, rfl, made, hidle₁, fun _ => hready₁ (fun h => nomatch h), ?_⟩
        simp only [RetirementPhase.detour] at hcount ⊢
        omega
      | notified _ =>
        refine .inr ⟨_, _, retiring, rfl, made, hidle₁, fun hne => absurd rfl hne, ?_⟩
        simp only [RetirementPhase.detour] at hcount ⊢
        omega
      | late notice _ =>
        rw [hready₁ (fun h => nomatch h)] at notice
        cases notice
    | blocked _ _ waits notice _ =>
      rw [hready₁ (fun h => nomatch waits.symm.trans h)] at notice
      cases notice

/-- A drain that waits, or is about to, is alert. -/
theorem alert_of_waiting {entry : Entry}
    (hret : (r.state n).Retiring id (.waiting deadline) ∨ (r.state n).Retiring id (.registering deadline))
    (he : (r.state n).pool.entry? id = some entry) : entry.Alert := by
  rcases hret with hret | hret
  · exact r.alert id n _ deadline entry hret rfl (fun h => nomatch h) he
  · exact r.alert id n _ deadline entry hret rfl (fun h => nomatch h) he

/-- A drain that times out has leases, or is owed a notice. -/
theorem Reports.leased_or_owed (h : r.Reports id n false) {entry : Entry} (he : (r.state n).pool.entry? id = some entry) :
    0 < entry.leases ∨ 0 < entry.owed := by
  obtain ⟨-, deadline, entry', hret, he', hnotice, -⟩ := reports_false_iff.1 h
  obtain rfl := Option.some.inj (he'.symm.trans he)
  rcases Nat.eq_zero_or_pos entry'.leases with hzero | hpos
  · exact .inr ((alert_of_waiting (.inl hret) he).owed_pos hzero hnotice)
  · exact .inl hpos

/-- A drain without leases that has to wait is owed a notice. -/
theorem owed_of_blocked (hret : (r.state n).Retiring id phase) (hdeadline : phase.deadline? = some deadline) {entry : Entry}
    (he : (r.state n).pool.entry? id = some entry) (hidle : entry.leases = 0) (hattends : r.Attends id n)
    (hsame : r.state (n + 1) = r.state n) : 0 < entry.owed := by
  obtain ⟨entry₀, he₀, -, hturn⟩ := drain_turn hret hdeadline
  obtain rfl := Option.some.inj (he₀.symm.trans he)
  cases hturn with
  | givenUp gives _ => exact absurd gives hattends.not_givesUp
  | aside idle _ _ _ | told _ idle _ _ => exact absurd hattends idle
  | attended _ retiring _ step =>
    rw [hsame] at retiring
    obtain rfl := (r.tended n).retiring_inj (r.guarded n) hret retiring
    cases step
  | blocked _ _ waits notice _ =>
    exact (r.alert id n phase deadline entry₀ hret hdeadline (fun h => nomatch waits.symm.trans h) he).owed_pos hidle notice

/-- A drain without leases comes to its end, unless its pass is given up: with its next step if it is about to read the count, with the
second if it waits, with the third if it is about to. It has to be known that its notice is there or will not be owed. -/
theorem reports_of_idle (hret : (r.state n).Retiring id phase) (hdeadline : phase.deadline? = some deadline) {entry : Entry}
    (he : (r.state n).pool.entry? id = some entry) (hidle : entry.leases = 0)
    (hready : entry.owed = 0 ∨ entry.idleNotice = true ∨ phase = .counting deadline) (l : Nat) (hkept : ∀ i < l, ¬ r.GivesUp (n + i))
    (hcount : phase.detour < r.attendances id n l) : ∃ i < l, r.Reports id (n + i) true := by
  have hnotice : phase ≠ .counting deadline → entry.idleNotice = true := fun hne => by
    have halert := r.alert id n phase deadline entry hret hdeadline hne he hidle
    rcases hready with hnone | hthere | hcounting
    · exact halert.resolve_right (hnone ▸ Nat.lt_irrefl 0)
    · exact hthere
    · exact absurd hcounting hne
  rcases idle_drain hret hdeadline he hidle hnotice l hkept with hreports | ⟨_, _, -, -, -, -, -, hsum⟩
  · exact hreports
  · omega

end Reports

/-! ## Notices that are left at once -/

/-- Whether whoever gives back a last lease leaves the notice before anything else happens. -/
def DropsAtOnce (r : Run α) : Prop :=
  ∀ n id entry, (r.state n).pool.entry? id = some entry → 0 < entry.owed → ∃ x, r.action n = .notify x

section AtOnce

variable {r : Run α} {id : ExporterId} {n : Nat} {entry : Entry}

theorem DropsAtOnce.owed_eq (h : r.DropsAtOnce) (he : (r.state n).pool.entry? id = some entry)
    (hother : ∀ x, r.action n ≠ .notify x) : entry.owed = 0 := by
  refine Nat.eq_zero_of_not_pos (fun howed => ?_)
  obtain ⟨x, haction⟩ := h n id entry he howed
  exact hother x haction

/-- Where notices are left at once, it need not be known whether the notice is there. -/
theorem DropsAtOnce.reports_of_idle (h : r.DropsAtOnce) {phase : RetirementPhase} {deadline : Instant}
    (hret : (r.state n).Retiring id phase) (hdeadline : phase.deadline? = some deadline)
    (he : (r.state n).pool.entry? id = some entry) (hidle : entry.leases = 0) (l : Nat) (hkept : ∀ i < l, ¬ r.GivesUp (n + i))
    (hcount : phase.detour < r.attendances id n l) : ∃ i < l, r.Reports id (n + i) true := by
  induction l generalizing n entry with
  | zero => exact absurd hcount (Nat.not_lt_zero _)
  | succ l ih =>
    rcases Nat.eq_zero_or_pos entry.owed with hnone | howed
    · exact Run.reports_of_idle hret hdeadline he hidle (.inl hnone) (l + 1) hkept hcount
    obtain ⟨x, haction⟩ := h n id entry he howed
    have hattends : ¬ r.Attends id n := fun hattends => hattends.ne_notify x haction
    obtain ⟨entry₀, he₀, hstate, hturn⟩ := drain_turn hret hdeadline
    obtain rfl := Option.some.inj (he₀.symm.trans he)
    have hnext : ∃ entry', (r.state (n + 1)).Retiring id phase ∧ (r.state (n + 1)).pool.entry? id = some entry' ∧ entry'.leases = 0 := by
      cases hturn with
      | givenUp gives _ => exact absurd gives (hkept 0 (Nat.succ_pos l))
      | aside _ retiring made heeds => exact ⟨_, retiring, made, Nat.le_zero.1 (hidle ▸ heeds.fewer hstate)⟩
      | told _ _ retiring made => exact ⟨_, retiring, made, entry₀.leases_notify.trans hidle⟩
      | attended attends _ _ _ => exact absurd attends hattends
      | blocked attends _ _ _ _ => exact absurd attends hattends
    obtain ⟨entry', hret', he', hidle'⟩ := hnext
    have hshift : ∀ i, n + 1 + i = n + (i + 1) := fun i => Nat.succ_add_eq_add_succ n i
    obtain ⟨i, hi, hreports⟩ := ih hret' he' hidle' (fun i hi => hshift i ▸ hkept (i + 1) (Nat.succ_lt_succ hi))
      (attendances_succ hattends l ▸ hcount)
    exact ⟨i + 1, Nat.succ_lt_succ hi, hshift i ▸ hreports⟩

end AtOnce

/-- What a run in which notices are left at once does to the drains of an exporter. -/
structure Attentive (r : Run α) (id : ExporterId) : Prop where
  /-- If there are no leases, a drain that waits, or is about to wait, has its notice, unless one is being left right then. -/
  noticed : ∀ n deadline entry, (r.state n).Retiring id (.waiting deadline) ∨ (r.state n).Retiring id (.registering deadline) →
    (r.state n).pool.entry? id = some entry → entry.leases = 0 → (∀ x, r.action n ≠ .notify x) → entry.idleNotice = true
  /-- A drain times out only while there are leases. -/
  patient : ∀ n entry, r.Reports id n false → (r.state n).pool.entry? id = some entry → 0 < entry.leases
  /-- No step of a drain is blocked without leases. -/
  moves : ∀ n phase deadline entry, (r.state n).Retiring id phase → phase.deadline? = some deadline →
    (r.state n).pool.entry? id = some entry → entry.leases = 0 → r.Attends id n → r.state (n + 1) ≠ r.state n
  /-- Once there are no leases, a drain comes to its end whatever its deadline is, unless its pass is given up. -/
  prompt : ∀ n phase deadline entry, (r.state n).Retiring id phase → phase.deadline? = some deadline →
    (r.state n).pool.entry? id = some entry → entry.leases = 0 →
      ∀ l, (∀ i < l, ¬ r.GivesUp (n + i)) → phase.detour < r.attendances id n l → ∃ i < l, r.Reports id (n + i) true

theorem DropsAtOnce.attentive {r : Run α} (h : r.DropsAtOnce) (id : ExporterId) : r.Attentive id where
  noticed := fun _ _ _ hret he hidle hother =>
    (alert_of_waiting hret he hidle).resolve_right (h.owed_eq he hother ▸ Nat.lt_irrefl 0)
  patient := fun _ _ hreports he => by
    have hattends := (reports_false_iff.1 hreports).1
    exact (hreports.leased_or_owed he).resolve_right (h.owed_eq he hattends.ne_notify ▸ Nat.lt_irrefl 0)
  moves := fun _ _ _ _ hret hdeadline he hidle hattends hsame =>
    absurd (h.owed_eq he hattends.ne_notify) (Nat.ne_of_gt (owed_of_blocked hret hdeadline he hidle hattends hsame))
  prompt := fun _ _ _ _ hret hdeadline he hidle => h.reports_of_idle hret hdeadline he hidle

/-- What a run does to the leases of an exporter and to its drains. -/
structure Wakeful (r : Run α) (id : ExporterId) : Prop where
  /-- The count of an exporter, in the pool or not any more, is always the number of its live leases. -/
  counts : ∀ n entry, (r.state n).pool.entry? id = some entry → entry.leases = (r.state n).lent id
  solvent : ∀ n, (r.state n).Solvent
  /-- Once the exporter does not run any more, whoever counts its last lease down owes a notice from then on, and nobody else comes to owe
  one. -/
  owes : ∀ n entry entry', (r.state n).pool.entry? id = some entry → entry.state ≠ .running →
    (r.state (n + 1)).pool.entry? id = some entry' → r.action n ≠ .notify id →
      entry'.owed = entry.owed + if entry.leases ≠ 0 ∧ entry'.leases = 0 then 1 else 0
  /-- A notice that is owed can be left at any time, and is there then. -/
  leaves : ∀ n entry, (r.state n).pool.entry? id = some entry → 0 < entry.owed → r.action n = .notify id →
    ∃ entry', (r.state (n + 1)).pool.entry? id = some entry' ∧ entry'.leases = entry.leases ∧ entry'.idleNotice = true ∧
      entry'.owed + 1 = entry.owed
  /-- If there are no leases, a drain that waits, or is about to wait, has its notice or is owed one. -/
  noticed : ∀ n deadline entry, (r.state n).Retiring id (.waiting deadline) ∨ (r.state n).Retiring id (.registering deadline) →
    (r.state n).pool.entry? id = some entry → entry.leases = 0 → entry.idleNotice = true ∨ 0 < entry.owed
  /-- A drain comes to its end with the step in which it reads that there are no leases, and times out with the step in which it observes
  that its time is up. -/
  reports : ∀ n, (r.Reports id n true ↔ r.Reads id n 0) ∧ (r.Reports id n false ↔ r.Observes id n)
  /-- So it comes to its end exactly if it reads that there are no leases before it observes that its time is up. -/
  verdict : ∀ k n ok, k < n → r.Drains id k n → r.Reports id n ok →
    (ok = true ↔ ∃ j, k < j ∧ j ≤ n ∧ r.Reads id j 0 ∧ ∀ i, k < i → i < j → ¬ r.Observes id i)
  /-- A drain does not time out without leases, unless the notice of the last one is still owed. -/
  patient : ∀ n entry, r.Reports id n false → (r.state n).pool.entry? id = some entry → 0 < entry.leases ∨ 0 < entry.owed
  /-- Nor does it wait without leases, unless that notice is still owed. -/
  waits : ∀ n phase deadline entry, (r.state n).Retiring id phase → phase.deadline? = some deadline →
    (r.state n).pool.entry? id = some entry → entry.leases = 0 → r.Attends id n → r.state (n + 1) = r.state n → 0 < entry.owed
  /-- Once there are no leases and no notice of theirs is owed any more, or one was left, or the count is about to be read, no step of a
  drain is blocked, and whatever its deadline is the drain comes to its end, unless its pass is given up: with its next step if it is about
  to read the count, with the second if it waits, with the third if it is about to. -/
  prompt : ∀ n phase deadline entry, (r.state n).Retiring id phase → phase.deadline? = some deadline →
    (r.state n).pool.entry? id = some entry → entry.leases = 0 →
    entry.owed = 0 ∨ entry.idleNotice = true ∨ phase = .counting deadline →
      ∀ l, (∀ i < l, ¬ r.GivesUp (n + i)) → phase.detour < r.attendances id n l → ∃ i < l, r.Reports id (n + i) true
  /-- Where notices are left at once, none of this depends on what is owed. -/
  attentive : r.DropsAtOnce → r.Attentive id

/-- In every run, however leases are taken and given back, notices left, exporters marked and drained, and passes given up, the counts of
leases are right and no drain misses the notice that there are none. -/
theorem wakeful (r : Run α) (id : ExporterId) : r.Wakeful id where
  counts := fun n => (r.balanced n).counts id
  solvent := r.solvent
  owes := fun n _ _ he hstate he' hother => (r.change n).owed_eq (r.grounded n) hother he hstate he'
  leaves := fun _ entry he howed haction =>
    ⟨_, entry?_of_notify haction he, entry.leases_notify, (Entry.notify_of_owed howed).1, (Entry.notify_of_owed howed).2⟩
  noticed := fun _ _ _ hret he => alert_of_waiting hret he
  reports := fun _ => ⟨reports_true_iff, reports_false_iff⟩
  verdict := fun k n ok hkn hdrains hreports => by
    constructor
    · rintro rfl
      refine ⟨n, hkn, Nat.le_refl n, reports_true_iff.1 hreports, fun i hki hin hobserves => ?_⟩
      exact hdrains.not_reports (Nat.le_of_lt hki) hin false (reports_false_iff.2 hobserves)
    · rintro ⟨j, hkj, hjn, hreads, -⟩
      have htrue := reports_true_iff.2 hreads
      rcases Nat.lt_or_eq_of_le hjn with hlt | rfl
      · exact absurd htrue (hdrains.not_reports (Nat.le_of_lt hkj) hlt true)
      · exact htrue.inj hreports
  patient := fun _ _ hreports he => hreports.leased_or_owed he
  waits := fun _ _ _ _ hret hdeadline he hidle hattends hsame => owed_of_blocked hret hdeadline he hidle hattends hsame
  prompt := fun _ _ _ _ hret hdeadline he hidle hready => reports_of_idle hret hdeadline he hidle hready
  attentive := fun hdrops => hdrops.attentive id

/-- What is owed does matter: here the last lease is counted down while the drain waits, and the time is up before the notice is left. -/
example :
    let r := ofScript ⟨[]⟩ [(0, .request (.reconcile [⟨"a"⟩])), (7, .lease ⟨"a"⟩ "kept"), (8, .request .retireAll), (14, .dropLease "kept"),
      (15, .advance 30000)] (fun n => if n < 7 then 0 else 1)
    ((r.state 16).pool.entry? 0).map (fun e => (e.leases, e.notices, e.owed, e.awaited, e.closed)) = some (0, 0, 1, true, false) ∧
      ((r.state 17).pool.entry? 0).map Entry.closed = some true := by
  decide +kernel

end Run

end TelemetryRouter
