import TelemetryRouter.Proofs.Leftovers
import TelemetryRouter.Proofs.Accounts

/-!
# Reconciling a pool with leftovers

A pass starts exporters for those endpoints that have none, whatever stage the exporters of the others are in. So an exporter that a
pass has left behind when it was given up stays as it is, neither running nor reported as failed, until a pass is let in that does not
want its endpoint. All other endpoints that a pass wants have a running exporter in the end, or are reported as failed.
-/

namespace TelemetryRouter

variable {α : Type}

theorem Pool.lease?_eq_none {p : Pool} {e : Endpoint} {s : ExporterState} (hstate : p.state? e = some s) (hs : s ≠ .running) :
    p.lease? e = none := by
  by_contra hlease
  obtain ⟨⟨id, leased⟩, hlease⟩ := Option.ne_none_iff_exists'.1 hlease
  obtain ⟨entry, hfind, hentry, hrunning, _⟩ := Pool.lease?_eq_some_iff.1 hlease
  rw [Pool.state?, hfind, Option.bind_some, hentry, Option.map_some, hrunning] at hstate
  exact hs (Option.some.inj hstate).symm

namespace Balancer

/-! ## Listed exporters -/

/-- Whether the pool lists an exporter for an endpoint, in a stage. -/
def Lists (b : Balancer α) (e : Endpoint) (id : ExporterId) (s : ExporterState) : Prop :=
  (e, id) ∈ b.pool.current ∧ ∃ entry, b.pool.entry? id = some entry ∧ entry.state = s

section Lists

variable {b b' : Balancer α} {e : Endpoint} {id : ExporterId} {s : ExporterState}

theorem Kept.lists_iff (hk : b.Kept) : b.Lists e id s ↔ b.pool.find? e = some id ∧ b.pool.state? e = some s := by
  constructor
  · rintro ⟨hmem, entry, he, rfl⟩
    have hfind := hk.find?_eq_some hmem
    exact ⟨hfind, by rw [Pool.state?, hfind, Option.bind_some, he, Option.map_some]⟩
  · rintro ⟨hfind, hstate⟩
    rw [Pool.state?, hfind, Option.bind_some, Option.map_eq_some_iff] at hstate
    exact ⟨Pool.mem_current_of_find? hfind, hstate⟩

/-- An endpoint that has an exporter in a stage is listed with one. -/
theorem Kept.lists_of_state? (hk : b.Kept) (hstate : b.pool.state? e = some s) : ∃ id, b.Lists e id s := by
  rcases hfind : b.pool.find? e with _ | id
  · rw [Pool.state?, hfind] at hstate
    cases hstate
  · exact ⟨id, hk.lists_iff.2 ⟨hfind, hstate⟩⟩

theorem Grounded.exists_lists (hg : b.Grounded) (hfind : b.pool.find? e = some id) : ∃ s, b.Lists e id s := by
  have hmem := Pool.mem_current_of_find? hfind
  obtain ⟨entry, he, _⟩ := entry?_of_endpointOf? (hg.current _ hmem)
  exact ⟨entry.state, hmem, entry, he, rfl⟩

/-- The pool lists the same exporters in the same stages as long as no exporter ages. -/
theorem Lists.ageless (h : b.Lists e id s) (hageless : Ageless b b') : b'.Lists e id s := by
  obtain ⟨hmem, entry, he, hstate⟩ := h
  obtain ⟨entry', he', hlife⟩ := hageless.entries id entry he
  exact ⟨hageless.current ▸ hmem, entry', he', hlife.state.trans hstate⟩

end Lists

end Balancer

/-! ## What a pass does not touch -/

/-- Whether a pass that was let in leaves the exporter of an endpoint as it is. -/
def Pass.Spares (p : Pass) (e : Endpoint) (id : ExporterId) : Prop :=
  match p.phase with
  | .queued => True
  | .adding wanted attempts => e ∈ wanted ∧ ∀ a ∈ attempts, a.endpoint ≠ e
  | .retiring _ _ retirements => ∀ x ∈ retirements, x.id ≠ id

namespace Balancer

/-- Whether the pass inside, if any, leaves the exporter of an endpoint as it is. -/
def Spares (b : Balancer α) (e : Endpoint) (id : ExporterId) : Prop := ∀ t p, b.insider? = some (t, p) → p.Spares e id

section Sparing

variable {b b' : Balancer α} {e : Endpoint} {id : ExporterId} {s : ExporterState}

theorem spares_of_free (hfree : b.pool.gate.inside = none) : b.Spares e id := fun t p hp => by
  rw [insider?_eq_none hfree] at hp
  cases hp

theorem spares_of_insider? {t : TaskId} {p : Pass} (hp : b.insider? = some (t, p)) (h : p.Spares e id) : b.Spares e id := by
  intro t' p' hp'
  obtain ⟨rfl, rfl⟩ := insider?_inj hp hp'
  exact h

/-- The exporter of an endpoint that is wanted is not to be retired. -/
theorem Grounded.not_mem_extra (hg : b.Grounded) {wanted : List Endpoint} (hmem : (e, id) ∈ b.pool.current) (he : e ∈ wanted) :
    id ∉ b.pool.extra wanted := by
  intro hid
  obtain ⟨x, hx, rfl⟩ := List.mem_map.1 hid
  obtain ⟨hx, hout⟩ := List.mem_filter.1 hx
  have hsame : x.1 = e := Option.some.inj ((hg.current x hx).symm.trans (hg.current (e, x.2) hmem))
  rw [hsame] at hout
  simp [he] at hout

/-- A pass that has published its ring spares the exporters of the endpoints that it wants. -/
theorem Grounded.spares_of_wanted (hg : b.Grounded) {wanted added failed : List Endpoint} (hmem : (e, id) ∈ b.pool.current)
    (he : e ∈ wanted) {target : PassTarget} {publish : Option Ring} :
    (Pass.mk target publish (.retiring added failed ((b.pool.extra wanted).map (fun x => ⟨x, .pending⟩)))).Spares e id := by
  intro x hx heq
  obtain ⟨y, hy, rfl⟩ := List.mem_map.1 hx
  obtain rfl : y = id := heq
  exact hg.not_mem_extra hmem he hy

/-- A step of a start for another endpoint leaves an exporter listed in its stage. -/
theorem Lists.attemptStep {c : Balancer α} {x : Endpoint} {phase phase' : AttemptPhase} (hlists : b.Lists e id s)
    (hg : b.Grounded) (hne : e ≠ x) (hown : ∀ y ∈ phase.exporter?, b.endpointOf? y = some x)
    (h : AttemptStep b x phase c phase') : c.Lists e id s := by
  obtain ⟨hmem, entry, he, hstate⟩ := hlists
  refine ⟨(h.mem_current_iff hne).2 hmem, entry, h.entry?_of_ne (fun hid => hne ?_) he, hstate⟩
  exact Option.some.inj ((hg.current (e, id) hmem).symm.trans (hown id hid))

/-- A step of a retirement of another exporter leaves an exporter listed in its stage. -/
theorem Lists.retirementStep {c : Balancer α} {x : ExporterId} {entry : Entry} {phase phase' : RetirementPhase}
    (hlists : b.Lists e id s) (hk : b.Kept) (hne : x ≠ id) (made : b.pool.entry? x = some entry) (hsuits : phase.Suits entry)
    (h : RetirementStep b x entry phase c phase') : c.Lists e id s := by
  obtain ⟨hmem, entry', he', hstate⟩ := hlists
  refine ⟨h.mem_current_of_ne (fun heq => hne ?_) hmem, entry', (h.entry?_of_ne hne.symm).trans he', hstate⟩
  obtain rfl : e = entry.endpoint := heq
  exact hk.eq_of_mem ((hk.listed x entry made).1 (h.ne_stopped hsuits)) hmem

/-- An exporter that the pass inside spares stays listed in its stage, and is spared by the pass that comes next if that wants its
endpoint. -/
theorem Tended.spares (hb : b.Tended) (hg : b.Grounded) (h : Passing b b') (hlists : b.Lists e id s) (hspares : b.Spares e id)
    (hwants : ∀ t p, b.pool.gate.inside = none → b.duty? t = some (.pass p) → b'.pool.gate.inside = some t → e ∈ b.wanted p.target) :
    b'.Lists e id s ∧ b'.Spares e id := by
  cases h with
  | aside ageless inside _ _ => exact ⟨hlists.ageless ageless, fun t p hp => hspares t p (inside ▸ hp)⟩
  | @enter t p wanted attempts free waits after wanted_eq attempts_eq ageless _ =>
    refine ⟨hlists.ageless ageless, spares_of_insider? after ⟨?_, fun a ha heq => ?_⟩⟩
    · rw [wanted_eq]
      exact hwants t p free waits (insider?_eq_some_iff.1 after).1
    · rw [attempts_eq] at ha
      obtain ⟨x, hx, rfl⟩ := List.mem_map.1 ha
      obtain rfl : x = e := heq
      have hnone := (Pool.mem_missing_iff.1 hx).2
      rw [hb.kept.find?_eq_some hlists.1] at hnone
      cases hnone
  | @attempt t p wanted attempts way a a' c before phase after at_way endpoint step ageless _ =>
    have hp := hspares t p before
    rw [Pass.Spares, phase] at hp
    have hmem := List.mem_of_getElem? at_way
    have hown := hg.endpointOf?_of_adding before phase a hmem
    refine ⟨(hlists.attemptStep hg (hp.2 a hmem).symm hown step).ageless ageless,
      spares_of_insider? after ⟨hp.1, fun x hx heq => ?_⟩⟩
    have hin : x.endpoint ∈ (attempts.set way a').map Attempt.endpoint := List.mem_map_of_mem hx
    rw [Attempt.map_endpoint_set at_way endpoint] at hin
    obtain ⟨y, hy, hy'⟩ := List.mem_map.1 hin
    exact hp.2 y hy (hy'.trans heq)
  | @publish t p wanted attempts before phase after ended ageless _ =>
    have hp := hspares t p before
    rw [Pass.Spares, phase] at hp
    exact ⟨hlists.ageless ageless, spares_of_insider? after (hg.spares_of_wanted hlists.1 hp.1)⟩
  | @retire t p added failed retirements way x x' entry c before phase after at_way hid made step ageless _ =>
    have hp := hspares t p before
    rw [Pass.Spares, phase] at hp
    have hmem := List.mem_of_getElem? at_way
    have hmatches := hb.matched t p before
    rw [phase] at hmatches
    have hcloses : b.Closes retirements := hmatches
    refine ⟨(hlists.retirementStep hb.kept (hp x hmem) made (hcloses.suits_of_made hmem made) step).ageless ageless,
      spares_of_insider? after (fun y hy => ?_)⟩
    rcases List.mem_or_eq_of_mem_set hy with hy | rfl
    · exact hp y hy
    · rw [hid]
      exact hp x hmem
  | conclude _ _ after _ ageless _ _ => exact ⟨hlists.ageless ageless, spares_of_free after⟩

end Sparing

/-! ## What a pass has tried -/

/-- What has come of the starts of a pass: each endpoint that had no exporter has one that runs, and is reported as added, or it has
still none, and is reported as failed. No other endpoint is reported. -/
structure Tried (b : Balancer α) (missing added failed : List Endpoint) : Prop where
  each : ∀ e ∈ missing, (e ∈ added ∧ e ∉ failed ∧ ∃ id, b.Lists e id .running ∧ b.Spares e id) ∨ (e ∈ failed ∧ e ∉ added ∧ b.Lacks e)
  only : ∀ e, e ∈ added ∨ e ∈ failed → e ∈ missing

section Trying

variable {b b' : Balancer α} {t : TaskId} {p : Pass} {added failed : List Endpoint} {retirements : List Retirement}

/-- When its starts are over, a pass reports each of them as it came out. -/
theorem Opens.tried {attempts : List Attempt} (hopens : b.Opens attempts) (hended : attempts.all Attempt.isOver = true)
    (hageless : Ageless b b') (hspares : ∀ a ∈ attempts, ∀ id, (a.endpoint, id) ∈ b.pool.current → b'.Spares a.endpoint id) :
    b'.Tried (attempts.map Attempt.endpoint) (Pass.endpointsIn attempts .started) (Pass.endpointsIn attempts .failed) where
  each := fun e he => by
    obtain ⟨⟨x, phase⟩, ha, rfl⟩ := List.mem_map.1 he
    have hreached := hopens.reached _ ha
    have hone : ∀ {other : AttemptPhase}, other ≠ phase → x ∉ Pass.endpointsIn attempts other := fun hother hin => by
      have heq := List.inj_on_of_nodup_map hopens.once (Pass.mem_endpointsIn.1 hin) ha rfl
      exact hother (congrArg Attempt.phase heq)
    cases phase with
    | started =>
      obtain ⟨id, entry, hmem, hentry, hstate⟩ := hreached
      have hlists : b.Lists x id .running := ⟨hmem, entry, hentry, hstate⟩
      exact .inl ⟨Pass.mem_endpointsIn.2 ha, hone (fun h => nomatch h), id, hlists.ageless hageless, hspares _ ha id hmem⟩
    | failed => exact .inr ⟨Pass.mem_endpointsIn.2 ha, hone (fun h => nomatch h), Lacks.ageless hreached hageless⟩
    | _ => cases List.all_eq_true.1 hended _ ha
  only := fun e he => by
    rcases he with he | he
    · exact List.mem_map_of_mem (f := Attempt.endpoint) (Pass.mem_endpointsIn.1 he)
    · exact List.mem_map_of_mem (f := Attempt.endpoint) (Pass.mem_endpointsIn.1 he)

/-- A pass that is past its starts gives no endpoint an exporter. -/
theorem Passing.lacks (h : Passing b b') (hp : b.insider? = some (t, p)) (hphase : p.phase = .retiring added failed retirements)
    {e : Endpoint} (hlacks : b.Lacks e) : b'.Lacks e := by
  have hadding : ∀ {t' : TaskId} {q : Pass} {wanted : List Endpoint} {attempts : List Attempt}, b.insider? = some (t', q) →
      q.phase ≠ .adding wanted attempts := fun hq hadding => by
    obtain ⟨rfl, rfl⟩ := insider?_inj hp hq
    rw [hphase] at hadding
    cases hadding
  cases h with
  | aside ageless _ _ _ => exact hlacks.ageless ageless
  | enter free _ _ _ _ _ _ =>
    rw [insider?_eq_none free] at hp
    cases hp
  | attempt before phase _ _ _ _ _ _ => exact absurd phase (hadding before)
  | publish before phase _ _ _ _ => exact absurd phase (hadding before)
  | retire _ _ _ _ _ _ step ageless _ => exact Lacks.ageless (fun x hx => hlacks x (step.mem_current hx)) ageless
  | conclude _ _ _ _ ageless _ _ => exact hlacks.ageless ageless

/-- What has come of the starts of a pass stays so while it goes on. -/
theorem Tried.passing {missing added' failed' : List Endpoint} (ht : b.Tried missing added' failed') (hb : b.Tended)
    (hg : b.Grounded) (h : Passing b b') (hp : b.insider? = some (t, p)) (hphase : p.phase = .retiring added failed retirements) :
    b'.Tried missing added' failed' where
  each := fun e he => by
    rcases ht.each e he with ⟨hadded, hfailed, id, hlists, hspares⟩ | ⟨hfailed, hadded, hlacks⟩
    · refine .inl ⟨hadded, hfailed, id, hb.spares hg h hlists hspares (fun t' p' hfree => ?_)⟩
      rw [insider?_eq_none hfree] at hp
      cases hp
    · exact .inr ⟨hfailed, hadded, h.lacks hp hphase hlacks⟩
  only := ht.only

end Trying

end Balancer

/-! ## Passes along a run -/

namespace Run

/-- Whether a step lets a task in with its pass. -/
def LetsIn (r : Run α) (t : TaskId) (target : PassTarget) (n : Nat) : Prop :=
  (r.state n).pool.gate.inside = none ∧ (∃ p, (r.state n).duty? t = some (.pass p) ∧ p.target = target) ∧
    (r.state (n + 1)).pool.gate.inside = some t

/-- What a pass has come to since the step that let it in. -/
structure UnderWay (r : Run α) (t : TaskId) (p : Pass) (m n : Nat) : Prop where
  begun : m < n ∧ r.LetsIn t p.target m
  inside : ∀ i, m < i → i ≤ n → (r.state i).pool.gate.inside = some t
  starts : ∀ wanted attempts, p.phase = .adding wanted attempts → wanted = (r.state m).wanted p.target ∧
    attempts.map Attempt.endpoint = (r.state m).pool.missing wanted
  tried : ∀ added failed retirements, p.phase = .retiring added failed retirements →
    (r.state n).Tried ((r.state m).pool.missing ((r.state m).wanted p.target)) added failed

section Passes

variable {r : Run α} {t : TaskId} {p : Pass} {e : Endpoint} {id : ExporterId} {s : ExporterState} {m n : Nat}

theorem LetsIn.target_eq {t' : TaskId} {target target' : PassTarget} (h : r.LetsIn t target n) (h' : r.LetsIn t' target' n) :
    target' = target := by
  obtain ⟨_, ⟨p, hp, rfl⟩, hinside⟩ := h
  obtain ⟨_, ⟨p', hp', rfl⟩, hinside'⟩ := h'
  obtain rfl : t' = t := Option.some.inj (hinside'.symm.trans hinside)
  rw [Balancer.pass_eq_of_duty? hp hp']

/-- An exporter that is spared stays listed in its stage as long as every pass that is let in wants its endpoint. -/
theorem stays (hlists : (r.state m).Lists e id s) (hspares : (r.state m).Spares e id) (hmn : m ≤ n)
    (hwants : ∀ i, m ≤ i → i < n → ∀ t target, r.LetsIn t target i → e ∈ (r.state i).wanted target) :
    (r.state n).Lists e id s ∧ (r.state n).Spares e id := by
  induction n, hmn using Nat.le_induction with
  | base => exact ⟨hlists, hspares⟩
  | succ n hmn ih =>
    obtain ⟨hlists, hspares⟩ := ih (fun i hi hin => hwants i hi (Nat.lt_succ_of_lt hin))
    rcases r.passing_or_drops n with hpassing | ⟨t, p, _, hdrops⟩
    · refine (r.tended n).spares (r.grounded n) hpassing hlists hspares (fun t p hfree hd hinside => ?_)
      exact hwants n hmn (Nat.lt_succ_self n) t p.target ⟨hfree, ⟨p, hd, rfl⟩, hinside⟩
    · exact ⟨hlists.ageless hdrops.ageless, Balancer.spares_of_free hdrops.free⟩

theorem UnderWay.succ {p' : Pass} (h : r.UnderWay t p m n) (hinside : (r.state (n + 1)).pool.gate.inside = some t)
    (htarget : p'.target = p.target)
    (hstarts : ∀ wanted attempts, p'.phase = .adding wanted attempts → wanted = (r.state m).wanted p.target ∧
      attempts.map Attempt.endpoint = (r.state m).pool.missing wanted)
    (htried : ∀ added failed retirements, p'.phase = .retiring added failed retirements →
      (r.state (n + 1)).Tried ((r.state m).pool.missing ((r.state m).wanted p.target)) added failed) :
    r.UnderWay t p' m (n + 1) where
  begun := ⟨Nat.lt_succ_of_lt h.begun.1, htarget ▸ h.begun.2⟩
  inside := fun i hmi hin => by
    rcases Nat.lt_or_eq_of_le hin with hlt | rfl
    · exact h.inside i hmi (Nat.le_of_lt_succ hlt)
    · exact hinside
  starts := htarget ▸ hstarts
  tried := htarget ▸ htried

/-- A pass that publishes its ring has tried the endpoints that had no exporter when it was let in. -/
theorem UnderWay.tried_of_publish {q : Pass} {wanted : List Endpoint} {attempts : List Attempt} (h : r.UnderWay t q m n)
    (hbefore : (r.state n).insider? = some (t, q)) (hphase : q.phase = .adding wanted attempts)
    (hafter : (r.state (n + 1)).insider? = some (t, { q with
      phase := .retiring (Pass.endpointsIn attempts .started) (Pass.endpointsIn attempts .failed)
        (((r.state n).pool.extra wanted).map (fun x => ⟨x, .pending⟩)) }))
    (hended : attempts.all Attempt.isOver = true) (hageless : Balancer.Ageless (r.state n) (r.state (n + 1))) :
    (r.state (n + 1)).Tried ((r.state m).pool.missing ((r.state m).wanted q.target)) (Pass.endpointsIn attempts .started)
      (Pass.endpointsIn attempts .failed) := by
  obtain ⟨hwanted, hattempts⟩ := h.starts wanted attempts hphase
  have hopens := (r.tended n).matched t q hbefore
  rw [hphase] at hopens
  rw [← hwanted, ← hattempts]
  refine Balancer.Opens.tried hopens hended hageless (fun a ha id hmem => ?_)
  have hin : a.endpoint ∈ attempts.map Attempt.endpoint := List.mem_map_of_mem ha
  rw [hattempts] at hin
  exact Balancer.spares_of_insider? hafter ((r.grounded n).spares_of_wanted hmem (Pool.mem_missing_iff.1 hin).1)

/-- The pass inside was let in by a step, and has been under way since. -/
theorem underWay (hp : (r.state n).insider? = some (t, p)) : ∃ m, r.UnderWay t p m n := by
  induction n generalizing t p with
  | zero => cases hp
  | succ n ih =>
    have hinside := (Balancer.insider?_eq_some_iff.1 hp).1
    have hb := r.tended n
    have hg := r.grounded n
    rcases r.passing_or_drops n with hpassing | ⟨_, _, _, hdrops⟩
    · have hkeep := hpassing
      cases hpassing with
      | aside _ inside _ _ =>
        have hbefore := inside.symm.trans hp
        obtain ⟨m, hm⟩ := ih hbefore
        refine ⟨m, hm.succ hinside rfl hm.starts (fun added failed retirements hphase => ?_)⟩
        exact (hm.tried added failed retirements hphase).passing hb hg hkeep hbefore hphase
      | @enter t' q wanted attempts free waits after wanted_eq attempts_eq _ _ =>
        obtain ⟨rfl, rfl⟩ := Balancer.insider?_inj hp after
        refine ⟨n, ⟨Nat.lt_succ_self n, free, ⟨q, waits, rfl⟩, hinside⟩, fun i hni hin => ?_, fun w a hphase => ?_,
          fun _ _ _ hphase => nomatch hphase⟩
        · rwa [Nat.le_antisymm hin hni]
        · injection hphase with hwanted hattempts
          rw [← hwanted, ← hattempts, attempts_eq, Balancer.map_endpoint_missing]
          exact ⟨wanted_eq, rfl⟩
      | @attempt t' q wanted attempts way a a' c before phase after at_way endpoint step _ _ =>
        obtain ⟨rfl, rfl⟩ := Balancer.insider?_inj hp after
        obtain ⟨m, hm⟩ := ih before
        refine ⟨m, hm.succ hinside rfl (fun w x hphase => ?_) (fun _ _ _ hphase => nomatch hphase)⟩
        injection hphase with hwanted hattempts
        rw [← hwanted, ← hattempts, Attempt.map_endpoint_set at_way endpoint]
        exact hm.starts wanted attempts phase
      | @publish t' q wanted attempts before phase after ended ageless _ =>
        obtain ⟨rfl, rfl⟩ := Balancer.insider?_inj hp after
        obtain ⟨m, hm⟩ := ih before
        refine ⟨m, hm.succ hinside rfl (fun _ _ hphase => nomatch hphase) (fun added failed retirements hphase => ?_)⟩
        injection hphase with hadded hfailed _
        rw [← hadded, ← hfailed]
        exact hm.tried_of_publish before phase after ended ageless
      | @retire t' q added failed retirements way x x' entry c before phase after at_way hid made step ageless _ =>
        obtain ⟨rfl, rfl⟩ := Balancer.insider?_inj hp after
        obtain ⟨m, hm⟩ := ih before
        refine ⟨m, hm.succ hinside rfl (fun _ _ hphase => nomatch hphase) (fun added' failed' retirements' hphase => ?_)⟩
        injection hphase with hadded hfailed _
        rw [← hadded, ← hfailed]
        exact (hm.tried added failed retirements phase).passing hb hg hkeep before phase
      | conclude _ _ after _ _ _ _ =>
        rw [after] at hinside
        cases hinside
    · rw [hdrops.free] at hinside
      cases hinside

/-- While a pass that wants an endpoint is under way, the exporter that the endpoint had stays listed in its stage. -/
theorem UnderWay.lists (h : r.UnderWay t p m n) (he : e ∈ (r.state m).wanted p.target) (hlists : (r.state m).Lists e id s) :
    (r.state (n + 1)).Lists e id s := by
  obtain ⟨hmn, hletsIn⟩ := h.begun
  refine (stays hlists (Balancer.spares_of_free hletsIn.1) (by omega) (fun i hmi hin t' target hlets => ?_)).1
  rcases Nat.lt_or_eq_of_le hmi with hlt | rfl
  · cases (h.inside i hlt (by omega)).symm.trans hlets.1
  · rw [hletsIn.target_eq hlets]
    exact he

/-- When nobody is inside, an exporter that is listed and does not run was left behind by a pass that was given up. -/
theorem leftBehind_of_free (hfree : (r.state n).pool.gate.inside = none) (hlists : (r.state n).Lists e id s) (hs : s ≠ .running) :
    r.LeftBehind id n := by
  obtain ⟨hmem, entry, hentry, hstate⟩ := hlists
  have hendpoint : entry.endpoint = e :=
    Option.some.inj ((Balancer.endpointOf?_eq_some hentry).symm.trans ((r.grounded n).current (e, id) hmem))
  have hlive := ((r.tended n).kept.listed id entry hentry).2 (hendpoint ▸ hmem)
  have hbetween : entry.IsBetween := by
    rcases hcase : entry.state with _ | _ | _ | _
    · exact .inl hcase
    · exact absurd (hstate.symm.trans hcase) hs
    · exact .inr hcase
    · exact absurd hcase hlive
  exact (r.tended_or_left n id entry hentry hbetween).resolve_left (Balancer.not_tends_of_free hfree)

/-- An exporter that does not run stays where it is, and cannot be leased, as long as every pass that is let in wants its endpoint. -/
theorem not_ready (hfree : (r.state m).pool.gate.inside = none) (hlists : (r.state m).Lists e id s) (hs : s ≠ .running) (hmn : m ≤ n)
    (hwants : ∀ i, m ≤ i → i < n → ∀ t target, r.LetsIn t target i → e ∈ (r.state i).wanted target) :
    (r.state n).pool.state? e = some s ∧ ∀ name, (r.state n).leaseAs e name = .error (.endpointNotReady e) := by
  have hstate := ((r.tended n).kept.lists_iff.1 (stays hlists (Balancer.spares_of_free hfree) hmn hwants).1).2
  refine ⟨hstate, fun name => ?_⟩
  rw [Balancer.leaseAs, Pool.lease?_eq_none hstate hs]

end Passes

/-! ## Passes that are asked for -/

/-- Whether a step is the last one of a pass, which tells what it has done. -/
def Concludes (r : Run α) (t : TaskId) (target : PassTarget) (n : Nat) (o : ReconcileOutcome) : Prop :=
  ∃ p retirements, (r.state n).insider? = some (t, p) ∧ p.target = target ∧ p.phase = .retiring o.added o.failed retirements ∧
    Balancer.Passing (r.state n) (r.state (n + 1)) ∧ (r.state (n + 1)).pool.gate.inside = none

section Requested

variable {r : Run α} {t : TaskId} {k n : Nat} {endpoints : List Endpoint}

/-- After a step of its pass, a task has the pass still, or the pass was the last work, is over and tells what it has done. -/
theorem task?_of_passStep {b b' : Balancer α} {p : Pass} (ht : b.task? t = some ⟨[.pass p], .done⟩)
    (h : Balancer.PassStep b t [] p b') :
    (∃ phase, b'.task? t = some ⟨[.pass { p with phase := phase }], .done⟩) ∨
      ∃ added failed retirements, p.phase = .retiring added failed retirements ∧
        b'.task? t = some ⟨[], .reconciled (b.passOutcome added failed retirements)⟩ ∧
        (b.pool.gate.inside = some t → b'.pool.gate.inside = none) := by
  have hgo : ∀ {c : Balancer α}, c.tasks = b.tasks → ∀ phase,
      ∃ phase', (c.withWorks t [.pass { p with phase := phase }]).task? t = some ⟨[.pass { p with phase := phase' }], .done⟩ :=
    fun hts phase => ⟨phase, task?_withWorks_self ht hts⟩
  cases h with
  | enter _ _ _ _ => exact .inl (hgo rfl _)
  | attempt _ _ _ frame _ => exact .inl (hgo frame.tasks _)
  | publish _ _ => exact .inl (hgo rfl _)
  | retire _ _ _ frame _ _ => exact .inl (hgo frame.tasks _)
  | @conclude added failed retirements phase _ =>
    refine .inr ⟨added, failed, retirements, phase, ?_⟩
    obtain ⟨metrics, heq⟩ := Balancer.concludePass_eq b t [] (b.passOutcome added failed retirements)
    rw [heq]
    exact ⟨task?_finish_self ht rfl, fun hinside => if_pos hinside⟩

/-- A task with a pass goes on with it, or is given up, or tells what the pass has done. -/
theorem goes_on {p : Pass} (ht : (r.state n).task? t = some ⟨[.pass p], .done⟩) :
    (∃ phase, (r.state (n + 1)).task? t = some ⟨[.pass { p with phase := phase }], .done⟩) ∨
      (r.state (n + 1)).task? t = some ⟨[], .done⟩ ∨
      ∃ o, r.Concludes t p.target n o ∧ (r.state (n + 1)).outcome? t = some (.reconciled o) := by
  by_cases habandon : r.action n = .abandon t
  · refine .inr (.inl ?_)
    rw [state, habandon, Balancer.perform, Balancer.task?_abandon_self, ht]
    rfl
  by_cases hmove : ∃ way, r.action n = .move t way
  · obtain ⟨way, hmove⟩ := hmove
    have hworks : (r.state n).works t = [.pass p] := Balancer.works_of_task? ht
    have hd := Balancer.duty?_of_works hworks rfl
    rcases hstep : (r.state n).move t way with _ | next
    · exact .inl ⟨p.phase, (state_succ_of_blocked hmove hstep) ▸ ht⟩
    · have hnext : r.state (n + 1) = next := by
        rw [state, hmove, Balancer.perform, hstep]
        rfl
      have hmoves : (r.state n).stepPass t [] p way = some (r.state (n + 1)) := by
        rw [Balancer.move, hworks] at hstep
        exact hnext ▸ hstep
      rcases task?_of_passStep ht (Balancer.stepPass_cases ((r.grounded n).duties t _ hd) hmoves) with
        hgoes | ⟨added, failed, retirements, hphase, hover, hleaves⟩
      · exact .inl hgoes
      · have hinside := (r.guarded n).turn t p hd (by simp [hphase])
        refine .inr (.inr ⟨_, ⟨p, retirements, Balancer.insider?_eq_some_iff.2 ⟨hinside, hd⟩, rfl, hphase, ?_, hleaves hinside⟩,
          outcome?_of_task? hover⟩)
        rcases r.passing_or_drops n with hpassing | ⟨_, _, hdropped, _⟩
        · exact hpassing
        · rw [hmove] at hdropped
          cases hdropped
  · have hlt : t < (r.state n).tasks.length := (List.getElem?_eq_some_iff.1 ht).1
    exact .inl ⟨p.phase, (r.task?_succ hlt (fun way hway => hmove ⟨way, hway⟩) habandon).trans ht⟩

variable (hrequest : r.action k = .request (.reconcile endpoints))

include hrequest

/-- A request to reconcile the pool starts a task with a pass for the list. -/
theorem pass_of_request : (r.state (k + 1)).task? (r.state k).nextTask = some ⟨[.pass (Pass.of endpoints)], .done⟩ := by
  rw [state, hrequest]
  exact task?_withWorks_self (task?_spawn_self (r.state k) []) rfl

/-- In every state after a request to reconcile the pool, its pass is to be made, or was given up, or has told what it has done. -/
theorem requested (hkn : k < n) :
    (∃ phase, (r.state n).task? (r.state k).nextTask = some ⟨[.pass { Pass.of endpoints with phase := phase }], .done⟩) ∨
      (r.state n).task? (r.state k).nextTask = some ⟨[], .done⟩ ∨
      ∃ j o, k < j ∧ j < n ∧ r.Concludes (r.state k).nextTask (.members endpoints) j o ∧
        (r.state n).outcome? (r.state k).nextTask = some (.reconciled o) := by
  induction n, hkn using Nat.le_induction with
  | base => exact .inl ⟨_, pass_of_request hrequest⟩
  | succ n hkn ih =>
    rcases ih with ⟨phase, ht⟩ | ht | ⟨j, o, hkj, hjn, hconcludes, houtcome⟩
    · rcases goes_on ht with ⟨phase', ht'⟩ | ht' | ⟨o, hconcludes, houtcome⟩
      · exact .inl ⟨phase', ht'⟩
      · exact .inr (.inl ht')
      · exact .inr (.inr ⟨n, o, hkn, Nat.lt_succ_self n, hconcludes, houtcome⟩)
    · exact .inr (.inl (task?_of_outcome? (outcome?_of_le (Nat.le_succ n) (outcome?_of_task? ht))))
    · exact .inr (.inr ⟨j, o, hkj, Nat.lt_succ_of_lt hjn, hconcludes, outcome?_of_le (Nat.le_succ n) houtcome⟩)

end Requested

/-! ## What a request to reconcile the pool comes to -/

/-- What a pass for a list of endpoints has come to when it is over, by what the pool listed when it was let in. -/
structure Recovers (r : Run α) (endpoints : List Endpoint) (m n : Nat) (o : ReconcileOutcome) : Prop where
  /-- An endpoint that had no exporter has one that runs and is reported as added, or has none and is reported as failed. -/
  tried : ∀ e ∈ endpoints, (r.state m).pool.find? e = none →
    ((r.state n).pool.state? e = some .running ∧ e ∈ o.added ∧ e ∉ o.failed) ∨
      ((r.state n).pool.find? e = none ∧ e ∈ o.failed ∧ e ∉ o.added)
  /-- An endpoint that had an exporter has it still, in the same stage, and is not reported. -/
  kept : ∀ e ∈ endpoints, ∀ id s, (r.state m).pool.find? e = some id → (r.state m).pool.state? e = some s →
    (r.state n).pool.find? e = some id ∧ (r.state n).pool.state? e = some s ∧ e ∉ o.added ∧ e ∉ o.failed
  /-- So an endpoint has a running exporter or is reported as failed exactly if it had none or a running one. -/
  verdict : ∀ e ∈ endpoints, ((r.state n).pool.state? e = some .running ∨ e ∈ o.failed) ↔
    ((r.state m).pool.find? e = none ∨ (r.state m).pool.state? e = some .running)
  /-- Any other exporter was left behind by a pass that was given up. -/
  left : ∀ e ∈ endpoints, ∀ id s, (r.state m).pool.find? e = some id → (r.state m).pool.state? e = some s → s ≠ .running →
    r.LeftBehind id m
  /-- So an endpoint whose exporter was not left behind has a running exporter or is reported as failed. -/
  served : ∀ e ∈ endpoints, (∀ id, (r.state m).pool.find? e = some id → ¬ r.LeftBehind id m) →
    (r.state n).pool.state? e = some .running ∨ e ∈ o.failed
  /-- An exporter that was left behind stays where it is, and cannot be leased, until a pass is let in that does not want its endpoint. -/
  stuck : ∀ e ∈ endpoints, ∀ s, (r.state m).pool.state? e = some s → s ≠ .running → ∀ i, n ≤ i →
    (∀ j, n ≤ j → j < i → ∀ t target, r.LetsIn t target j → e ∈ (r.state j).wanted target) →
      (r.state i).pool.state? e = some s ∧ ∀ name, (r.state i).leaseAs e name = .error (.endpointNotReady e)

section Recovery

variable {r : Run α} {t : TaskId} {endpoints : List Endpoint} {o : ReconcileOutcome} {k n : Nat}

/-- What a pass for a list has come to when it is over. -/
theorem Concludes.recovers (h : r.Concludes t (.members endpoints) n o) :
    ∃ m < n, r.LetsIn t (.members endpoints) m ∧ (∀ i, m < i → i ≤ n → (r.state i).pool.gate.inside = some t) ∧
      (r.state (n + 1)).pool.gate.inside = none ∧ r.Recovers endpoints m (n + 1) o := by
  obtain ⟨p, retirements, hp, htarget, hphase, hpassing, hfree⟩ := h
  obtain ⟨m, hm⟩ := r.underWay hp
  have hletsIn : r.LetsIn t (.members endpoints) m := htarget ▸ hm.begun.2
  have hwanted : (r.state m).wanted p.target = endpoints := by rw [htarget]; rfl
  have hk := (r.tended m).kept
  have hk' := (r.tended (n + 1)).kept
  have htried := (hm.tried o.added o.failed retirements hphase).passing (r.tended n) (r.grounded n) hpassing hp hphase
  rw [hwanted] at htried
  have hmissing : ∀ e ∈ endpoints, (r.state m).pool.find? e = none →
      ((r.state (n + 1)).pool.state? e = some .running ∧ e ∈ o.added ∧ e ∉ o.failed) ∨
        ((r.state (n + 1)).pool.find? e = none ∧ e ∈ o.failed ∧ e ∉ o.added) := fun e he hnone => by
    rcases htried.each e (Pool.mem_missing_iff.2 ⟨he, hnone⟩) with ⟨hadded, hfailed, id, hlists, _⟩ | ⟨hfailed, hadded, hlacks⟩
    · exact .inl ⟨(hk'.lists_iff.1 hlists).2, hadded, hfailed⟩
    · exact .inr ⟨hlacks.find?_eq_none, hfailed, hadded⟩
  have hlists : ∀ e ∈ endpoints, ∀ id s, (r.state m).Lists e id s → (r.state (n + 1)).Lists e id s :=
    fun e he id s hlists => hm.lists (hwanted ▸ he) hlists
  have hunreported : ∀ e id, (r.state m).pool.find? e = some id → e ∉ o.added ∧ e ∉ o.failed := fun e id hfind =>
    not_or.1 (fun hin => by
      rw [(Pool.mem_missing_iff.1 (htried.only e hin)).2] at hfind
      cases hfind)
  have hverdict : ∀ e ∈ endpoints, ((r.state (n + 1)).pool.state? e = some .running ∨ e ∈ o.failed) ↔
      ((r.state m).pool.find? e = none ∨ (r.state m).pool.state? e = some .running) := fun e he => by
    rcases hfind : (r.state m).pool.find? e with _ | id
    · exact ⟨fun _ => .inl rfl, fun _ => (hmissing e he hfind).imp And.left (fun h => h.2.1)⟩
    · obtain ⟨s, hs⟩ := (r.grounded m).exists_lists hfind
      rw [(hk.lists_iff.1 hs).2, (hk'.lists_iff.1 (hlists e he id s hs)).2, or_iff_left (hunreported e id hfind).2,
        or_iff_right (fun h => nomatch h)]
  refine ⟨m, hm.begun.1, hletsIn, hm.inside, hfree, ⟨hmissing, fun e he id s hfind hstate => ?_, hverdict,
    fun e he id s hfind hstate hs => leftBehind_of_free hletsIn.1 (hk.lists_iff.2 ⟨hfind, hstate⟩) hs, fun e he hnot => ?_,
    fun e he s hstate hs i hni hwants => ?_⟩⟩
  · obtain ⟨hfind', hstate'⟩ := hk'.lists_iff.1 (hlists e he id s (hk.lists_iff.2 ⟨hfind, hstate⟩))
    exact ⟨hfind', hstate', hunreported e id hfind⟩
  · refine (hverdict e he).2 ?_
    rcases hfind : (r.state m).pool.find? e with _ | id
    · exact .inl rfl
    · obtain ⟨s, hs⟩ := (r.grounded m).exists_lists hfind
      have hrunning : s = .running := by
        by_contra hne
        exact hnot id hfind (leftBehind_of_free hletsIn.1 hs hne)
      exact .inr (hrunning ▸ (hk.lists_iff.1 hs).2)
  · obtain ⟨id, hs'⟩ := hk.lists_of_state? hstate
    exact not_ready hfree (hlists e he id s hs') hs hni hwants

/-- A request to reconcile the pool that has told what it did has had its turn in between, and that turn starts exporters for the endpoints
that have none. What a pass that was given up has left behind is neither started again nor reported. -/
theorem recovers_of_reconcile (hrequest : r.action k = .request (.reconcile endpoints)) (hkn : k < n)
    (houtcome : (r.state n).outcome? (r.state k).nextTask = some (.reconciled o)) :
    ∃ m j, k < m ∧ m < j ∧ j ≤ n ∧ r.LetsIn (r.state k).nextTask (.members endpoints) m ∧
      (∀ i, m < i → i < j → (r.state i).pool.gate.inside = some (r.state k).nextTask) ∧ (r.state j).pool.gate.inside = none ∧
      r.Recovers endpoints m j o := by
  have hover := task?_of_outcome? houtcome
  rcases requested hrequest hkn with ⟨_, ht⟩ | ht | ⟨j, o', hkj, hjn, hconcludes, houtcome'⟩
  · cases hover.symm.trans ht
  · cases hover.symm.trans ht
  · obtain rfl : o' = o := by
      have heq := houtcome'.symm.trans houtcome
      injection heq with heq
      injection heq
    obtain ⟨m, hmj, hletsIn, hinside, hfree, hrecovers⟩ := hconcludes.recovers
    refine ⟨m, j + 1, ?_, Nat.lt_succ_of_lt hmj, hjn, hletsIn, fun i hmi hij => hinside i hmi (Nat.le_of_lt_succ hij), hfree, hrecovers⟩
    by_contra hmk
    obtain ⟨q, hq, hne⟩ := (r.guarded (k + 1)).inside _ (hinside (k + 1) (by omega) (by omega))
    have hd := Balancer.duty?_of_works (Balancer.works_of_task? (pass_of_request hrequest)) rfl
    exact hne (congrArg Pass.phase (Balancer.pass_eq_of_duty? hd hq))

end Recovery

/-- A run in which a pass is given up while it is starting the exporter of an endpoint, and the next pass wants the same endpoint. -/
def stranded : Run Unit where
  options := ⟨⟨1, .ofSeconds 30, .ofSeconds 30⟩, none, none⟩
  adapter := ⟨.logs, fun _ _ => none⟩
  resolver := .new .fixed []
  backends := ⟨[]⟩
  action := fun n =>
    if n = 0 then .request (.reconcile [⟨"a"⟩])
    else if n < 4 then .move 0 0
    else if n = 4 then .abandon 0
    else if n = 5 then .request (.reconcile [⟨"a"⟩])
    else .move 1 0

/-- What a task has told about its pass. -/
def reconciled? : Option (Outcome α) → Option ReconcileOutcome
  | some (.reconciled o) => some o
  | _ => none

/-- A task that has told about its pass has that outcome. -/
theorem eq_of_reconciled? {outcome? : Option (Outcome α)} {o : ReconcileOutcome} (h : reconciled? outcome? = some o) :
    outcome? = some (.reconciled o) := by
  unfold reconciled? at h
  split at h
  · rw [Option.some.inj h]
  · cases h

/-- In that run, the second pass finds an exporter that is being started, does nothing and has nothing to tell. -/
theorem recovers_stranded : (stranded.state 9).pool.state? ⟨"a"⟩ = some .starting ∧
    ∃ m j, 5 < m ∧ m < j ∧ j ≤ 9 ∧ stranded.LetsIn (stranded.state 5).nextTask (.members [⟨"a"⟩]) m ∧
      (∀ i, m < i → i < j → (stranded.state i).pool.gate.inside = some (stranded.state 5).nextTask) ∧
      (stranded.state j).pool.gate.inside = none ∧ stranded.Recovers [⟨"a"⟩] m j ⟨[], [], []⟩ :=
  ⟨by decide +kernel, recovers_of_reconcile rfl (by decide) (eq_of_reconciled? (by decide +kernel))⟩

/-- So it is not true that after a pass every endpoint of its list has a running exporter or is reported as failed, whatever was given up
before. -/
theorem starting_stranded : ¬ ∀ (r : Run Unit) (k n : Nat) (endpoints : List Endpoint) (o : ReconcileOutcome),
    r.action k = .request (.reconcile endpoints) → k < n → (r.state n).outcome? (r.state k).nextTask = none →
      (r.state (n + 1)).outcome? (r.state k).nextTask = some (.reconciled o) →
      ∀ e ∈ endpoints, (r.state (n + 1)).pool.state? e = some .running ∨ e ∈ o.failed := by
  intro hclaim
  have hbefore : ((stranded.state 8).outcome? (stranded.state 5).nextTask).isNone = true := by decide +kernel
  have hafter : reconciled? ((stranded.state 9).outcome? (stranded.state 5).nextTask) = some ⟨[], [], []⟩ := by decide +kernel
  have hstarting : (stranded.state 9).pool.state? ⟨"a"⟩ = some .starting := by decide +kernel
  rcases hclaim stranded 5 8 _ _ rfl (by decide) (Option.isNone_iff_eq_none.1 hbefore) (eq_of_reconciled? hafter) ⟨"a"⟩
    List.mem_cons_self with hrunning | hfailed
  · cases hstarting.symm.trans hrunning
  · cases hfailed

end Run

end TelemetryRouter
