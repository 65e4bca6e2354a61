import TelemetryRouter.Proofs.Recoveries

/-!
# What a pass calls

A pass calls the maker of exporters, the exporters that it starts and the exporters that it retires, and in between it publishes its ring.
This module records these calls and how they end, and proves that a pass makes them in this order: the maker is called once for every
endpoint that is missing, an exporter that was made is started once, and nothing is stopped before the ring is published
(`Run.Passes.follows_deeds`).
-/

namespace TelemetryRouter

variable {α : Type}

/-- One thing that a pass does: it calls the maker for an endpoint, hears whether there is an exporter, which is started then, hears whether
that has started, publishes its ring, calls the shutdown of an exporter, or hears how that went. -/
inductive PassDeed where
  | create (e : Endpoint)
  | created (e : Endpoint) (well : Bool)
  | started (e : Endpoint) (well : Bool)
  | publish
  | stop (id : ExporterId)
  | stopped (id : ExporterId) (well : Bool)
  deriving DecidableEq

namespace PassDeed

/-- The endpoint for which something is made or started. -/
def endpoint? : PassDeed → Option Endpoint
  | .create e => some e
  | .created e _ => some e
  | .started e _ => some e
  | _ => none

/-- Whether an exporter is stopped. -/
def isStop : PassDeed → Bool
  | .stop _ => true
  | .stopped _ _ => true
  | _ => false

theorem endpoint?_of_isStop {d : PassDeed} (h : d.isStop = true) : d.endpoint? = none := by
  cases d with
  | stop id => rfl
  | stopped id well => rfl
  | _ => cases h

end PassDeed

namespace Balancer

/-! ## Deeds -/

/-- Whether a call of an exporter that comes to its end in this state ends well. -/
def endsWell (b : Balancer α) (id : ExporterId) (kind : CallKind) : Bool :=
  (b.pool.entry? id).any (fun entry => (b.concludeCall entry kind).1.isOk)

/-- What the next step of a start does, if it can be made. -/
def attemptDeed? (b : Balancer α) (a : Attempt) : Option PassDeed :=
  match a.phase with
  | .pending => some (.create a.endpoint)
  | .creating address _ wake =>
    if wake ≤ b.now then some (.created a.endpoint (b.backends.conclude address .create).1.isOk) else none
  | .starting id wake => if wake ≤ b.now then some (.started a.endpoint (b.endsWell id .start)) else none
  | .started => none
  | .failed => none

/-- What the next step of a retirement does with its exporter, if it can be made and does something with it. -/
def retirementDeed? (b : Balancer α) (x : Retirement) : Option PassDeed :=
  match x.phase with
  | .pending => none
  | .counting _ => if ((b.pool.entry? x.id).map Entry.leases).getD 0 = 0 then some (.stop x.id) else none
  | .registering _ => none
  | .waiting deadline =>
    if (b.pool.entry? x.id).any Entry.idleNotice then none
    else if Instant.reached deadline b.now then some (.stop x.id) else none
  | .closing wake => if wake ≤ b.now then some (.stopped x.id (b.endsWell x.id .stop)) else none
  | .retired => none

/-- What the step of a pass in one of its ways does. -/
def deedOf? (b : Balancer α) (p : Pass) (way : Nat) : Option PassDeed :=
  match p.phase with
  | .queued => none
  | .adding _ attempts => if attempts.all Attempt.isOver then some .publish else attempts[way]?.bind b.attemptDeed?
  | .retiring _ _ retirements =>
    if retirements.all Retirement.isOver then none else retirements[way]?.bind b.retirementDeed?

/-- What a pass does in an action, if the action is a move of one. -/
def deed? (b : Balancer α) : Action α → Option PassDeed
  | .move t way =>
    match (b.works t).head? with
    | some (.pass p) => b.deedOf? p way
    | _ => none
  | _ => none

end Balancer

/-- How something done for the exporter of an endpoint brings its start on. -/
inductive AttemptPhase.Advances (e : Endpoint) : AttemptPhase → PassDeed → AttemptPhase → Prop
  | call {address : String} {plain : Bool} {wake : Nat} : Advances e .pending (.create e) (.creating address plain wake)
  | refuse {address : String} {plain : Bool} {wake : Nat} : Advances e (.creating address plain wake) (.created e false) .failed
  | make {address : String} {plain : Bool} {wake due : Nat} {id : ExporterId} :
    Advances e (.creating address plain wake) (.created e true) (.starting id due)
  | run {id : ExporterId} {wake : Nat} : Advances e (.starting id wake) (.started e true) .started
  | stumble {id : ExporterId} {wake : Nat} : Advances e (.starting id wake) (.started e false) .failed

/-- How something that a pass does, or nothing, brings it on. -/
inductive PassPhase.Advances : PassPhase → Option PassDeed → PassPhase → Prop
  | rest (phase : PassPhase) : Advances phase none phase
  | attempt {wanted : List Endpoint} {attempts : List Attempt} {way : Nat} {a a' : Attempt} {d : PassDeed}
    (at_way : attempts[way]? = some a) (endpoint : a'.endpoint = a.endpoint) (advances : a.phase.Advances a.endpoint d a'.phase) :
    Advances (.adding wanted attempts) (some d) (.adding wanted (attempts.set way a'))
  | publish {wanted : List Endpoint} {attempts : List Attempt} {retirements : List Retirement}
    (ended : attempts.all Attempt.isOver = true) :
    Advances (.adding wanted attempts) (some .publish)
      (.retiring (Pass.endpointsIn attempts .started) (Pass.endpointsIn attempts .failed) retirements)
  | retire {added failed : List Endpoint} {retirements retirements' : List Retirement} {deed : Option PassDeed}
    (stops : ∀ d ∈ deed, d.isStop = true) : Advances (.retiring added failed retirements) deed (.retiring added failed retirements')

/-! ## Traces -/

/-- What is done for the exporter of an endpoint until its start comes to a phase. -/
def AttemptPhase.Follows (e : Endpoint) (deeds : List PassDeed) : AttemptPhase → Prop
  | .pending => deeds = []
  | .creating _ _ _ => deeds = [.create e]
  | .starting _ _ => deeds = [.create e, .created e true]
  | .started => deeds = [.create e, .created e true, .started e true]
  | .failed => deeds = [.create e, .created e false] ∨ deeds = [.create e, .created e true, .started e false]

/-- What was done for the exporter of an endpoint. -/
def doneFor (e : Endpoint) (deeds : List PassDeed) : List PassDeed := deeds.filter (fun d => d.endpoint? = some e)

/-- What was done by a pass for its starts, each for itself, and nothing else. -/
structure Follows (attempts : List Attempt) (deeds : List PassDeed) : Prop where
  each : ∀ a ∈ attempts, a.phase.Follows a.endpoint (doneFor a.endpoint deeds)
  only : ∀ d ∈ deeds, ∃ a ∈ attempts, d.endpoint? = some a.endpoint

/-- What was done by a pass that was let in when so many endpoints were missing: at first it starts exporters, in the end it stops
exporters, and in between it publishes its ring. -/
def PassPhase.Follows (missing : List Endpoint) (deeds : List PassDeed) : PassPhase → Prop
  | .queued => False
  | .adding _ attempts => attempts.map Attempt.endpoint = missing ∧ TelemetryRouter.Follows attempts deeds
  | .retiring added failed _ => ∃ attempts starts stops, attempts.map Attempt.endpoint = missing ∧
    attempts.all Attempt.isOver = true ∧ TelemetryRouter.Follows attempts starts ∧ added = Pass.endpointsIn attempts .started ∧
    failed = Pass.endpointsIn attempts .failed ∧ deeds = starts ++ .publish :: stops ∧ ∀ d ∈ stops, d.isStop = true

section Traces

variable {e : Endpoint} {d : PassDeed} {deeds : List PassDeed}

theorem AttemptPhase.Advances.endpoint?_eq {phase phase' : AttemptPhase} (h : phase.Advances e d phase') : d.endpoint? = some e := by
  cases h <;> rfl

theorem AttemptPhase.Follows.advances {phase phase' : AttemptPhase} (h : phase.Follows e deeds) (hstep : phase.Advances e d phase') :
    phase'.Follows e (deeds ++ [d]) := by
  cases hstep with
  | call => exact congrArg (· ++ _) h
  | refuse => exact .inl (congrArg (· ++ _) h)
  | make => exact congrArg (· ++ _) h
  | run => exact congrArg (· ++ _) h
  | stumble => exact .inr (congrArg (· ++ _) h)

/-- What is done for an endpoint is added to what was done for it, and to nothing else. -/
theorem doneFor_append (e : Endpoint) (deeds : List PassDeed) (d : PassDeed) :
    doneFor e (deeds ++ [d]) = if d.endpoint? = some e then doneFor e deeds ++ [d] else doneFor e deeds := by
  rw [doneFor, List.filter_append, ← doneFor, List.filter_singleton]
  split
  · rename_i h
    rw [decide_eq_true h, cond_true]
  · rename_i h
    rw [decide_eq_false h, cond_false, List.append_nil]

/-- The starts of a pass follow what is done for one of them. -/
theorem Follows.advances {attempts : List Attempt} {way : Nat} {a a' : Attempt} (h : Follows attempts deeds)
    (hnodup : (attempts.map Attempt.endpoint).Nodup) (hat : attempts[way]? = some a) (hendpoint : a'.endpoint = a.endpoint)
    (hstep : a.phase.Advances a.endpoint d a'.phase) : Follows (attempts.set way a') (deeds ++ [d]) := by
  obtain ⟨others, hmem, hmem', hne, _⟩ := Balancer.mem_set_of_key hat hendpoint hnodup
  refine ⟨fun x hx => ?_, fun y hy => ?_⟩
  · rcases (hmem' x).1 hx with rfl | hx
    · rw [hendpoint, doneFor_append, if_pos hstep.endpoint?_eq]
      exact (h.each a (List.mem_of_getElem? hat)).advances hstep
    · rw [doneFor_append, if_neg (fun heq => hne x hx (Option.some.inj (heq.symm.trans hstep.endpoint?_eq)))]
      exact h.each x ((hmem x).2 (.inr hx))
  · rcases List.mem_append.1 hy with hy | hy
    · obtain ⟨x, hx, hyx⟩ := h.only y hy
      rcases (hmem x).1 hx with rfl | hx
      · exact ⟨a', (hmem' a').2 (.inl rfl), hyx.trans (congrArg some hendpoint.symm)⟩
      · exact ⟨x, (hmem' x).2 (.inr hx), hyx⟩
    · rw [List.mem_singleton.1 hy]
      exact ⟨a', (hmem' a').2 (.inl rfl), hstep.endpoint?_eq.trans (congrArg some hendpoint.symm)⟩

theorem PassPhase.Follows.advances {missing : List Endpoint} {phase phase' : PassPhase} {deed : Option PassDeed}
    (h : phase.Follows missing deeds) (hmissing : missing.Nodup) (hstep : phase.Advances deed phase') :
    phase'.Follows missing (deeds ++ deed.toList) := by
  cases hstep with
  | rest =>
    rw [Option.toList_none, List.append_nil]
    exact h
  | attempt at_way endpoint advances =>
    obtain ⟨hendpoints, hfollows⟩ := h
    refine ⟨(Attempt.map_endpoint_set at_way endpoint).trans hendpoints, ?_⟩
    exact hfollows.advances (hendpoints ▸ hmissing) at_way endpoint advances
  | publish ended => exact ⟨_, deeds, [], h.1, ended, h.2, rfl, rfl, rfl, fun _ hd => nomatch hd⟩
  | retire stops =>
    obtain ⟨attempts, starts, before, hendpoints, hended, hfollows, hadded, hfailed, heq, hstops⟩ := h
    refine ⟨attempts, starts, before ++ deed.toList, hendpoints, hended, hfollows, hadded, hfailed, ?_, fun d hd => ?_⟩
    · rw [heq, List.append_assoc, List.cons_append]
    · rcases List.mem_append.1 hd with hd | hd
      · exact hstops d hd
      · exact stops d (Option.mem_toList.1 hd)

theorem mem_doneFor {e : Endpoint} (hd : d.endpoint? = some e) : d ∈ doneFor e deeds ↔ d ∈ deeds := by
  rw [doneFor, List.mem_filter, decide_eq_true hd, and_iff_left rfl]

/-- What a pass does besides its starts is done for no endpoint. -/
theorem doneFor_stages {starts stops : List PassDeed} (hstops : ∀ d ∈ stops, d.isStop = true) :
    doneFor e (starts ++ .publish :: stops) = doneFor e starts := by
  have hnone : stops.filter (fun d => d.endpoint? = some e) = [] := by
    refine List.filter_eq_nil_iff.2 (fun d hd => ?_)
    rw [PassDeed.endpoint?_of_isStop (hstops d hd)]
    simp
  rw [doneFor, List.filter_append, List.filter_cons_of_neg (by simp [PassDeed.endpoint?]), hnone, List.append_nil, ← doneFor]

/-- A pass that only starts exporters has not published its ring, and one that retires exporters has. -/
theorem PassPhase.Follows.publish_mem_iff {missing : List Endpoint} {phase : PassPhase} (h : phase.Follows missing deeds) :
    .publish ∈ deeds ↔ ∃ added failed retirements, phase = .retiring added failed retirements := by
  cases phase with
  | queued => cases h
  | adding wanted attempts =>
    refine ⟨fun hmem => ?_, fun ⟨_, _, _, hphase⟩ => nomatch hphase⟩
    obtain ⟨_, _, hnone⟩ := h.2.only _ hmem
    cases hnone
  | retiring added failed retirements =>
    obtain ⟨_, starts, stops, _, _, _, _, _, rfl, _⟩ := h
    exact ⟨fun _ => ⟨_, _, _, rfl⟩, fun _ => List.mem_append_right _ List.mem_cons_self⟩

section Retiring

variable {missing added failed : List Endpoint} {retirements : List Retirement}
  (h : (PassPhase.retiring added failed retirements).Follows missing deeds)

include h

/-- For an endpoint that was missing, an exporter was made and started, and the endpoint is added, or one of the two has failed. -/
theorem PassPhase.Follows.tried (hmissing : missing.Nodup) (he : e ∈ missing) :
    (e ∈ added ∧ e ∉ failed ∧ doneFor e deeds = [.create e, .created e true, .started e true]) ∨
      (e ∈ failed ∧ e ∉ added ∧ (doneFor e deeds = [.create e, .created e false] ∨
        doneFor e deeds = [.create e, .created e true, .started e false])) := by
  obtain ⟨attempts, starts, stops, rfl, hended, hfollows, rfl, rfl, rfl, hstops⟩ := h
  obtain ⟨⟨x, phase⟩, ha, rfl⟩ := List.mem_map.1 he
  have hdone := hfollows.each _ ha
  have hone : ∀ {other : AttemptPhase}, other ≠ phase → x ∉ Pass.endpointsIn attempts other := fun hother hin => by
    have heq := List.inj_on_of_nodup_map hmissing (Pass.mem_endpointsIn.1 hin) ha rfl
    exact hother (congrArg Attempt.phase heq)
  rw [doneFor_stages hstops]
  cases phase with
  | started => exact .inl ⟨Pass.mem_endpointsIn.2 ha, hone (fun h => nomatch h), hdone⟩
  | failed => exact .inr ⟨Pass.mem_endpointsIn.2 ha, hone (fun h => nomatch h), hdone⟩
  | _ => cases List.all_eq_true.1 hended _ ha

/-- For an endpoint that was not missing nothing was done. -/
theorem PassPhase.Follows.untried (he : e ∉ missing) : doneFor e deeds = [] := by
  obtain ⟨attempts, starts, stops, rfl, _, hfollows, _, _, rfl, hstops⟩ := h
  rw [doneFor_stages hstops, doneFor, List.filter_eq_nil_iff]
  intro d hd hfor
  obtain ⟨a, ha, heq⟩ := hfollows.only d hd
  have hsame : a.endpoint = e := Option.some.inj (heq.symm.trans (of_decide_eq_true hfor))
  exact he (hsame ▸ List.mem_map_of_mem ha)

theorem PassPhase.Follows.normal (hmissing : missing.Nodup) : Endpoint.IsNormal added ∧ Endpoint.IsNormal failed := by
  obtain ⟨attempts, _, _, rfl, _, _, rfl, rfl, _, _⟩ := h
  have hnormal : ∀ phase : AttemptPhase, Endpoint.IsNormal (Pass.endpointsIn attempts phase) :=
    fun phase => Endpoint.isNormal_sort (hmissing.sublist (List.filter_sublist.map Attempt.endpoint))
  exact ⟨hnormal _, hnormal _⟩

end Retiring

end Traces

namespace Balancer

/-- The lines that what a pass does, or nothing, leaves in the log. -/
inductive Logs (b : Balancer α) : Option PassDeed → List Event → Prop
  | none : Logs b none []
  | create {e : Endpoint} {plain : Bool} : Logs b (some (.create e)) [⟨b.now, b.addressFor e, Option.none, plain, .creating⟩]
  | refuse {e : Endpoint} {address : String} {plain : Bool} :
    Logs b (some (.created e false)) [⟨b.now, address, Option.none, plain, .createFailed⟩]
  | make {e : Endpoint} {address : String} {plain : Bool} : Logs b (some (.created e true))
    [⟨b.now, address, some b.pool.nextId, plain, .created⟩, ⟨b.now, address, some b.pool.nextId, plain, .starting⟩]
  | run {e : Endpoint} {address : String} {id : ExporterId} {plain : Bool} :
    Logs b (some (.started e true)) [⟨b.now, address, some id, plain, .started⟩]
  | stumble {e : Endpoint} {address : String} {id : ExporterId} {plain : Bool} :
    Logs b (some (.started e false)) [⟨b.now, address, some id, plain, .startFailed⟩]
  | publish : Logs b (some .publish) []
  | stop {address : String} {id : ExporterId} {plain : Bool} {inProgress : Nat} :
    Logs b (some (.stop id)) [⟨b.now, address, some id, plain, .stopping inProgress⟩]
  | leave {address : String} {id : ExporterId} {plain : Bool} :
    Logs b (some (.stopped id true)) [⟨b.now, address, some id, plain, .stopped⟩]
  | refuseStop {address : String} {id : ExporterId} {plain : Bool} :
    Logs b (some (.stopped id false)) [⟨b.now, address, some id, plain, .stopFailed⟩]

section Steps

variable {b b' : Balancer α}

theorem logEntry_eq {id : ExporterId} {entry : Entry} (he : b.pool.entry? id = some entry) (what : Occurrence) :
    b.logEntry id what = b.log entry.address (some id) entry.plain what := by
  rw [logEntry, he]

/-- The end of a call of the maker leaves its line, and the line of the call to start if there is an exporter. -/
theorem logs_concludeCreate (b : Balancer α) (e : Endpoint) (address : String) (plain : Bool) :
    ∃ lines, (b.concludeCreate e address plain).1.events = b.events ++ lines ∧
      Logs b (some (.created e (b.backends.conclude address .create).1.isOk)) lines := by
  unfold concludeCreate
  generalize b.backends.conclude address .create = result
  obtain ⟨_ | _, backends⟩ := result
  · exact ⟨_, rfl, .refuse⟩
  · refine ⟨_, ?_, @Logs.make _ b e address plain⟩
    have hnew : Pool.entry? (b.pool.insert (Entry.make e address plain)) b.pool.nextId = some (Entry.make e address plain) := by
      rw [Pool.entry?, Pool.insert, Pool.nextId, List.getElem?_append_right (Nat.le_refl _), Nat.sub_self]
      rfl
    dsimp only
    rw [logEntry_eq (b := { b with backends := backends, pool := b.pool.insert (Entry.make e address plain) }) hnew,
      logEntry_eq (by exact hnew)]
    exact List.append_assoc _ _ _

theorem logs_concludeStart {id : ExporterId} {entry : Entry} (he : b.pool.entry? id = some entry) (e : Endpoint) :
    ∃ lines, (b.concludeStart e id).1.events = b.events ++ lines ∧ Logs b (some (.started e (b.endsWell id .start))) lines := by
  obtain ⟨result, backends, hresult⟩ := concludeCall_eq b entry .start
  have hrunning := touches_changeEntry (b := { b with backends := backends }) he (fun x => { x with state := .running })
  have hstopped := touches_changeEntry (b := { b with backends := backends }) he (fun x => { x with state := .stopped })
  rw [endsWell, he, Option.any_some, hresult]
  unfold concludeStart
  rw [he]
  dsimp only
  rw [hresult]
  rcases result with _ | _
  · dsimp only
    rw [logEntry_eq hstopped.after]
    exact ⟨_, rfl, .stumble⟩
  · dsimp only
    rw [logEntry_eq hrunning.after]
    exact ⟨_, rfl, .run⟩

theorem logs_callStop {id : ExporterId} {entry : Entry} (he : b.pool.entry? id = some entry) :
    ∃ lines, (b.callStop id).1.events = b.events ++ lines ∧ Logs b (some (.stop id)) lines := by
  unfold callStop
  rw [he]
  dsimp only
  rw [logEntry_eq he]
  exact ⟨_, rfl, .stop⟩

theorem logs_concludeStop {id : ExporterId} {entry : Entry} (he : b.pool.entry? id = some entry) :
    ∃ lines, (b.concludeStop id).1.events = b.events ++ lines ∧ Logs b (some (.stopped id (b.endsWell id .stop))) lines := by
  obtain ⟨result, backends, hresult⟩ := concludeCall_eq b entry .stop
  rw [endsWell, he, Option.any_some, hresult]
  unfold concludeStop
  rw [he]
  dsimp only
  rw [hresult]
  dsimp only
  rw [logEntry_eq (by exact he)]
  rcases result with _ | _
  · exact ⟨_, rfl, .refuseStop⟩
  · exact ⟨_, rfl, .leave⟩

/-- A step of a start leaves the lines of what it does. -/
theorem logs_of_stepAttempt {a a' : Attempt} (hmade : ∀ id wake, a.phase = .starting id wake → ∃ entry, b.pool.entry? id = some entry)
    (h : b.stepAttempt a = some (b', a')) : ∃ lines, b'.events = b.events ++ lines ∧ Logs b (b.attemptDeed? a) lines := by
  obtain ⟨-, hmove⟩ := AttemptMove.of_step h
  rw [attemptDeed?]
  generalize hphase : a.phase = phase at hmove ⊢
  generalize a'.phase = phase' at hmove
  cases hmove with
  | call => exact ⟨_, rfl, .create⟩
  | made due =>
    dsimp only
    rw [if_pos due]
    exact b.logs_concludeCreate a.endpoint _ _
  | @started id wake due =>
    obtain ⟨entry, hentry⟩ := hmade id wake hphase
    dsimp only
    rw [if_pos due]
    exact logs_concludeStart hentry a.endpoint

/-- A step of a retirement leaves the lines of what it does. -/
theorem logs_of_stepRetirement {x x' : Retirement} {entry : Entry} (he : b.pool.entry? x.id = some entry)
    (h : b.stepRetirement x = some (b', x')) : ∃ lines, b'.events = b.events ++ lines ∧ Logs b (b.retirementDeed? x) lines := by
  have hnone : ∃ lines, b.events = b.events ++ lines ∧ Logs b none lines := ⟨[], (List.append_nil _).symm, .none⟩
  obtain ⟨-, hmove⟩ := RetirementMove.of_step h
  rw [retirementDeed?]
  generalize x.phase = phase at hmove ⊢
  generalize x'.phase = phase' at hmove
  cases hmove with
  | mark => exact hnone
  | close idle =>
    dsimp only
    rw [if_pos idle]
    exact logs_callStop he
  | stay leased =>
    dsimp only
    rw [if_neg leased]
    exact hnone
  | register => exact hnone
  | hear noticed =>
    dsimp only
    rw [if_pos noticed]
    exact hnone
  | giveUp unnoticed late =>
    dsimp only
    rw [if_neg unnoticed, if_pos late]
    exact logs_callStop he
  | stopped due =>
    dsimp only
    rw [if_pos due]
    exact logs_concludeStop he

theorem logs_of_stepPass {t : TaskId} {rest : List (Work α)} {p : Pass} {way : Nat} (hw : b.works t = .pass p :: rest)
    (hg : b.Grounded) (h : b.stepPass t rest p way = some b') :
    ∃ lines, b'.events = b.events ++ lines ∧ Logs b (b.deedOf? p way) lines := by
  have hgrounded : (Work.pass p : Work α).IsGrounded b := hg.duties t _ (duty?_of_works hw rfl)
  have hnone : ∀ {c : Balancer α}, c.events = b.events → ∃ lines, c.events = b.events ++ lines ∧ Logs b none lines := fun heq =>
    ⟨[], heq.trans (List.append_nil _).symm, .none⟩
  rw [deedOf?]
  cases PassMove.of_step h with
  | enter phase_eq _ _ _ =>
    rw [phase_eq]
    exact hnone rfl
  | attempt phase_eq unfinished at_way step =>
    have hlogs := logs_of_stepAttempt (entry?_of_starting hgrounded phase_eq (List.mem_of_getElem? at_way)) step
    rw [phase_eq]
    dsimp only
    rw [if_neg unfinished, at_way, Option.bind_some]
    exact hlogs
  | publish phase_eq ended =>
    rw [phase_eq]
    dsimp only
    rw [if_pos ended]
    exact ⟨[], (List.append_nil _).symm, .publish⟩
  | retire phase_eq unfinished at_way step =>
    obtain ⟨entry, he⟩ := entry?_of_retirement hgrounded phase_eq (List.mem_of_getElem? at_way)
    have hlogs := logs_of_stepRetirement he step
    rw [phase_eq]
    dsimp only
    rw [if_neg unfinished, at_way, Option.bind_some]
    exact hlogs
  | @conclude added failed retirements phase_eq ended =>
    obtain ⟨metrics, heq⟩ := concludePass_eq b t rest (b.passOutcome added failed retirements)
    rw [phase_eq]
    dsimp only
    rw [if_pos ended, heq]
    exact hnone rfl

theorem advances_of_stepAttempt {a a' : Attempt} (hmade : ∀ id wake, a.phase = .starting id wake → ∃ entry, b.pool.entry? id = some entry)
    (h : b.stepAttempt a = some (b', a')) : ∃ d, b.attemptDeed? a = some d ∧ a.phase.Advances a.endpoint d a'.phase := by
  obtain ⟨-, hmove⟩ := AttemptMove.of_step h
  rw [attemptDeed?]
  generalize hphase : a.phase = phase at hmove ⊢
  generalize a'.phase = phase' at hmove ⊢
  cases hmove with
  | call => exact ⟨_, rfl, .call⟩
  | @made address plain wake due =>
    refine ⟨_, if_pos due, ?_⟩
    unfold concludeCreate
    generalize b.backends.conclude address .create = result
    obtain ⟨_ | _, backends⟩ := result
    · exact .refuse
    · exact .make
  | @started id wake due =>
    refine ⟨_, if_pos due, ?_⟩
    obtain ⟨entry, hentry⟩ := hmade id wake hphase
    unfold concludeStart endsWell
    rw [hentry]
    dsimp only [Option.any_some]
    generalize b.concludeCall entry .start = result
    obtain ⟨_ | _, c⟩ := result
    · exact .stumble
    · exact .run

theorem attemptDeed?_eq_none {a : Attempt} (h : b.stepAttempt a = none) : b.attemptDeed? a = none := by
  obtain ⟨e, phase⟩ := a
  unfold stepAttempt at h
  rw [attemptDeed?]
  cases phase with
  | pending => cases h
  | creating address plain wake =>
    dsimp only at h ⊢
    split at h
    · cases h
    · rename_i hwake
      exact if_neg hwake
  | starting id wake =>
    dsimp only at h ⊢
    split at h
    · cases h
    · rename_i hwake
      exact if_neg hwake
  | started => rfl
  | failed => rfl

/-- All that a retirement does with its exporter is to stop it. -/
theorem isStop_of_retirementDeed? {x : Retirement} {d : PassDeed} (h : b.retirementDeed? x = some d) : d.isStop = true := by
  unfold retirementDeed? at h
  split at h
  · cases h
  · split at h
    · injection h with h
      exact h ▸ rfl
    · cases h
  · cases h
  · split at h
    · cases h
    · split at h
      · injection h with h
        exact h ▸ rfl
      · cases h
  · split at h
    · injection h with h
      exact h ▸ rfl
    · cases h
  · cases h

theorem retirementDeed?_eq_none {x : Retirement} (h : b.stepRetirement x = none) : b.retirementDeed? x = none := by
  obtain ⟨id, phase⟩ := x
  unfold stepRetirement at h
  rw [retirementDeed?]
  cases phase with
  | counting deadline =>
    dsimp only at h
    split at h <;> cases h
  | waiting deadline =>
    dsimp only at h ⊢
    split at h
    · cases h
    · rename_i hnotice
      rw [if_neg hnotice]
      split at h
      · cases h
      · rename_i hreached
        exact if_neg hreached
  | closing wake =>
    dsimp only at h ⊢
    split at h
    · cases h
    · rename_i hwake
      exact if_neg hwake
  | _ => rfl

/-- A pass that was let in goes on by what it does, or leaves the gate. -/
theorem advances_of_stepPass {t : TaskId} {rest : List (Work α)} {p : Pass} {way : Nat} (hw : b.works t = .pass p :: rest)
    (hg : b.Grounded) (hp : p.phase ≠ .queued) (h : b.stepPass t rest p way = some b') :
    (∃ phase, b'.duty? t = some (.pass { p with phase := phase }) ∧ p.phase.Advances (b.deedOf? p way) phase) ∨
      b'.pool.gate.inside ≠ some t := by
  have hgrounded : (Work.pass p : Work α).IsGrounded b := hg.duties t _ (duty?_of_works hw rfl)
  have hduty : ∀ {c : Balancer α} {q : Pass}, c.tasks = b.tasks → (c.withWorks t (.pass q :: rest)).duty? t = some (.pass q) :=
    fun {c q} hts =>
      have hreworks : Reworks b (c.withWorks t (.pass q :: rest)) t (.pass q :: rest) := reworks_withWorks (lt_of_works hw) hts
      hreworks.duty?_cons rfl
  rw [deedOf?]
  cases PassMove.of_step h with
  | enter phase_eq _ _ _ => exact absurd phase_eq hp
  | attempt phase_eq unfinished at_way step =>
    have hmade := entry?_of_starting hgrounded phase_eq (List.mem_of_getElem? at_way)
    obtain ⟨hendpoint, hframe, _⟩ := stepAttempt_spec hmade step
    obtain ⟨d, hdeed, hadvances⟩ := advances_of_stepAttempt hmade step
    rw [phase_eq]
    dsimp only
    rw [if_neg unfinished, at_way, Option.bind_some, hdeed]
    exact .inl ⟨_, hduty hframe.tasks, .attempt at_way hendpoint hadvances⟩
  | publish phase_eq ended =>
    rw [phase_eq]
    dsimp only
    rw [if_pos ended]
    exact .inl ⟨_, hduty rfl, .publish ended⟩
  | retire phase_eq unfinished at_way step =>
    obtain ⟨entry, he⟩ := entry?_of_retirement hgrounded phase_eq (List.mem_of_getElem? at_way)
    obtain ⟨_, hframe, _⟩ := stepRetirement_spec he step
    rw [phase_eq]
    dsimp only
    rw [if_neg unfinished, at_way, Option.bind_some]
    exact .inl ⟨_, hduty hframe.tasks, .retire (fun d hd => isStop_of_retirementDeed? hd)⟩
  | @conclude added failed retirements phase_eq ended =>
    refine .inr (fun hinside => ?_)
    obtain ⟨metrics, heq⟩ := concludePass_eq b t rest (b.passOutcome added failed retirements)
    rw [heq] at hinside
    change (if b.pool.gate.inside = some t then none else b.pool.gate.inside) = some t at hinside
    split at hinside
    · cases hinside
    · rename_i hout
      exact hout hinside

/-- A pass that was let in and cannot make a step does nothing. -/
theorem deedOf?_eq_none {t : TaskId} {rest : List (Work α)} {p : Pass} {way : Nat} (h : b.stepPass t rest p way = none) :
    b.deedOf? p way = none := by
  obtain ⟨target, publish, phase⟩ := p
  unfold stepPass at h
  rw [deedOf?]
  cases phase with
  | queued => rfl
  | adding wanted attempts =>
    dsimp only at h ⊢
    split at h
    · cases h
    · rename_i hover
      rw [if_neg hover]
      rcases hat : attempts[way]? with _ | a
      · rfl
      · rw [hat, Option.bind_some] at h
        rw [Option.bind_some]
        rcases hstep : b.stepAttempt a with _ | x
        · exact attemptDeed?_eq_none hstep
        · rw [hstep] at h
          cases h
  | retiring added failed retirements =>
    dsimp only at h ⊢
    split at h
    · cases h
    · rename_i hover
      rw [if_neg hover]
      rcases hat : retirements[way]? with _ | x
      · rfl
      · rw [hat, Option.bind_some] at h
        rw [Option.bind_some]
        rcases hstep : b.stepRetirement x with _ | y
        · exact retirementDeed?_eq_none hstep
        · rw [hstep] at h
          cases h

/-- Only a move of a pass that was let in does something. -/
theorem works_of_deed? {a : Action α} (h : b.deed? a ≠ none) :
    ∃ t way p rest, a = .move t way ∧ b.works t = .pass p :: rest ∧ p.phase ≠ .queued := by
  unfold deed? at h
  split at h
  · rename_i t way
    split at h
    · rename_i p hhead
      obtain ⟨rest, hw⟩ := List.head?_eq_some_iff.1 hhead
      refine ⟨t, way, p, rest, rfl, hw, fun hqueued => h ?_⟩
      rw [deedOf?, hqueued]
    · exact absurd rfl h
  · exact absurd rfl h

end Steps

end Balancer

namespace Run

variable (r : Run α)

/-- What a pass does in a step, if one does something. -/
def passDeed? (n : Nat) : Option PassDeed := (r.state n).deed? (r.action n)

/-- What passes have done from a step on and before another, in order. -/
def passDeeds (m n : Nat) : List PassDeed := since r.passDeed? m n

variable {r}
variable {t : TaskId} {q q' : Pass} {n : Nat}

/-- What is done in a step in which the task of a pass moves is what the pass does. -/
theorem passDeed?_of_works {rest : List (Work α)} {way : Nat} (haction : r.action n = .move t way)
    (hw : (r.state n).works t = .pass q :: rest) : r.passDeed? n = (r.state n).deedOf? q way := by
  rw [passDeed?, haction, Balancer.deed?, hw]
  rfl

/-- If something is done in a step, the task of the pass inside moves. -/
theorem works_of_passDeed? (h : r.passDeed? n ≠ none) : ∃ t way q rest, r.action n = .move t way ∧
    (r.state n).works t = .pass q :: rest ∧ (r.state n).insider? = some (t, q) := by
  obtain ⟨t, way, q, rest, haction, hw, hq⟩ := Balancer.works_of_deed? h
  have hd := Balancer.duty?_of_works hw rfl
  exact ⟨t, way, q, rest, haction, hw, Balancer.insider?_eq_some_iff.2 ⟨(r.guarded n).turn t q hd hq, hd⟩⟩

theorem not_queued_of_insider? (h : (r.state n).insider? = some (t, q)) : q.phase ≠ .queued := by
  obtain ⟨hinside, hd⟩ := Balancer.insider?_eq_some_iff.1 h
  obtain ⟨p, hp, hne⟩ := (r.guarded n).inside t hinside
  exact Balancer.pass_eq_of_duty? hd hp ▸ hne

/-- A pass that stays inside goes on by what it does when its task moves. -/
theorem advances_of_move {rest : List (Work α)} {way : Nat} (haction : r.action n = .move t way)
    (hw : (r.state n).works t = .pass q :: rest) (hbefore : (r.state n).insider? = some (t, q))
    (hafter : (r.state (n + 1)).insider? = some (t, q')) :
    q.phase.Advances (r.passDeed? n) q'.phase ∧ q' = { q with phase := q'.phase } := by
  obtain ⟨_, hd⟩ := Balancer.insider?_eq_some_iff.1 hbefore
  obtain ⟨hinside', hd'⟩ := Balancer.insider?_eq_some_iff.1 hafter
  rw [passDeed?_of_works haction hw]
  rcases hstep : (r.state n).stepPass t rest q way with _ | next
  · have hblocked : (r.state n).move t way = none := by
      rw [Balancer.move, hw]
      exact hstep
    rw [state_succ_of_blocked haction hblocked] at hd'
    rw [Balancer.deedOf?_eq_none hstep, Balancer.pass_eq_of_duty? hd hd']
    exact ⟨.rest _, rfl⟩
  · have hnext : r.state (n + 1) = next := by
      rw [state, haction, Balancer.perform, Balancer.move, hw]
      dsimp only [Balancer.step]
      rw [hstep, Option.getD_some]
    rcases Balancer.advances_of_stepPass hw (r.grounded n) (not_queued_of_insider? hbefore) hstep with ⟨phase, hduty, hadvances⟩ | hout
    · rw [hnext] at hd'
      rw [Balancer.pass_eq_of_duty? hduty hd']
      exact ⟨hadvances, rfl⟩
    · exact absurd (hnext ▸ hinside') hout

/-- A pass that stays inside is the same while its task does not move. -/
theorem eq_of_not_move (hbefore : (r.state n).insider? = some (t, q)) (hafter : (r.state (n + 1)).insider? = some (t, q'))
    (hstill : ∀ way rest, r.action n = .move t way → (r.state n).works t ≠ .pass q :: rest) : q' = q := by
  obtain ⟨hinside, hd⟩ := Balancer.insider?_eq_some_iff.1 hbefore
  rcases (r.change n).aside_or_pass_or_drops (r.guarded n) (r.grounded n) with
    haside | ⟨t', way, p, rest, haction, hw, _, hstep⟩ | ⟨t', p, _, hdrops⟩
  · have heq := haside.insider?_eq (r.guarded n)
    rw [hbefore, hafter] at heq
    exact (Prod.mk.inj (Option.some.inj heq)).2
  · have hd' := Balancer.duty?_of_works hw rfl
    have hout : p.phase = .queued := by
      by_contra hp
      obtain rfl : t' = t := Option.some.inj (((r.guarded n).turn t' p hd' hp).symm.trans hinside)
      exact hstill way rest haction (Balancer.pass_eq_of_duty? hd hd' ▸ hw)
    generalize r.state (n + 1) = next at hstep
    cases hstep with
    | enter _ enters _ _ =>
      rw [((Gate.enter?_eq_some_iff _ _ _).1 enters).1] at hinside
      cases hinside
    | attempt phase _ _ _ _ =>
      rw [phase] at hout
      cases hout
    | publish phase _ =>
      rw [phase] at hout
      cases hout
    | retire phase _ _ _ _ _ =>
      rw [phase] at hout
      cases hout
    | conclude phase _ =>
      rw [phase] at hout
      cases hout
  · rw [Balancer.insider?_eq_none hdrops.free] at hafter
    cases hafter

/-- A pass that stays inside goes on by what is done in the step. -/
theorem advances (hbefore : (r.state n).insider? = some (t, q)) (hafter : (r.state (n + 1)).insider? = some (t, q')) :
    q.phase.Advances (r.passDeed? n) q'.phase ∧ q' = { q with phase := q'.phase } := by
  by_cases hmove : ∃ way rest, r.action n = .move t way ∧ (r.state n).works t = .pass q :: rest
  · obtain ⟨way, rest, haction, hw⟩ := hmove
    exact advances_of_move haction hw hbefore hafter
  · have hnone : r.passDeed? n = none := by
      by_contra hsome
      obtain ⟨t', way, p, rest, haction, hw, hp⟩ := works_of_passDeed? hsome
      obtain ⟨rfl, rfl⟩ := Balancer.insider?_inj hp hbefore
      exact hmove ⟨way, rest, haction, hw⟩
    rw [hnone, eq_of_not_move hbefore hafter (fun way rest haction hw => hmove ⟨way, rest, haction, hw⟩)]
    exact ⟨.rest _, rfl⟩

/-! ## Passes from their first step to their last one -/

/-- Whether a pass that waits for its turn is let in by a step, and goes on until another step, which is its last one and tells what it has
done. -/
structure Passes (r : Run α) (t : TaskId) (p : Pass) (m n : Nat) (o : ReconcileOutcome) : Prop where
  later : m < n
  free : (r.state m).pool.gate.inside = none
  waits : (r.state m).duty? t = some (.pass p)
  inside : ∀ i, m < i → i ≤ n → (r.state i).pool.gate.inside = some t
  leaves : (r.state (n + 1)).pool.gate.inside = none
  kept : r.action n ≠ .abandon t
  tells : ((r.state (n + 1)).task? t).map Task.outcome = some (.reconciled o)

section Passes

variable {p : Pass} {m i : Nat} {o : ReconcileOutcome}

/-- When a pass is let in, it has to start what is missing, and nothing is different otherwise. -/
theorem Passes.enters (h : r.Passes t p m n o) : ∃ attempts, (r.state (m + 1)).insider? =
    some (t, { p with phase := .adding ((r.state m).wanted p.target) attempts }) ∧
      attempts = ((r.state m).pool.missing ((r.state m).wanted p.target)).map (fun e => ⟨e, .pending⟩) ∧
      Balancer.Ageless (r.state m) (r.state (m + 1)) ∧ (r.state (m + 1)).ring = (r.state m).ring := by
  have hinside := h.inside (m + 1) (Nat.lt_succ_self m) h.later
  obtain ⟨q, hq, _⟩ := (r.guarded (m + 1)).insider? hinside
  have hnobody := Balancer.insider?_eq_none h.free
  rcases r.passing_or_drops m with hpassing | ⟨_, _, _, hdrops⟩
  · cases hpassing with
    | aside _ inside _ _ =>
      rw [inside, hnobody] at hq
      cases hq
    | @enter t' p' wanted attempts _ waits after wanted_eq attempts_eq ageless ring =>
      obtain ⟨rfl, rfl⟩ := Balancer.insider?_inj hq after
      obtain rfl := Balancer.pass_eq_of_duty? h.waits waits
      exact ⟨attempts, wanted_eq ▸ hq, wanted_eq ▸ attempts_eq, ageless, ring⟩
    | attempt before _ _ _ _ _ _ _ => cases hnobody.symm.trans before
    | publish before _ _ _ _ _ => cases hnobody.symm.trans before
    | retire before _ _ _ _ _ _ _ _ => cases hnobody.symm.trans before
    | conclude before _ _ _ _ _ _ => cases hnobody.symm.trans before
  · rw [hdrops.free] at hinside
    cases hinside

theorem Passes.passDeed?_eq_none (h : r.Passes t p m n o) : r.passDeed? m = none := by
  by_contra hsome
  obtain ⟨_, _, _, _, _, _, hinside⟩ := works_of_passDeed? hsome
  cases (Balancer.insider?_eq_none h.free).symm.trans hinside

/-- From its first step to its last one, a pass follows what was done since it was let in. -/
theorem Passes.follows_deeds (h : r.Passes t p m n o) (hmi : m < i) (hin : i ≤ n) : ∃ phase : PassPhase,
    (r.state i).insider? = some (t, { p with phase := phase }) ∧
      phase.Follows ((r.state m).pool.missing ((r.state m).wanted p.target)) (r.passDeeds m i) := by
  have hmissing := Balancer.nodup_missing (r.state m).pool ((r.state m).wanted p.target)
  induction i, hmi using Nat.le_induction with
  | base =>
    obtain ⟨attempts, hafter, rfl, _, _⟩ := h.enters
    refine ⟨_, hafter, ?_⟩
    rw [passDeeds, since_succ (Nat.le_refl m), since_self, h.passDeed?_eq_none]
    refine ⟨Balancer.map_endpoint_missing _, fun a ha => ?_, fun _ hd => nomatch hd⟩
    obtain ⟨e, _, rfl⟩ := List.mem_map.1 ha
    rfl
  | succ i hmi ih =>
    obtain ⟨phase, hbefore, hfollows⟩ := ih (Nat.le_of_succ_le hin)
    obtain ⟨q, hafter, _⟩ := (r.guarded (i + 1)).insider? (h.inside (i + 1) (Nat.lt_succ_of_lt hmi) hin)
    obtain ⟨hadvances, hq⟩ := advances hbefore hafter
    refine ⟨q.phase, by rw [hafter, hq], ?_⟩
    rw [passDeeds, since_succ (Nat.le_of_lt hmi), ← passDeeds]
    exact hfollows.advances hmissing hadvances

/-- The pass inside follows what was done since it was let in. -/
theorem Passes.follows_of_insider? (h : r.Passes t p m n o) (hmi : m < i) (hin : i ≤ n) {phase : PassPhase}
    (hp : (r.state i).insider? = some (t, { p with phase := phase })) :
    phase.Follows ((r.state m).pool.missing ((r.state m).wanted p.target)) (r.passDeeds m i) := by
  obtain ⟨phase', hp', hfollows⟩ := h.follows_deeds hmi hin
  obtain ⟨_, heq⟩ := Balancer.insider?_inj hp' hp
  injection heq with _ _ hphase
  exact hphase ▸ hfollows

/-- Whenever its task moves, a pass leaves the lines of what it does in the log. -/
theorem Passes.logs (h : r.Passes t p m n o) (hmi : m ≤ i) (hin : i ≤ n) {way : Nat} (haction : r.action i = .move t way) :
    ∃ lines, (r.state (i + 1)).events = (r.state i).events ++ lines ∧ Balancer.Logs (r.state i) (r.passDeed? i) lines := by
  have hduty : ∃ q, (r.state i).duty? t = some (.pass q) := by
    rcases Nat.lt_or_eq_of_le hmi with hmi | rfl
    · obtain ⟨phase, hp, _⟩ := h.follows_deeds hmi hin
      exact ⟨_, (Balancer.insider?_eq_some_iff.1 hp).2⟩
    · exact ⟨p, h.waits⟩
  obtain ⟨q, hd⟩ := hduty
  obtain ⟨rest, hw, _⟩ := Balancer.works_of_duty? hd
  rw [passDeed?_of_works haction hw, state, haction, Balancer.perform, Balancer.move, hw]
  dsimp only [Balancer.step]
  rcases hstep : (r.state i).stepPass t rest q way with _ | next
  · rw [Option.getD_none, Balancer.deedOf?_eq_none hstep]
    exact ⟨[], (List.append_nil _).symm, .none⟩
  · rw [Option.getD_some]
    exact Balancer.logs_of_stepPass hw (r.grounded i) hstep

end Passes

end Run

end TelemetryRouter
