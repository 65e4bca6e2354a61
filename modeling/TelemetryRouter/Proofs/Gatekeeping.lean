import TelemetryRouter.Proofs.Stacks

/-!
# Resolutions, one at a time

The resolver's gate lets one resolution in at a time, so the resolutions of all tasks follow each other: each of them asks the source,
hears one answer, tells the subscriber if the answer changed the list, and ends. Whatever else happens, no answer comes in and no
list gets into a mailbox. So to find out what a resolver has told, it is enough to look at the resolution that was let in.
-/

namespace TelemetryRouter

variable {α : Type}

/-- The list that a resolution has still to tell, if any. -/
def ResolutionPhase.pending? : ResolutionPhase → Option (List Endpoint)
  | .announcing endpoints => some endpoints
  | .sending _ endpoints => some endpoints
  | _ => none

namespace Balancer

/-- The phase of the resolution that was let in, if there is one. -/
def phase? (b : Balancer α) : Option ResolutionPhase :=
  b.resolver.gate.inside.bind (fun t => match b.works t with
    | .resolution phase :: _ => some phase
    | _ => none)

/-- The works of every task form a stack, and the tasks with resolutions are those at the gate: one inside, whose resolution was let
in, and the others in front of it. -/
structure Gated (b : Balancer α) : Prop where
  polling : b.resolver.kind.isPolling = true
  stacked : ∀ t, Stack (b.works t)
  turn : ∀ t phase rest, b.works t = .resolution phase :: rest → phase ≠ .queued → b.resolver.gate.inside = some t
  taken : ∀ t, b.resolver.gate.inside = some t → ∃ phase rest, b.works t = .resolution phase :: rest ∧ phase ≠ .queued
  waits : ∀ t, t ∈ b.resolver.gate.waiting ↔ ∃ rest, b.works t = .resolution .queued :: rest
  once : b.resolver.gate.waiting.Nodup

/-- What an action does to the resolution that was let in, told by the phase of the resolution that it brings on. -/
inductive Shift (b b' : Balancer α) : Option ResolutionPhase → Prop
  | quiet (phase : b'.phase? = b.phase?) (hushed : Hushed b b') : Shift b b' none
  | ask {arrival : Option Nat} {result : Except RouterError (List Endpoint)} {deadline : Instant} (before : b.phase? = none)
    (after : b'.phase? = some (.listing arrival result deadline)) (hushed : Hushed b b') : Shift b b' (some .queued)
  | hear {arrival : Option Nat} {result answer : Except RouterError (List Endpoint)} {deadline : Instant}
    (before : b.phase? = some (.listing arrival result deadline)) (heard : b.heard? arrival result deadline = some answer)
    (after : b'.phase? = some (.after (change? b.resolver.known answer)))
    (known : b'.resolver.known = (change? b.resolver.known answer).getD b.resolver.known)
    (name : b'.resolver.name = b.resolver.name)
    (resolutions : ∀ success, b'.metrics.resolutions b.resolver.name success =
      b.metrics.resolutions b.resolver.name success + if success = succeeds answer then 1 else 0)
    (messages : ∀ box, b'.messages box = b.messages box) : Shift b b' (some (.listing arrival result deadline))
  | tell {endpoints : List Endpoint} {box : MailboxId} (before : b.phase? = some (.announcing endpoints))
    (subscriber : b.resolver.subscriber = some box) (after : b'.phase? = some (.sending box endpoints)) (hushed : Hushed b b') :
    Shift b b' (some (.announcing endpoints))
  | keep {endpoints : List Endpoint} (before : b.phase? = some (.announcing endpoints)) (subscriber : b.resolver.subscriber = none)
    (after : b'.phase? = some .ending) (hushed : Hushed b b') : Shift b b' (some (.announcing endpoints))
  | lose {box : MailboxId} {endpoints : List Endpoint} (before : b.phase? = some (.sending box endpoints))
    (gone : b.hasReceiver box = false) (after : b'.phase? = some .ending) (hushed : Hushed b b') :
    Shift b b' (some (.sending box endpoints))
  | put {box : MailboxId} {endpoints : List Endpoint} (before : b.phase? = some (.sending box endpoints))
    (read : b.hasReceiver box = true) (after : b'.phase? = some .ending) (known : b'.resolver.known = b.resolver.known)
    (name : b'.resolver.name = b.resolver.name) (resolutions : b'.metrics.resolutions = b.metrics.resolutions)
    (messages : ∀ x, b'.messages x = if x = box then b.messages box ++ [endpoints] else b.messages x) :
    Shift b b' (some (.sending box endpoints))
  | conclude (before : b.phase? = some .ending) (after : b'.phase? = none) (hushed : Hushed b b') : Shift b b' (some .ending)

section Gated

variable {b b' : Balancer α} {t : TaskId} {rest ws started : List (Work α)}

theorem phase?_of_inside {phase : ResolutionPhase} (hinside : b.resolver.gate.inside = some t)
    (hw : b.works t = .resolution phase :: rest) : b.phase? = some phase := by
  rw [phase?, hinside, Option.bind_some, hw]

theorem phase?_of_free (hfree : b.resolver.gate.inside = none) : b.phase? = none := by
  rw [phase?, hfree]
  rfl

theorem gated_new (options : BalancerOptions) (adapter : Adapter α) (source : Source) (interval timeout : Duration)
    (backends : Backends) : (new options adapter (.polling source interval timeout) backends).Gated where
  polling := rfl
  stacked := fun _ => .apart (fun _ hw => nomatch hw)
  turn := fun _ _ _ hw => nomatch hw
  taken := fun _ ht => nomatch ht
  waits := fun _ => ⟨(fun hmem => nomatch hmem), (fun ⟨_, hw⟩ => nomatch hw)⟩
  once := List.nodup_nil

/-! ## Rearrangements -/

theorem ne_resolution_of_isApart (h : ∀ w ∈ ws, w.isApart = true) (phase : ResolutionPhase) : ws ≠ .resolution phase :: rest := by
  rintro rfl
  cases h _ List.mem_cons_self

/-- A rearrangement changes no resolution; at most its task comes to the gate with one. -/
theorem Rearranges.gate {a : Action α} {old new : List (Work α)} {desk : Desk} (h : Rearranges b t a old new started desk) :
    (∀ phase rest, old ≠ .resolution phase :: rest) ∧ (∀ phase rest, started ≠ .resolution phase :: rest) ∧
      ((desk.gate = b.desk.gate ∧ ∀ phase rest, new ≠ .resolution phase :: rest) ∨
        (desk.gate = b.desk.gate.join t ∧ ∃ rest, new = .resolution .queued :: rest)) := by
  have hnil : ∀ phase rest, ([] : List (Work α)) ≠ .resolution phase :: rest := fun _ _ h => nomatch h
  have hcons : ∀ {w : Work α} {ws : List (Work α)}, (∀ phase, w ≠ .resolution phase) →
      ∀ phase rest, w :: ws ≠ .resolution phase :: rest := by
    intro w ws hw phase rest heq
    injection heq with heq
    exact hw phase heq
  cases h with
  | apart before after beside =>
    exact ⟨fun phase _ => ne_resolution_of_isApart before phase, fun phase _ => ne_resolution_of_isApart beside phase,
      .inl ⟨rfl, fun phase _ => ne_resolution_of_isApart after phase⟩⟩
  | resolve _ => exact ⟨hnil, hnil, .inr ⟨rfl, _, rfl⟩⟩
  | lifecycle _ _ begins =>
    refine ⟨hnil, hnil, .inl ⟨rfl, ?_⟩⟩
    rcases begins with rfl | ⟨box, rfl⟩ | ⟨rest, _, rfl⟩ <;> exact hcons (fun _ h => nomatch h)
  | startBalancer _ => exact ⟨hcons (fun _ h => nomatch h), hnil, .inl ⟨rfl, hcons (fun _ h => nomatch h)⟩⟩
  | refuse refused =>
    refine ⟨hcons ?_, hnil, .inl ⟨rfl, hnil⟩⟩
    rcases refused with rfl | ⟨box, rfl⟩ <;> exact fun _ h => nomatch h
  | startResolver _ _ => exact ⟨hcons (fun _ h => nomatch h), hnil, .inr ⟨rfl, _, rfl⟩⟩
  | register h =>
    exact ⟨hcons (fun _ h => nomatch h), hcons (fun _ h => nomatch h), .inl ⟨rfl, fun phase _ => ne_resolution_of_isApart h phase⟩⟩
  | stopPolls _ _ => exact ⟨hcons (fun _ h => nomatch h), hnil, .inl ⟨rfl, hcons (fun _ h => nomatch h)⟩⟩
  | stopUnpolled _ _ => exact ⟨hcons (fun _ h => nomatch h), hnil, .inl ⟨rfl, hcons (fun _ h => nomatch h)⟩⟩
  | awaitPolls _ _ => exact ⟨hcons (fun _ h => nomatch h), hnil, .inl ⟨rfl, hcons (fun _ h => nomatch h)⟩⟩
  | forget h => exact ⟨hcons (fun _ h => nomatch h), hnil, .inl ⟨rfl, fun phase _ => ne_resolution_of_isApart h phase⟩⟩
  | beginPolls => exact ⟨hcons (fun _ h => nomatch h), hnil, .inl ⟨rfl, hcons (fun _ h => nomatch h)⟩⟩
  | endPolls => exact ⟨hcons (fun _ h => nomatch h), hnil, .inl ⟨rfl, hnil⟩⟩
  | poll => exact ⟨hcons (fun _ h => nomatch h), hnil, .inr ⟨rfl, _, rfl⟩⟩

/-- The resolutions of the tasks after a rearrangement: those before, and perhaps one that has just come to the gate. -/
theorem resolution_iff_of_rearranges {a : Action α} {old new : List (Work α)} {desk : Desk} (works : b.works t = old)
    (leaves : Leaves b b' t new started) (h : Rearranges b t a old new started desk) (x : TaskId) (phase : ResolutionPhase) :
    (∃ rest, b'.works x = .resolution phase :: rest) ↔
      (∃ rest, b.works x = .resolution phase :: rest) ∨ (x = t ∧ ∃ rest, new = .resolution phase :: rest) := by
  obtain ⟨hold, hstarted, _⟩ := h.gate
  have hx := leaves x
  split at hx
  · rename_i heq
    subst heq
    rw [hx, works]
    exact ⟨fun h => .inr ⟨rfl, h⟩, fun h => h.elim (fun ⟨rest, h⟩ => absurd h (hold phase rest)) And.right⟩
  · rename_i hne
    split at hx
    · rename_i heq
      subst heq
      rw [hx, works_nextTask]
      exact ⟨fun ⟨rest, h⟩ => absurd h (hstarted phase rest),
        fun h => h.elim (fun ⟨_, h⟩ => nomatch h) (fun h => absurd h.1 hne)⟩
    · rw [hx]
      exact ⟨.inl, fun h => h.resolve_right (fun h => hne h.1)⟩

/-- A rearrangement leaves the resolutions behind the gate. -/
theorem Gated.rearrange (hb : b.Gated) (hstacks : ∀ x, Stack (b'.works x)) {a : Action α} {old new : List (Work α)}
    (works : b.works t = old) (leaves : Leaves b b' t new started) (hushed : Hushed b b')
    (rearranges : Rearranges b t a old new started b'.desk) : b'.Gated ∧ b'.phase? = b.phase? := by
  obtain ⟨hold, _, hgate⟩ := rearranges.gate
  have hiff := resolution_iff_of_rearranges works leaves rearranges
  have hnot : ∀ phase rest, b.works t ≠ .resolution phase :: rest := fun phase rest heq => hold phase rest (works ▸ heq)
  have hqueued : ∀ phase rest, new = .resolution phase :: rest → phase = .queued := by
    rintro phase rest rfl
    rcases hgate with ⟨_, hnew⟩ | ⟨_, rest', hnew⟩
    · exact absurd rfl (hnew phase rest)
    · injection hnew with hnew
      injection hnew
  have hinside : b'.resolver.gate.inside = b.resolver.gate.inside := by
    rcases hgate with ⟨hgate, _⟩ | ⟨hgate, _⟩
    · exact congrArg Gate.inside hgate
    · have hjoined : b'.desk.gate.inside = (b.desk.gate.join t).inside := congrArg Gate.inside hgate
      exact hjoined
  have htaken : ∀ x, b'.resolver.gate.inside = some x → ∃ phase rest, b'.works x = .resolution phase :: rest ∧ phase ≠ .queued ∧
      b.phase? = some phase := by
    intro x hx
    rw [hinside] at hx
    obtain ⟨phase, rest, hw, hne⟩ := hb.taken x hx
    obtain ⟨rest', hw'⟩ := (hiff x phase).2 (.inl ⟨rest, hw⟩)
    exact ⟨phase, rest', hw', hne, phase?_of_inside hx hw⟩
  refine ⟨⟨hushed.polling.trans hb.polling, hstacks, fun x phase rest hw hne => ?_, fun x hx => ?_, fun x => ?_, ?_⟩, ?_⟩
  · rw [hinside]
    rcases (hiff x phase).1 ⟨rest, hw⟩ with ⟨rest', hw'⟩ | ⟨_, rest', hnew⟩
    · exact hb.turn x phase rest' hw' hne
    · exact absurd (hqueued phase rest' hnew) hne
  · obtain ⟨phase, rest, hw, hne, _⟩ := htaken x hx
    exact ⟨phase, rest, hw, hne⟩
  · rw [hiff x .queued, ← hb.waits x]
    rcases hgate with ⟨hgate, hnew⟩ | ⟨hgate, hnew⟩
    · have hwaiting : b'.resolver.gate.waiting = b.resolver.gate.waiting := congrArg Gate.waiting hgate
      rw [hwaiting]
      exact (or_iff_left (fun ⟨_, rest, heq⟩ => hnew .queued rest heq)).symm
    · have hwaiting : b'.resolver.gate.waiting = b.resolver.gate.waiting ++ [t] := congrArg Gate.waiting hgate
      rw [hwaiting, List.mem_append, List.mem_singleton]
      exact or_congr_right ⟨fun heq => ⟨heq, hnew⟩, And.left⟩
  · rcases hgate with ⟨hgate, _⟩ | ⟨hgate, _⟩
    · have hwaiting : b'.resolver.gate.waiting = b.resolver.gate.waiting := congrArg Gate.waiting hgate
      rw [hwaiting]
      exact hb.once
    · have hwaiting : b'.resolver.gate.waiting = b.resolver.gate.waiting ++ [t] := congrArg Gate.waiting hgate
      rw [hwaiting, List.nodup_append]
      refine ⟨hb.once, List.pairwise_singleton _ t, fun x hx y hy heq => ?_⟩
      rw [List.mem_singleton.1 hy] at heq
      subst heq
      obtain ⟨rest, hw⟩ := (hb.waits x).1 hx
      exact hnot .queued rest hw
  · rcases hfree : b'.resolver.gate.inside with _ | x
    · rw [phase?_of_free hfree, phase?_of_free (hinside ▸ hfree)]
    · obtain ⟨phase, rest, hw, _, hphase⟩ := htaken x hfree
      rw [phase?_of_inside hfree hw, hphase]

/-! ## Steps of resolutions -/

theorem ResolutionStep.works_eq {phase : ResolutionPhase} (hw : b.works t = .resolution phase :: rest)
    (h : ResolutionStep b t rest phase ws b') (x : TaskId) : b'.works x = if x = t then ws else b.works x :=
  leaves_nil_iff.1 (h.leaves (lt_of_works hw)) x

theorem ask_frame (r : Resolver) : r.ask.2.gate = r.gate ∧ r.ask.2.known = r.known ∧ r.ask.2.name = r.name ∧
    r.ask.2.kind.isPolling = r.kind.isPolling ∧ r.ask.2.subscriber = r.subscriber ∧ r.ask.2.poller = r.poller := by
  unfold Resolver.ask
  split
  · rename_i source interval timeout hkind
    refine ⟨rfl, rfl, ?_, ?_, rfl, rfl⟩
    · rw [Resolver.name, Resolver.name, hkind]
    · rw [hkind]
      rfl
  · exact ⟨rfl, rfl, rfl, rfl, rfl, rfl⟩

/-- A resolution goes into the gate with its first step and out of it with its last. -/
theorem ResolutionStep.gate {phase : ResolutionPhase} (h : ResolutionStep b t rest phase ws b') :
    (phase = .queued ∧ b.resolver.gate.enter? t = some b'.resolver.gate) ∨
      (phase ≠ .queued ∧ phase ≠ .ending ∧ b'.resolver.gate = b.resolver.gate) ∨
        (phase = .ending ∧ b'.resolver.gate = b.resolver.gate.leave t) := by
  cases h with
  | @ask gate asked source interval timeout answer ws enters kind asked_eq works_eq =>
    have hgate : asked.gate = gate := by
      have := (ask_frame { b.resolver with gate := gate }).1
      rw [asked_eq] at this
      exact this
    exact .inl ⟨rfl, enters.trans (congrArg some hgate.symm)⟩
  | skip enters _ => exact .inl ⟨rfl, enters⟩
  | conclude => exact .inr (.inr ⟨rfl, rfl⟩)
  | _ => exact .inr (.inl ⟨(fun h => nomatch h), (fun h => nomatch h), rfl⟩)

/-- A step of a resolution leaves the subscriber and the polls. -/
theorem ResolutionStep.subscriber_eq {phase : ResolutionPhase} (h : ResolutionStep b t rest phase ws b') :
    b'.resolver.subscriber = b.resolver.subscriber ∧ b'.resolver.poller = b.resolver.poller := by
  cases h with
  | @ask gate asked source interval timeout answer ws enters kind asked_eq works_eq =>
    obtain ⟨_, _, _, _, hsubscriber, hpoller⟩ := ask_frame { b.resolver with gate := gate }
    rw [asked_eq] at hsubscriber hpoller
    exact ⟨hsubscriber, hpoller⟩
  | _ => exact ⟨rfl, rfl⟩

/-- A step of a resolution leaves the kind of the resolver. -/
theorem ResolutionStep.polling_eq {phase : ResolutionPhase} (h : ResolutionStep b t rest phase ws b') :
    b'.resolver.kind.isPolling = b.resolver.kind.isPolling := by
  cases h with
  | @ask gate asked source interval timeout answer ws enters kind asked_eq works_eq =>
    have hpolling := (ask_frame { b.resolver with gate := gate }).2.2.2.1
    rw [asked_eq] at hpolling
    exact hpolling
  | _ => rfl

theorem ne_resolution_of_stack {phase phase' : ResolutionPhase} {rest' : List (Work α)} (h : Stack (.resolution phase :: rest)) :
    rest ≠ .resolution phase' :: rest' := by
  rintro rfl
  cases h with
  | apart h => cases h _ List.mem_cons_self

/-- The resolutions stay behind the gate when one of them is let in. -/
theorem Gated.enter (hb : b.Gated) (hpolling : b'.resolver.kind.isPolling = true) (hstacks : ∀ x, Stack (b'.works x))
    {phase : ResolutionPhase} (hlet : phase ≠ .queued)
    (hx : ∀ x, b'.works x = if x = t then .resolution phase :: rest else b.works x)
    (henters : b.resolver.gate.enter? t = some b'.resolver.gate) : b'.Gated := by
  obtain ⟨hfree, hwaiting, hinside⟩ := (Gate.enter?_eq_some_iff _ _ _).1 henters
  have honce := hb.once
  rw [hwaiting, List.nodup_cons] at honce
  refine ⟨hpolling, hstacks, fun x q rest' hw hq => ?_, fun x htaken => ?_, fun x => ?_, honce.2⟩
  · rw [hx] at hw
    split at hw
    · rename_i heq
      rw [heq, hinside]
    · have hturn := hb.turn x q rest' hw hq
      rw [hfree] at hturn
      cases hturn
  · rw [hinside] at htaken
    injection htaken with heq
    exact ⟨phase, rest, by rw [hx, if_pos heq.symm], hlet⟩
  · rw [hx]
    split
    · rename_i heq
      rw [heq]
      refine ⟨fun hmem => absurd hmem honce.1, fun ⟨rest', hw⟩ => ?_⟩
      injection hw with hw
      injection hw with hw
      exact absurd hw hlet
    · rename_i hne
      rw [← hb.waits x, hwaiting, List.mem_cons, or_iff_right hne]

/-- The resolutions stay behind the gate while the one inside goes on. -/
theorem Gated.goOn (hb : b.Gated) (hpolling : b'.resolver.kind.isPolling = true) (hstacks : ∀ x, Stack (b'.works x))
    {phase phase' : ResolutionPhase} (works : b.works t = .resolution phase :: rest) (hne : phase ≠ .queued) (hlet : phase' ≠ .queued)
    (hx : ∀ x, b'.works x = if x = t then .resolution phase' :: rest else b.works x)
    (hgate : b'.resolver.gate = b.resolver.gate) : b'.Gated := by
  have hinside := hb.turn t phase rest works hne
  refine ⟨hpolling, hstacks, fun x q rest' hw hq => ?_, fun x htaken => ?_, fun x => ?_, hgate ▸ hb.once⟩
  · rw [hgate]
    rw [hx] at hw
    split at hw
    · rename_i heq
      rw [heq, hinside]
    · exact hb.turn x q rest' hw hq
  · rw [hgate, hinside] at htaken
    injection htaken with heq
    exact ⟨phase', rest, by rw [hx, if_pos heq.symm], hlet⟩
  · rw [hgate, hx, hb.waits x]
    split
    · rename_i heq
      rw [heq, works]
      refine ⟨fun ⟨rest', hw⟩ => ?_, fun ⟨rest', hw⟩ => ?_⟩
      · injection hw with hw
        injection hw with hw
        exact absurd hw hne
      · injection hw with hw
        injection hw with hw
        exact absurd hw hlet
    · rfl

/-- The resolutions stay behind the gate when the one inside leaves. -/
theorem Gated.leave (hb : b.Gated) (hpolling : b'.resolver.kind.isPolling = true) (hstacks : ∀ x, Stack (b'.works x))
    (works : b.works t = .resolution .ending :: rest) (hx : ∀ x, b'.works x = if x = t then rest else b.works x)
    (hgate : b'.resolver.gate = b.resolver.gate.leave t) : b'.Gated := by
  have hinside := hb.turn t .ending _ works (fun h => nomatch h)
  have hout : t ∉ b.resolver.gate.waiting := fun hmem => by
    obtain ⟨rest', hw⟩ := (hb.waits t).1 hmem
    rw [works] at hw
    cases hw
  have hfree : b'.resolver.gate.inside = none := by
    rw [hgate]
    exact if_pos hinside
  have hwaiting : b'.resolver.gate.waiting = b.resolver.gate.waiting := by
    rw [hgate]
    exact List.filter_eq_self.2 (fun x hmem => decide_eq_true (fun heq => hout (heq ▸ hmem)))
  have hrest : ∀ {q : ResolutionPhase} {rest' : List (Work α)}, rest ≠ .resolution q :: rest' :=
    ne_resolution_of_stack (works ▸ hb.stacked t)
  refine ⟨hpolling, hstacks, fun x q rest' hw hq => ?_, fun x htaken => ?_, fun x => ?_, hwaiting ▸ hb.once⟩
  · rw [hx] at hw
    split at hw
    · exact absurd hw hrest
    · rename_i hne
      have hturn := hb.turn x q rest' hw hq
      rw [hinside] at hturn
      injection hturn with heq
      exact absurd heq.symm hne
  · rw [hfree] at htaken
    cases htaken
  · rw [hwaiting, hx]
    split
    · rename_i heq
      rw [heq]
      exact ⟨fun hmem => absurd hmem hout, fun ⟨_, hw⟩ => absurd hw hrest⟩
    · exact hb.waits x

/-- A step of a resolution leaves the resolutions behind the gate. -/
theorem Gated.resolutionStep (hb : b.Gated) (hstacks : ∀ x, Stack (b'.works x)) {phase : ResolutionPhase}
    (works : b.works t = .resolution phase :: rest) (step : ResolutionStep b t rest phase ws b') : b'.Gated := by
  have hx := step.works_eq works
  have hpolling := step.polling_eq.trans hb.polling
  rcases step.gate with ⟨rfl, henters⟩ | ⟨hne, hnot, hgate⟩ | ⟨rfl, hgate⟩
  · obtain ⟨_, phase', rfl, hlet⟩ := step.goes.resolve_right (fun h => nomatch h.1)
    exact hb.enter hpolling hstacks hlet hx henters
  · obtain ⟨_, phase', rfl, hlet⟩ := step.goes.resolve_right (fun h => hnot h.1)
    exact hb.goOn hpolling hstacks works hne hlet hx hgate
  · obtain ⟨_, rfl⟩ := step.goes.resolve_left (fun h => h.1 rfl)
    exact hb.leave hpolling hstacks works hx hgate

theorem Gated.stir (hb : b.Gated) {a : Action α} (h : Stir b a b') : b'.Gated := by
  have hstacks := h.stacked hb.stacked
  cases h with
  | resolution works _ step => exact hb.resolutionStep hstacks works step
  | rearrange _ works leaves hushed rearranges => exact (hb.rearrange hstacks works leaves hushed rearranges).1

/-! ## Shifts -/

/-- The messages of all mailboxes stay where a sender comes to one. -/
theorem messages_join (b : Balancer α) (box x : MailboxId) (t : TaskId) :
    (b.changeMailbox box (·.join t)).messages x = b.messages x := by
  rw [messages_changeMailbox]
  split
  · rename_i heq
    rw [heq, messages]
    cases b.mailboxes[box]? <;> rfl
  · rfl

/-- The messages of all mailboxes stay where a sender leaves one. -/
theorem messages_leave (b : Balancer α) (box x : MailboxId) (t : TaskId) :
    (b.changeMailbox box (·.leave t)).messages x = b.messages x := by
  rw [messages_changeMailbox]
  split
  · rename_i heq
    rw [heq, messages]
    cases b.mailboxes[box]? <;> rfl
  · rfl

/-- A message that is put into a mailbox that is there comes to its end. -/
theorem messages_put {b : Balancer α} {box : MailboxId} {t : TaskId} (ready : (b.mailboxes[box]?).any (·.ready t) = true)
    (endpoints : List Endpoint) (x : MailboxId) :
    (b.changeMailbox box (·.put t endpoints)).messages x =
      if x = box then b.messages box ++ [endpoints] else b.messages x := by
  rw [messages_changeMailbox]
  split
  · rw [messages]
    cases hm : b.mailboxes[box]? with
    | none =>
      rw [hm] at ready
      cases ready
    | some m => rfl
  · rfl

theorem hear_frame (b : Balancer α) (answer : Except RouterError (List Endpoint)) :
    (b.hear answer).resolver.name = b.resolver.name ∧ ∀ success, (b.hear answer).metrics.resolutions b.resolver.name success =
      b.metrics.resolutions b.resolver.name success + if success = succeeds answer then 1 else 0 :=
  ⟨rfl, fun success => MetricBook.resolutions_recordResolution b.metrics b.resolver.name (succeeds answer) success⟩

/-- What a step of a resolution does to the resolution that was let in. -/
theorem Gated.shift_resolution (hb : b.Gated) (hb' : b'.Gated) {phase : ResolutionPhase}
    (works : b.works t = .resolution phase :: rest) (step : ResolutionStep b t rest phase ws b') : Shift b b' (some phase) := by
  have hself : b'.works t = ws := by rw [step.works_eq works, if_pos rfl]
  have hbefore : phase ≠ .queued → b.phase? = some phase := fun hne => phase?_of_inside (hb.turn t phase rest works hne) works
  have hafter : ∀ {q : ResolutionPhase}, ws = .resolution q :: rest → q ≠ .queued → b'.phase? = some q := by
    intro q hq hne
    exact phase?_of_inside (hb'.turn t q rest (hself.trans hq) hne) (hself.trans hq)
  cases step with
  | @ask gate asked source interval timeout answer ws enters kind asked_eq works_eq =>
    obtain ⟨hfree, _, _⟩ := (Gate.enter?_eq_some_iff _ _ _).1 enters
    obtain ⟨_, hknown, hname, hpolling, _, _⟩ := ask_frame { b.resolver with gate := gate }
    rw [asked_eq] at hknown hname hpolling
    exact .ask (phase?_of_free hfree) (hafter works_eq (fun h => nomatch h)) ⟨hknown, hname, hpolling, rfl, fun box => ⟨0, rfl⟩⟩
  | skip _ kind =>
    rw [hb.polling] at kind
    cases kind
  | @hear arrival result answer deadline heard =>
    obtain ⟨hname, hresolutions⟩ := hear_frame b answer
    refine .hear (hbefore (fun h => nomatch h)) heard (hafter rfl ?_) rfl hname hresolutions (fun _ => rfl)
    unfold ResolutionPhase.after
    split <;> exact fun h => nomatch h
  | @tell endpoints box subscriber =>
    exact .tell (hbefore (fun h => nomatch h)) subscriber (hafter rfl (fun h => nomatch h))
      (.of_eq rfl rfl rfl (fun x => ⟨0, messages_join b box x t⟩))
  | keep subscriber =>
    exact .keep (hbefore (fun h => nomatch h)) subscriber (hafter rfl (fun h => nomatch h)) (.of_feed rfl)
  | @lose box endpoints gone =>
    exact .lose (hbefore (fun h => nomatch h)) gone (hafter rfl (fun h => nomatch h))
      (.of_eq rfl rfl rfl (fun x => ⟨0, messages_leave b box x t⟩))
  | @put box endpoints read ready =>
    exact .put (hbefore (fun h => nomatch h)) read (hafter rfl (fun h => nomatch h)) rfl rfl rfl (messages_put ready endpoints)
  | conclude =>
    have hinside := hb.turn t .ending rest works (fun h => nomatch h)
    refine .conclude (hbefore (fun h => nomatch h)) (phase?_of_free ?_) (.of_eq rfl rfl rfl (fun _ => ⟨0, rfl⟩))
    exact if_pos hinside

/-- What an action does to the resolution that was let in. -/
theorem Gated.shift (hb : b.Gated) {a : Action α} (h : Stir b a b') : Shift b b' (b.resolving? a) := by
  have hb' := hb.stir h
  have hstacks := hb'.stacked
  cases h with
  | resolution works resolving step =>
    rw [resolving]
    exact hb.shift_resolution hb' works step
  | rearrange resolving works leaves hushed rearranges =>
    rw [resolving]
    exact .quiet (hb.rearrange hstacks works leaves hushed rearranges).2 hushed

end Gated

end Balancer

namespace Run

/-- Whether a run is one of a resolver that polls a source, is new at first and then driven by starts, stops and resolutions only,
none of which is given up half way. -/
structure Polls (r : Run α) : Prop where
  polling : ∃ source interval timeout, r.resolver = .polling source interval timeout
  admits : ∀ n, (r.state n).Admits (r.action n)

/-- In every state of such a run, the resolutions follow each other through the gate. -/
theorem gated (r : Run α) (hr : r.Polls) : ∀ n, (r.state n).Gated
  | 0 => by
    obtain ⟨source, interval, timeout, heq⟩ := hr.polling
    rw [state, heq]
    exact Balancer.gated_new _ _ _ _ _ _
  | n + 1 =>
    have hb := r.gated hr n
    hb.stir ((r.turn n).stir hb.polling hb.stacked (hr.admits n))

theorem stir (r : Run α) (hr : r.Polls) (n : Nat) : Balancer.Stir (r.state n) (r.action n) (r.state (n + 1)) :=
  (r.turn n).stir (r.gated hr n).polling (r.gated hr n).stacked (hr.admits n)

theorem shift (r : Run α) (hr : r.Polls) (n : Nat) :
    Balancer.Shift (r.state n) (r.state (n + 1)) ((r.state n).resolving? (r.action n)) :=
  (r.gated hr n).shift (r.stir hr n)

end Run

end TelemetryRouter
