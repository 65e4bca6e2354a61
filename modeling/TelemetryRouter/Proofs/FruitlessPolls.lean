import TelemetryRouter.Proofs.Gatekeeping

/-!
# Polls that come to nothing

A source may have no list to give: it fails, or what it lists has no member. A resolver that polls such a source knows of no endpoint and
counts no success (`Run.GivesNoList.fruitless`), whatever else happens to the balancer and whatever is given up half way, as long as no
list is set from outside.
-/

namespace TelemetryRouter

variable {α : Type}

/-! ## Sources without a list -/

/-- The answers that the source of a resolver may give, if there is one. -/
def ResolverKind.answers : ResolverKind → List SourceAnswer
  | .polling source _ _ => source.script.queue ++ source.script.last.toList
  | _ => []

/-- What a source answers is one of its answers, or that there is no endpoint. -/
theorem Resolver.answer_ask (r : Resolver) : r.ask.1 ∈ r.kind.answers ∨ r.ask.1 = .nothing := by
  unfold ask
  split
  · rename_i source interval timeout hkind
    rw [hkind]
    dsimp only [SourceScript.next, ResolverKind.answers]
    cases source.script.queue with
    | cons a rest => exact .inl (List.mem_append_left _ List.mem_cons_self)
    | nil => cases source.script.last <;> simp
  · exact .inr rfl

theorem Resolver.answers_ask (r : Resolver) : r.ask.2.kind.answers ⊆ r.kind.answers := by
  unfold ask
  split
  · rename_i source interval timeout hkind
    rw [hkind]
    dsimp only [SourceScript.next, ResolverKind.answers]
    intro a ha
    cases hqueue : source.script.queue with
    | cons first rest =>
      simp only [hqueue, List.mem_append, List.mem_cons, Option.mem_toList, Option.some.injEq] at ha ⊢
      rcases ha with hrest | rfl
      · exact .inl (.inr hrest)
      · exact .inl (.inl rfl)
    | nil => simpa [hqueue] using ha
  · exact List.Subset.refl _

/-- More answers for later are the answers there were, and these. -/
theorem Resolver.answers_extendScript {r : Resolver} {answers : List SourceAnswer} {a : SourceAnswer}
    (h : a ∈ (r.extendScript answers).kind.answers) : a ∈ r.kind.answers ∨ a ∈ answers := by
  unfold extendScript at h
  split at h
  · rename_i source interval timeout hkind
    rw [hkind]
    simp only [ResolverKind.answers, SourceScript.append, List.mem_append] at h ⊢
    rcases h with (hqueue | hmore) | hlast
    · exact .inl (.inl hqueue)
    · exact .inr hmore
    · exact .inl (.inr hlast)
  · exact .inl h

theorem change?_of_not_succeeds {answer : Except RouterError (List Endpoint)} (h : succeeds answer = false)
    (known : List Endpoint) : change? known answer = none := by
  unfold succeeds at h
  split at h
  · cases h
  · rename_i hne
    unfold change? listOf?
    split
    · exact absurd rfl (hne _ _)
    · rfl

/-- Whether a work brings the resolver no list: none is set, and the answer that a resolution waits for is no success. -/
def Work.IsFruitless : Work α → Prop
  | .resolution (.listing _ result _) => succeeds result = false
  | .push _ => False
  | _ => True

/-- Whether an action gives the resolver no list: none is set, and no success is among new answers of the source. -/
def Action.GivesNoList : Action α → Prop
  | .request (.push _) => False
  | .answer answers => ∀ a ∈ answers, succeeds a.result = false
  | _ => True

namespace Balancer

/-- Whether the resolver polls a source that has no list to give and gave none before. -/
structure Unlisted (b : Balancer α) : Prop where
  polling : b.resolver.kind.isPolling = true
  answers : ∀ a ∈ b.resolver.kind.answers, succeeds a.result = false
  known : b.resolver.known = []
  uncounted : b.metrics.resolutions b.resolver.name true = 0

/-- Whether the same holds and nothing under way will change it. -/
structure Fruitless (b : Balancer α) : Prop extends b.Unlisted where
  works : ∀ t, ∀ w ∈ b.works t, w.IsFruitless

/-! ## Steps -/

section Steps

variable {b b' : Balancer α} {t : TaskId} {rest ws started : List (Work α)} {way : Nat} {w : Work α} {a : Action α}

/-- A resolver with the same source and list, and as many successes, is no different. -/
theorem Unlisted.of_eq (hb : b.Unlisted) (hkind : b'.resolver.kind = b.resolver.kind) (hknown : b'.resolver.known = b.resolver.known)
    (hmetrics : b'.metrics.resolutions = b.metrics.resolutions) : b'.Unlisted where
  polling := hkind ▸ hb.polling
  answers := hkind ▸ hb.answers
  known := hknown.trans hb.known
  uncounted := by
    have hname : b'.resolver.name = b.resolver.name := by rw [Resolver.name, Resolver.name, hkind]
    rw [hmetrics, hname]
    exact hb.uncounted

theorem Unlisted.of_feed (hb : b.Unlisted) (h : b'.feed = b.feed) : b'.Unlisted :=
  hb.of_eq (congrArg (fun f : Feed => f.resolver.kind) h) (congrArg (fun f : Feed => f.resolver.known) h) (congrArg Feed.resolutions h)

/-- What a resolution hears is no success if what it waits for is none. -/
theorem not_succeeds_of_heard {arrival : Option Nat} {result answer : Except RouterError (List Endpoint)} {deadline : Instant}
    (h : b.heard? arrival result deadline = some answer) (hresult : succeeds result = false) : succeeds answer = false := by
  unfold heard? at h
  split at h
  · exact Option.some.inj h ▸ hresult
  · split at h
    · exact Option.some.inj h ▸ rfl
    · cases h

theorem ResolutionStep.fruitless (hb : b.Unlisted) {phase : ResolutionPhase} (hw : (Work.resolution phase : Work α).IsFruitless)
    (h : ResolutionStep b t rest phase ws b') : b'.Unlisted ∧ ∀ y ∈ ws, y ∈ rest ∨ y.IsFruitless := by
  have hcons : ∀ {phase' : ResolutionPhase}, (Work.resolution phase' : Work α).IsFruitless →
      ∀ y ∈ Work.resolution phase' :: rest, y ∈ rest ∨ y.IsFruitless := fun hphase =>
    List.forall_mem_cons.2 ⟨.inr hphase, fun _ hy => .inl hy⟩
  cases h with
  | @ask gate asked source interval timeout answer _ _ kind asked_eq works_eq =>
    have hasked := ask_frame { b.resolver with gate := gate }
    have hanswers := Resolver.answers_ask { b.resolver with gate := gate }
    have hanswer := Resolver.answer_ask { b.resolver with gate := gate }
    rw [asked_eq] at hasked hanswers hanswer
    obtain ⟨-, hknown, hname, hpolling, -, -⟩ := hasked
    refine ⟨⟨hpolling.trans hb.polling, fun a ha => hb.answers a (hanswers ha), hknown.trans hb.known, ?_⟩, works_eq ▸ hcons ?_⟩
    · show b.metrics.resolutions asked.name true = 0
      rw [hname]
      exact hb.uncounted
    · rcases hanswer with hmem | heq
      · exact hb.answers answer hmem
      · have hnothing : answer = .nothing := heq
        rw [hnothing]
        rfl
  | skip _ kind => exact absurd (hb.polling.symm.trans kind) (by decide)
  | @hear arrival result answer deadline heard =>
    have hanswer := not_succeeds_of_heard heard hw
    have hchange := change?_of_not_succeeds hanswer b.resolver.known
    refine ⟨⟨hb.polling, hb.answers, ?_, ?_⟩, hcons ?_⟩
    · show (change? b.resolver.known answer).getD b.resolver.known = []
      rw [hchange]
      exact hb.known
    · have hcount := (b.hear_frame answer).2 true
      rw [hanswer, hb.uncounted] at hcount
      exact hcount
    · rw [hchange]
      trivial
  | conclude => exact ⟨hb.of_eq rfl rfl rfl, fun _ hy => .inl hy⟩
  | _ => exact ⟨hb.of_eq rfl rfl rfl, hcons trivial⟩

/-- A step of an inert work tells the resolver nothing, or an answer that is no success. -/
theorem InertStep.unlisted (hb : b.Unlisted) (hw : w.IsFruitless) (h : InertStep b t rest way w ws started b') : b'.Unlisted := by
  have hpolling : ¬b.resolver.kind.isPolling = false := by
    rw [hb.polling]
    decide
  cases h with
  | resolution step => exact (step.fruitless hb hw).1
  | startFixed kind => exact absurd kind hpolling
  | push _ => exact hw.elim
  | pushTo _ => exact hw.elim
  | poll step =>
    cases step with
    | pollOther kind => exact absurd kind hpolling
    | _ => exact hb.of_eq rfl rfl rfl
  | consume step => cases step <;> exact hb.of_eq rfl rfl rfl
  | _ => exact hb.of_eq rfl rfl rfl

/-- The works of a task after a step of an inert work were under it, or bring no list. -/
theorem InertStep.isFruitless (hb : b.Unlisted) (hw : w.IsFruitless) (h : InertStep b t rest way w ws started b') :
    ∀ y ∈ ws, y ∈ rest ∨ y.IsFruitless := by
  have hrest : ∀ y ∈ rest, y ∈ rest ∨ y.IsFruitless := fun _ hy => .inl hy
  have hcons : ∀ {x : Work α} {xs : List (Work α)}, x.IsFruitless → (∀ y ∈ xs, y ∈ rest ∨ y.IsFruitless) →
      ∀ y ∈ x :: xs, y ∈ rest ∨ y.IsFruitless := fun hx hxs => List.forall_mem_cons.2 ⟨.inr hx, hxs⟩
  cases h with
  | resolution step => exact (step.fruitless hb hw).2
  | refuseResolver _ => exact fun _ hy => nomatch hy
  | startResolver _ _ => exact hcons trivial (hcons trivial hrest)
  | stopPolls _ _ => exact hcons trivial (hcons trivial hrest)
  | stopUnpolled _ _ => exact hcons trivial hrest
  | refuseBalancer _ => exact fun _ hy => nomatch hy
  | startBalancer _ => exact hcons trivial (hcons trivial (hcons trivial hrest))
  | applyBaseline => exact hcons trivial hrest
  | stopConsumer _ => exact hcons trivial hrest
  | clear => exact hcons trivial hrest
  | dispatch => exact hcons trivial hrest
  | pushTo _ => exact hw.elim
  | poll step =>
    cases step with
    | stop _ => exact hrest
    | poll _ _ works_eq => exact works_eq ▸ hcons trivial (hcons trivial hrest)
    | _ => exact hcons trivial hrest
  | consume step =>
    cases step with
    | stop _ => exact hrest
    | take _ => exact hcons trivial (hcons trivial hrest)
    | refresh _ => exact hcons trivial (hcons trivial hrest)
    | _ => exact hcons trivial hrest
  | _ => exact hrest

/-- A task that a step of an inert work starts has no list to bring. -/
theorem InertStep.isFruitless_started (h : InertStep b t rest way w ws started b') : ∀ y ∈ started, y.IsFruitless := by
  intro y hy
  cases h with
  | registerPoller => exact List.mem_singleton.1 hy ▸ trivial
  | launchConsumer => exact List.mem_singleton.1 hy ▸ trivial
  | _ => exact nomatch hy

theorem isFruitless_begun {r : Request α} (hr : ∀ endpoints, r ≠ .push endpoints) : ∀ y ∈ b.begun r, y.IsFruitless := by
  intro y hy
  cases r with
  | push endpoints => exact absurd rfl (hr endpoints)
  | shutdown =>
    simp only [begun, List.mem_cons, List.not_mem_nil, or_false] at hy
    rcases hy with rfl | rfl | rfl | rfl <;> trivial
  | resolve =>
    rw [begun] at hy
    split at hy
    · exact List.mem_singleton.1 hy ▸ trivial
    · cases hy
  | _ => exact List.mem_singleton.1 hy ▸ trivial

theorem Unlisted.abandon (hb : b.Unlisted) (t : TaskId) : (b.abandon t).Unlisted := by
  have hwork : ∀ (c : Balancer α) (w : Work α), c.Unlisted → (dropWork t c w).Unlisted := by
    intro c w hc
    by_cases hw : w.isAwaited = true
    · cases w with
      | resolution phase => cases phase <;> exact hc.of_eq rfl rfl rfl
      | send box endpoints => exact hc.of_eq rfl rfl rfl
      | _ => cases hw
    · exact hc.of_feed (feed_dropWork t c (Bool.eq_false_iff.2 hw))
  have hfold : ∀ (ws : List (Work α)) (c : Balancer α), c.Unlisted → (ws.foldl (dropWork t) c).Unlisted := by
    intro ws
    induction ws with
    | nil => exact fun _ hc => hc
    | cons w ws ih => exact fun c hc => ih _ (hwork c w hc)
  exact (hfold (b.works t) b hb).of_eq rfl rfl rfl

/-- More answers without a list leave the resolver without one. -/
theorem Unlisted.extendScript (hb : b.Unlisted) {answers : List SourceAnswer} (h : ∀ x ∈ answers, succeeds x.result = false) :
    (b.extendScript answers).Unlisted := by
  have hhushed := hushed_extendScript b answers
  refine ⟨hhushed.polling.trans hb.polling, fun x hx => ?_, hhushed.known.trans hb.known, ?_⟩
  · exact (Resolver.answers_extendScript hx).elim (hb.answers x) (h x)
  · rw [hhushed.resolutions, hhushed.name]
    exact hb.uncounted

/-- An action that gives no list leaves the resolver without one. -/
theorem Turn.unlisted (h : Turn b a b') (hb : b.Fruitless) (ha : a.GivesNoList) : b'.Unlisted := by
  cases h with
  | @inert t _ w _ _ _ _ works _ _ step _ => exact step.unlisted hb.toUnlisted (hb.works t w (works ▸ List.mem_cons_self))
  | pass _ _ step => exact hb.of_feed step.feed
  | exports _ _ _ _ exporting => exact hb.of_feed exporting.feed
  | @request r _ =>
    by_cases hr : r = .resolve
    · have hfeed := feed_request_resolve b hb.polling
      rw [hr]
      exact hb.of_eq (congrArg (fun f : Feed => f.resolver.kind) hfeed) (congrArg (fun f : Feed => f.resolver.known) hfeed)
        (congrArg Feed.resolutions hfeed)
    · exact hb.of_feed (feed_request b hr)
  | @abandon t => exact hb.toUnlisted.abandon t
  | answer => exact hb.toUnlisted.extendScript ha
  | @receive box => cases box <;> exact hb.of_eq rfl rfl rfl
  | still _ _ feed _ => exact hb.of_feed feed
  | _ => exact hb.of_eq rfl rfl rfl

/-- After an action that gives no list, none is under way. -/
theorem Turn.fruitless (h : Turn b a b') (hb : b.Fruitless) (ha : a.GivesNoList) : b'.Fruitless := by
  refine ⟨h.unlisted hb ha, fun x y hy => ?_⟩
  -- A work that is new comes from a step of an inert work, from a pass or an export that goes on, or from a request.
  cases h with
  | @inert t way w rest ws started _ works _ _ step _ =>
    have hw := hb.works t w (works ▸ List.mem_cons_self)
    rw [step.leaves (lt_of_works works) x] at hy
    split at hy
    · exact (step.isFruitless hb.toUnlisted hw y hy).elim (fun hmem => hb.works t y (works ▸ List.mem_cons_of_mem _ hmem)) id
    · split at hy
      · exact step.isFruitless_started y hy
      · exact hb.works x y hy
  | @pass t way p rest _ works _ step =>
    obtain ⟨ws, hleaves, hws⟩ := step.leaves works
    rw [hleaves x] at hy
    split at hy
    · rcases hws with rfl | ⟨p', rfl, _, _⟩
      · exact hb.works t y (works ▸ List.mem_cons_of_mem _ hy)
      · rcases List.mem_cons.1 hy with rfl | hy
        · trivial
        · exact hb.works t y (works ▸ List.mem_cons_of_mem _ hy)
    · split at hy
      · cases hy
      · exact hb.works x y hy
  | @exports t way w rest ws _ works _ _ _ exporting =>
    rw [exporting.leaves x] at hy
    split at hy
    · rcases exporting.goes with rfl | ⟨w', rfl, hduty, _⟩
      · exact hb.works t y (works ▸ List.mem_cons_of_mem _ hy)
      · rcases List.mem_cons.1 hy with rfl | hy
        · cases y with
          | resolution phase => cases hduty
          | push endpoints => cases hduty
          | _ => trivial
        · exact hb.works t y (works ▸ List.mem_cons_of_mem _ hy)
    · split at hy
      · cases hy
      · exact hb.works x y hy
  | @request r _ =>
    rw [works_request] at hy
    split at hy
    · exact isFruitless_begun (fun endpoints heq => by subst heq; exact ha) y hy
    · exact hb.works x y hy
  | @abandon t =>
    rw [works_abandon] at hy
    split at hy
    · cases hy
    · exact hb.works x y hy
  | @receive box => cases box <;> exact hb.works x y hy
  | still _ works _ _ => exact hb.works x y (works x ▸ hy)
  | _ => exact hb.works x y hy

end Steps

end Balancer

/-! ## Runs -/

namespace Run

/-- Whether nothing in a run gives the resolver a list: it polls a source without one at first, and no action brings one. -/
structure GivesNoList (r : Run α) : Prop where
  polling : ∃ source interval timeout, r.resolver = .polling source interval timeout
  answers : ∀ a ∈ r.resolver.kind.answers, succeeds a.result = false
  actions : ∀ n, (r.action n).GivesNoList

/-- In every state of such a run the resolver is without a list, and none is under way. -/
theorem GivesNoList.fruitless {r : Run α} (hr : r.GivesNoList) : ∀ n, (r.state n).Fruitless
  | 0 => by
    obtain ⟨source, interval, timeout, heq⟩ := hr.polling
    refine ⟨⟨?_, hr.answers, ?_, rfl⟩, fun t w hw => ?_⟩
    · rw [state, heq]
      rfl
    · rw [state, heq]
      rfl
    · cases hw
  | n + 1 => (r.turn n).fruitless (hr.fruitless n) (hr.actions n)

end Run

end TelemetryRouter
