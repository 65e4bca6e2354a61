import TelemetryRouter.Proofs.Orderly

/-!
# Stages of an exporter's life

Whatever a change does, each exporter for itself is made, goes on to the next stage of its life, or rests in the stage that it is in,
and its history tells which. So the history of an exporter and its entry agree: it was started once, it has started if it was ever
running, and it was shut down if it is closed.
-/

namespace TelemetryRouter

variable {α : Type}

/-- Whether an occurrence is the call of an export, whether or not the exporter takes it. -/
def Occurrence.isExportCall : Occurrence → Bool
  | .exporting _ => true
  | .exportRefused => true
  | _ => false

/-- Whether an occurrence is the call of a shutdown. -/
def Occurrence.isStopCall : Occurrence → Bool
  | .stopping _ => true
  | _ => false

theorem Occurrence.isStopCall_of_isExport {what : Occurrence} (h : what.isExport = true) : what.isStopCall = false := by
  cases what with
  | stopping n => cases h
  | _ => rfl

/-- Whether a stage of an exporter's life may follow another. -/
inductive ExporterState.Precedes : ExporterState → ExporterState → Prop
  | run : Precedes .starting .running
  | stumble : Precedes .starting .stopped
  | mark : Precedes .running .stopping
  | leave : Precedes .stopping .stopped

/-- After an exporter is to be stopped there is only the end. -/
theorem ExporterState.Precedes.eq_stopped {state state' : ExporterState} (h : state.Precedes state')
    (hstate : state = .stopping ∨ state = .stopped) : state' = .stopped := by
  cases h with
  | leave => rfl
  | stumble => rfl
  | run => rcases hstate with hstate | hstate <;> cases hstate
  | mark => rcases hstate with hstate | hstate <;> cases hstate

/-- What happens to one exporter in one change: its entry before, what its history gets, and its entry after. -/
inductive Ages : Option Entry → List Occurrence → Option Entry → Prop
  | absent : Ages none [] none
  | make {entry : Entry} (state : entry.state = .starting) (closed : entry.closed = false) :
    Ages none [.created, .starting] (some entry)
  | rest {entry entry' : Entry} {said : List Occurrence} (life : entry'.SameLife entry)
    (exports : ∀ what ∈ said, what.isExport = true) : Ages (some entry) said (some entry')
  | run {entry : Entry} (state : entry.state = .starting) (closed : entry.closed = false) :
    Ages (some entry) [.started] (some { entry with state := .running })
  | stumble {entry : Entry} (state : entry.state = .starting) (closed : entry.closed = false) :
    Ages (some entry) [.startFailed] (some { entry with state := .stopped })
  | mark {entry : Entry} (state : entry.state = .running) (closed : entry.closed = false) :
    Ages (some entry) [] (some { entry with state := .stopping })
  | close {entry : Entry} {inProgress : Nat} (state : entry.state = .stopping) (closed : entry.closed = false) :
    Ages (some entry) [.stopping inProgress] (some { entry with closed := true })
  | leave {entry : Entry} {what : Occurrence} (state : entry.state = .stopping) (closed : entry.closed = true)
    (what_eq : what = .stopped ∨ what = .stopFailed) : Ages (some entry) [what] (some { entry with state := .stopped })

namespace Ages

/-- An exporter stays in its stage or goes on to one that may follow. -/
theorem precedes {entry : Entry} {said : List Occurrence} {after : Option Entry} (h : Ages (some entry) said after) :
    ∃ entry', after = some entry' ∧ (entry'.state = entry.state ∨ entry.state.Precedes entry'.state) := by
  cases h with
  | rest life _ => exact ⟨_, rfl, .inl life.state⟩
  | run state _ => exact ⟨_, rfl, .inr (state ▸ .run)⟩
  | stumble state _ => exact ⟨_, rfl, .inr (state ▸ .stumble)⟩
  | mark state _ => exact ⟨_, rfl, .inr (state ▸ .mark)⟩
  | close _ _ => exact ⟨_, rfl, .inl rfl⟩
  | leave state _ _ => exact ⟨_, rfl, .inr (state ▸ .leave)⟩

theorem starting {said : List Occurrence} {entry : Entry} (h : Ages none said (some entry)) : entry.state = .starting := by
  cases h with
  | make state _ => exact state

/-- A shutdown is called for an exporter that is being stopped and was not shut down, and closes it. -/
theorem of_stopCall {before after : Option Entry} {said : List Occurrence} (h : Ages before said after)
    (hcall : ∃ what ∈ said, what.isStopCall = true) : ∃ entry, before = some entry ∧ entry.state = .stopping ∧
      entry.closed = false ∧ after = some { entry with closed := true } := by
  obtain ⟨what, hwhat, hcall⟩ := hcall
  cases h with
  | close state closed => exact ⟨_, rfl, state, closed, rfl⟩
  | absent => cases hwhat
  | mark _ _ => cases hwhat
  | rest _ exports =>
    rw [Occurrence.isStopCall_of_isExport (exports what hwhat)] at hcall
    cases hcall
  | make _ _ =>
    simp only [List.mem_cons, List.not_mem_nil, or_false] at hwhat
    rcases hwhat with rfl | rfl <;> cases hcall
  | run _ _ =>
    rw [List.mem_singleton.1 hwhat] at hcall
    cases hcall
  | stumble _ _ =>
    rw [List.mem_singleton.1 hwhat] at hcall
    cases hcall
  | leave _ _ what_eq =>
    rw [List.mem_singleton.1 hwhat] at hcall
    rcases what_eq with rfl | rfl <;> cases hcall

end Ages

/-! ## Histories -/

/-- Whether a history and an entry are of one exporter: it was started once; it has started if it runs or has run; and it was shut
down if it is closed, and then once. -/
structure Entry.Recalls (entry : Entry) (history : List Occurrence) : Prop where
  starts : history.count .starting = 1
  started : .started ∈ history ↔ entry.state = .running ∨ entry.state = .stopping ∨ entry.closed = true
  stops : history.countP Occurrence.isStopCall = if entry.closed then 1 else 0

/-- Exports make no difference to what an entry recalls besides them. -/
theorem Entry.Recalls.of_exports {entry entry' : Entry} {history said : List Occurrence} (h : entry.Recalls history)
    (hlife : entry'.SameLife entry) (hsaid : ∀ what ∈ said, what.isExport = true) : entry'.Recalls (history ++ said) where
  starts := by
    have hzero : said.count .starting = 0 := List.count_eq_zero.2 (fun hmem => nomatch hsaid _ hmem)
    rw [List.count_append, h.starts, hzero]
  started := by
    have hnot : .started ∉ said := fun hmem => nomatch hsaid _ hmem
    rw [List.mem_append, or_iff_left hnot, h.started, hlife.state, hlife.closed]
  stops := by
    have hzero : said.countP Occurrence.isStopCall = 0 := List.countP_eq_zero.2 (fun what hwhat hcall => by
      rw [Occurrence.isStopCall_of_isExport (hsaid what hwhat)] at hcall
      cases hcall)
    rw [List.countP_append, h.stops, hzero, hlife.closed, Nat.add_zero]

/-- Whether what there is to know of an exporter is recalled by its entry: there is no history without one. -/
def Recalls (entry : Option Entry) (history : List Occurrence) : Prop :=
  match entry with
  | none => history = []
  | some entry => entry.Recalls history

/-- The entry of an exporter recalls its history, whatever happens to it. -/
theorem Ages.recalls {before after : Option Entry} {said history : List Occurrence} (h : Ages before said after)
    (hbefore : Recalls before history) : Recalls after (history ++ said) := by
  cases h with
  | absent =>
    rw [List.append_nil]
    exact hbefore
  | make state closed =>
    have hnil : history = [] := hbefore
    subst hnil
    exact ⟨rfl, by simp [state, closed], by rw [closed]; rfl⟩
  | rest life exports => exact Entry.Recalls.of_exports hbefore life exports
  | run state closed =>
    obtain ⟨hstarts, _, hstops⟩ := hbefore
    refine ⟨?_, by simp, ?_⟩
    · rw [List.count_append, hstarts]
      rfl
    · rw [List.countP_append, hstops]
      rfl
  | stumble state closed =>
    obtain ⟨hstarts, hstarted, hstops⟩ := hbefore
    refine ⟨?_, ?_, ?_⟩
    · rw [List.count_append, hstarts]
      rfl
    · simp [hstarted, state, closed]
    · rw [List.countP_append, hstops]
      rfl
  | mark state closed =>
    obtain ⟨hstarts, hstarted, hstops⟩ := hbefore
    rw [List.append_nil]
    exact ⟨hstarts, by simp [hstarted, state], hstops⟩
  | close state closed =>
    obtain ⟨hstarts, hstarted, hstops⟩ := hbefore
    refine ⟨?_, by simp [hstarted, state], ?_⟩
    · rw [List.count_append, hstarts]
      rfl
    · rw [List.countP_append, hstops, closed]
      rfl
  | leave state closed what_eq =>
    obtain ⟨hstarts, hstarted, hstops⟩ := hbefore
    refine ⟨?_, ?_, ?_⟩
    · rw [List.count_append, hstarts]
      rcases what_eq with rfl | rfl <;> rfl
    · simp [hstarted, state, closed]
    · rw [List.countP_append, hstops]
      rcases what_eq with rfl | rfl <;> rfl

/-! ## What changes do to each exporter -/

namespace Balancer

variable {b c : Balancer α}

/-- Nothing happens to an exporter with the entry and the history that it had. -/
theorem ages_of_eq {id : ExporterId} (hentry : c.pool.entry? id = b.pool.entry? id) (hhistory : c.history id = b.history id) :
    ∃ said, c.history id = b.history id ++ said ∧ Ages (b.pool.entry? id) said (c.pool.entry? id) := by
  refine ⟨[], by rw [hhistory, List.append_nil], ?_⟩
  rw [hentry]
  rcases b.pool.entry? id with _ | entry
  · exact .absent
  · exact .rest (.refl entry) (fun _ h => nomatch h)

theorem Ageless.ages (h : Ageless b c) (id : ExporterId) :
    ∃ said, c.history id = b.history id ++ said ∧ Ages (b.pool.entry? id) said (c.pool.entry? id) := by
  rcases he : b.pool.entry? id with _ | entry
  · have hnone : c.pool.entry? id = none := List.getElem?_eq_none (h.length ▸ List.getElem?_eq_none_iff.1 he)
    rw [hnone]
    exact ⟨[], by rw [h.silent id he, List.append_nil], .absent⟩
  · obtain ⟨entry', he', hlife⟩ := h.entries id entry he
    obtain ⟨said, hsaid, hall⟩ := h.history id
    rw [he']
    exact ⟨said, hsaid, .rest hlife hall⟩

theorem Touches.ages {x : ExporterId} {old new : Entry} {said : List Occurrence} (h : Touches b c x old new said)
    (hages : Ages (some old) said (some new)) (id : ExporterId) :
    ∃ said, c.history id = b.history id ++ said ∧ Ages (b.pool.entry? id) said (c.pool.entry? id) := by
  by_cases hid : id = x
  · subst hid
    rw [h.before, h.after]
    exact ⟨said, h.history, hages⟩
  · exact ages_of_eq (h.entries id hid) (h.histories id hid)

/-- A step of a start makes an exporter, or brings the one it has made to the next stage. -/
theorem AttemptStep.ages {e : Endpoint} {phase phase' : AttemptPhase} (h : AttemptStep b e phase c phase')
    (hstarting : ∀ id ∈ phase.exporter?, ∀ entry, b.pool.entry? id = some entry →
      entry.state = .starting ∧ entry.closed = false) (id : ExporterId) :
    ∃ said, c.history id = b.history id ++ said ∧ Ages (b.pool.entry? id) said (c.pool.entry? id) := by
  cases h with
  | call same => exact ages_of_eq (by rw [Pool.entry?, same.made]; rfl) (same.history id)
  | refuse same => exact ages_of_eq (by rw [Pool.entry?, same.made]; rfl) (same.history id)
  | @make _ address plain _ _ made _ history histories =>
    by_cases hid : id = b.pool.nextId
    · subst hid
      have hnone : b.pool.entry? b.pool.nextId = none := List.getElem?_eq_none (Nat.le_refl _)
      have hsome : c.pool.entry? b.pool.nextId = some (Entry.make e address plain) := by
        rw [Pool.entry?, made, Pool.nextId, List.getElem?_append_right (Nat.le_refl _), Nat.sub_self]
        rfl
      rw [hnone, hsome]
      exact ⟨_, history, .make rfl rfl⟩
    · refine ages_of_eq ?_ (histories id hid)
      rw [Pool.entry?, made]
      by_cases hlt : id < b.pool.made.length
      · rw [List.getElem?_append_left hlt]
        rfl
      · have hgt : b.pool.made.length < id := Nat.lt_of_le_of_ne (Nat.le_of_not_lt hlt) (Ne.symm hid)
        have hnone : b.pool.entry? id = none := List.getElem?_eq_none (Nat.le_of_not_lt hlt)
        rw [hnone]
        exact List.getElem?_eq_none (by rw [List.length_append]; exact hgt)
  | run touches _ =>
    obtain ⟨hstate, hclosed⟩ := hstarting _ rfl _ touches.before
    exact touches.ages (.run hstate hclosed) id
  | stumble touches _ =>
    obtain ⟨hstate, hclosed⟩ := hstarting _ rfl _ touches.before
    exact touches.ages (.stumble hstate hclosed) id

/-- A step of a retirement brings its exporter to the next stage, or goes on with its drain. -/
theorem RetirementStep.ages {x : ExporterId} {entry : Entry} {phase phase' : RetirementPhase} (hfits : phase.Fits entry)
    (hclosed : entry.state = .running → entry.closed = false) (h : RetirementStep b x entry phase c phase') (id : ExporterId) :
    ∃ said, c.history id = b.history id ++ said ∧ Ages (b.pool.entry? id) said (c.pool.entry? id) := by
  cases h with
  | mark touches _ => exact touches.ages (.mark hfits (hclosed hfits)) id
  | drain _ _ touches _ => exact touches.ages (.rest ⟨rfl, rfl, rfl⟩ (fun _ h => nomatch h)) id
  | close _ touches _ => exact touches.ages (.close hfits.1 hfits.2) id
  | giveUp _ _ touches _ => exact touches.ages (.close hfits.1 hfits.2) id
  | leave what_eq touches _ => exact touches.ages (.leave hfits.1 hfits.2 what_eq) id

/-- A step of a pass makes an exporter, or brings one to the next stage, or leaves them all where they are. -/
theorem PassStep.ages (hb : b.Orderly) {t : TaskId} {rest : List (Work α)} {p : Pass} (hw : b.works t = .pass p :: rest)
    (h : PassStep b t rest p c) (id : ExporterId) :
    ∃ said, c.history id = b.history id ++ said ∧ Ages (b.pool.entry? id) said (c.pool.entry? id) := by
  have hd := duty?_of_works hw rfl
  cases h with
  | enter _ _ _ _ => exact ages_of_eq rfl rfl
  | @attempt wanted attempts way a a' c phase_eq at_way _ _ step =>
    have hs := hb.starts_of_adding hd phase_eq
    refine step.ages (fun x hx entry he => ?_) id
    have hstate := (hs.starting x entry he).2 ⟨a, List.mem_of_getElem? at_way, hx⟩
    exact ⟨hstate, hb.kept.unclosed x entry he (.inl hstate)⟩
  | publish _ _ => exact ages_of_eq rfl rfl
  | @retire added failed retirements way r r' entry c phase_eq at_way _ _ made step =>
    obtain ⟨entry₀, he₀, hfits⟩ := (hb.retires_of_retiring hd phase_eq).fits r (List.mem_of_getElem? at_way)
    rw [made] at he₀
    injection he₀ with he₀
    subst he₀
    exact step.ages hfits (fun hstate => hb.kept.unclosed r.id entry made (.inr hstate)) id
  | @conclude added failed retirements _ _ =>
    obtain ⟨metrics, heq⟩ := concludePass_eq b t rest (b.passOutcome added failed retirements)
    rw [heq]
    exact ages_of_eq rfl rfl

/-- Every change makes each exporter, brings it to the next stage of its life, or lets it rest. -/
theorem Change.ages (hb : b.Orderly) (hg : b.Grounded) {a : Action α}
    (ha : ∀ t p, a = .abandon t → b.duty? t = some (.pass p) → p.phase = .queued) (h : Change b a c) (id : ExporterId) :
    ∃ said, c.history id = b.history id ++ said ∧ Ages (b.pool.entry? id) said (c.pool.entry? id) := by
  rcases h.aside_or_pass hg hb.inside ha with haside | ⟨_, _, p, rest, _, hw, _, hstep⟩
  · exact haside.ageless.ages id
  · exact hstep.ages hb hw id

end Balancer

namespace Run

/-- In every step of a run, each exporter is made, goes on to the next stage of its life, or rests. -/
theorem ages (r : Run α) (hr : r.FinishesPasses) (n : Nat) (id : ExporterId) :
    ∃ said, (r.state (n + 1)).history id = (r.state n).history id ++ said ∧
      Ages ((r.state n).pool.entry? id) said ((r.state (n + 1)).pool.entry? id) :=
  (r.change n).ages (r.orderly hr n) (r.grounded n) (hr n) id

/-- In every state of a run, the entry of each exporter recalls its history. -/
theorem recalls (r : Run α) (hr : r.FinishesPasses) (id : ExporterId) :
    ∀ n, Recalls ((r.state n).pool.entry? id) ((r.state n).history id)
  | 0 => rfl
  | n + 1 => by
    obtain ⟨said, hsaid, hages⟩ := r.ages hr n id
    rw [hsaid]
    exact hages.recalls (r.recalls hr id n)

end Run

end TelemetryRouter
