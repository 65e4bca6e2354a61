import TelemetryRouter.Proofs.DutyMoves
import TelemetryRouter.Proofs.Feed

/-!
# What a step does to the exporters

A call of an exporter touches that exporter alone: its entry in the pool and the lines about it in the log. For each call of a
pass and of a delivery this module says which entry it leaves and what it adds to the log, and that it leaves the tasks, the
leases held from outside, the ring, the gate, the feed, the settings and the clock alone.
-/

namespace TelemetryRouter

variable {α : Type}

namespace Balancer

/-! ## Frames -/

/-- Everything but the exporters, the log, the backends, the batches that arrived and the metrics is as before. -/
structure Frame (b b' : Balancer α) : Prop where
  options : b'.options = b.options
  adapter : b'.adapter = b.adapter
  now : b'.now = b.now
  ring : b'.ring = b.ring
  gate : b'.pool.gate = b.pool.gate
  tasks : b'.tasks = b.tasks
  leases : b'.leases = b.leases
  feed : b'.feed = b.feed

namespace Frame

theorem refl (b : Balancer α) : Frame b b := ⟨rfl, rfl, rfl, rfl, rfl, rfl, rfl, rfl⟩

theorem trans {b b' b'' : Balancer α} (h : Frame b b') (h' : Frame b' b'') : Frame b b'' :=
  ⟨h'.options.trans h.options, h'.adapter.trans h.adapter, h'.now.trans h.now, h'.ring.trans h.ring, h'.gate.trans h.gate,
    h'.tasks.trans h.tasks, h'.leases.trans h.leases, h'.feed.trans h.feed⟩

theorem log {b c : Balancer α} {id : ExporterId} {what : Occurrence} (h : Frame b c) : Frame b (c.logEntry id what) := by
  unfold logEntry
  split
  · exact h.trans ⟨rfl, rfl, rfl, rfl, rfl, rfl, rfl, rfl⟩
  · exact h

theorem change {b c : Balancer α} {id : ExporterId} {f : Entry → Entry} (h : Frame b c) : Frame b (c.changeEntry id f) :=
  h.trans ⟨rfl, rfl, rfl, rfl, rfl, rfl, rfl, rfl⟩

theorem erase {b c : Balancer α} {e : Endpoint} (h : Frame b c) : Frame b { c with pool := c.pool.erase e } :=
  h.trans ⟨rfl, rfl, rfl, rfl, rfl, rfl, rfl, rfl⟩

end Frame

theorem pool_logEntry (b : Balancer α) (id : ExporterId) (what : Occurrence) : (b.logEntry id what).pool = b.pool := by
  unfold logEntry
  split <;> rfl

/-! ## The log of one exporter -/

/-- What the log says about an exporter, in order. -/
def history (b : Balancer α) (id : ExporterId) : List Occurrence :=
  (b.events.filter (fun e => e.exporter = some id)).map Event.what

theorem history_congr {b b' : Balancer α} (h : b'.events = b.events) (id : ExporterId) : b'.history id = b.history id := by
  rw [history, history, h]

/-- An event of no exporter is in no exporter's history. -/
theorem history_log_none (b : Balancer α) (address : String) (plain : Bool) (what : Occurrence) (id : ExporterId) :
    (b.log address none plain what).history id = b.history id := by
  unfold history log
  rw [List.filter_append, List.map_append]
  simp

/-- A line about an exporter comes to the end of its history. -/
theorem history_logEntry_self {b : Balancer α} {id : ExporterId} {entry : Entry} (h : b.pool.entry? id = some entry)
    (what : Occurrence) : (b.logEntry id what).history id = b.history id ++ [what] := by
  unfold logEntry history log
  rw [h]
  dsimp only
  rw [List.filter_append, List.map_append]
  simp

theorem history_logEntry_of_ne (b : Balancer α) {id id' : ExporterId} (hne : id' ≠ id) (what : Occurrence) :
    (b.logEntry id what).history id' = b.history id' := by
  unfold logEntry
  split
  · unfold history log
    rw [List.filter_append, List.map_append]
    simp [Ne.symm hne]
  · rfl

/-! ## Touching one exporter -/

/-- One exporter has another entry and some more history. The others have theirs. -/
structure Touches (b b' : Balancer α) (id : ExporterId) (old new : Entry) (said : List Occurrence) : Prop where
  before : b.pool.entry? id = some old
  after : b'.pool.entry? id = some new
  entries : ∀ id', id' ≠ id → b'.pool.entry? id' = b.pool.entry? id'
  length : b'.pool.made.length = b.pool.made.length
  history : b'.history id = b.history id ++ said
  histories : ∀ id', id' ≠ id → b'.history id' = b.history id'

namespace Touches

variable {b b' b'' : Balancer α} {id : ExporterId} {old mid new : Entry} {said more : List Occurrence}

theorem trans (h : Touches b b' id old mid said) (h' : Touches b' b'' id mid new more) :
    Touches b b'' id old new (said ++ more) where
  before := h.before
  after := h'.after
  entries := fun id' hne => (h'.entries id' hne).trans (h.entries id' hne)
  length := h'.length.trans h.length
  history := by rw [h'.history, h.history, List.append_assoc]
  histories := fun id' hne => (h'.histories id' hne).trans (h.histories id' hne)

/-- What a state says of its exporters depends on the exporters made and the log. -/
theorem congr (h : Touches b b' id old new said) (hm : b''.pool.made = b'.pool.made) (he : b''.events = b'.events) :
    Touches b b'' id old new said where
  before := h.before
  after := by rw [Pool.entry?, hm]; exact h.after
  entries := fun id' hne => by rw [Pool.entry?, hm]; exact h.entries id' hne
  length := by rw [hm]; exact h.length
  history := by rw [history_congr he]; exact h.history
  histories := fun id' hne => by rw [history_congr he]; exact h.histories id' hne

theorem rebase {c : Balancer α} (h : Touches c b' id old new said) (hm : c.pool.made = b.pool.made)
    (he : c.events = b.events) : Touches b b' id old new said where
  before := by rw [Pool.entry?, ← hm]; exact h.before
  after := h.after
  entries := fun id' hne => by rw [h.entries id' hne, Pool.entry?, Pool.entry?, hm]
  length := by rw [h.length, hm]
  history := by rw [h.history, history_congr he]
  histories := fun id' hne => by rw [h.histories id' hne, history_congr he]

theorem silent (h : Touches b b' id old new said) (x : ExporterId) (hnone : b.pool.entry? x = none) : b'.history x = b.history x :=
  h.histories x (fun heq => by
    rw [heq, h.before] at hnone
    cases hnone)

end Touches

/-- Whatever is new in the history of an exporter is of one kind. -/
def SaysOnly (b b' : Balancer α) (id : ExporterId) (kind : Occurrence → Prop) : Prop :=
  ∃ said, b'.history id = b.history id ++ said ∧ ∀ what ∈ said, kind what

namespace SaysOnly

variable {b b' b'' : Balancer α} {id : ExporterId} {kind kind' : Occurrence → Prop}

theorem of_eq (h : b'.history id = b.history id) : SaysOnly b b' id kind :=
  ⟨[], by rw [h, List.append_nil], fun _ h => nomatch h⟩

theorem trans (h : SaysOnly b b' id kind) (h' : SaysOnly b' b'' id kind) : SaysOnly b b'' id kind := by
  obtain ⟨said, hsaid, hall⟩ := h
  obtain ⟨said', hsaid', hall'⟩ := h'
  refine ⟨said ++ said', by rw [hsaid', hsaid, List.append_assoc], fun what hwhat => ?_⟩
  rcases List.mem_append.1 hwhat with hwhat | hwhat
  · exact hall what hwhat
  · exact hall' what hwhat

theorem mono (h : SaysOnly b b' id kind) (hkind : ∀ what, kind what → kind' what) : SaysOnly b b' id kind' := by
  obtain ⟨said, hsaid, hall⟩ := h
  exact ⟨said, hsaid, fun what hwhat => hkind what (hall what hwhat)⟩

/-- Touching one exporter says of all of them what it says of that one, or nothing. -/
theorem of_touches {x : ExporterId} {old new : Entry} {said : List Occurrence} (h : Touches b b' x old new said)
    (hsaid : ∀ what ∈ said, kind what) : SaysOnly b b' id kind := by
  by_cases hid : id = x
  · subst hid
    exact ⟨said, h.history, hsaid⟩
  · exact of_eq (h.histories id hid)

end SaysOnly

/-- Nothing has changed, so an exporter has the same entry and no more history. -/
theorem touches_refl {b : Balancer α} {id : ExporterId} {entry : Entry} (h : b.pool.entry? id = some entry) :
    Touches b b id entry entry [] :=
  ⟨h, h, fun _ _ => rfl, rfl, (List.append_nil _).symm, fun _ _ => rfl⟩

theorem touches_changeEntry {b : Balancer α} {id : ExporterId} {entry : Entry} (h : b.pool.entry? id = some entry)
    (f : Entry → Entry) : Touches b (b.changeEntry id f) id entry (f entry) [] where
  before := h
  after := by
    rw [Pool.entry?] at h
    rw [changeEntry, Pool.entry?, Pool.change, List.getElem?_modify_eq, h]
    rfl
  entries := fun id' hne => by rw [changeEntry, Pool.entry?, Pool.change, List.getElem?_modify_ne _ _ (Ne.symm hne)]; rfl
  length := List.length_modify _ _ _
  history := (List.append_nil _).symm
  histories := fun _ _ => rfl

theorem touches_logEntry {b : Balancer α} {id : ExporterId} {entry : Entry} (h : b.pool.entry? id = some entry)
    (what : Occurrence) : Touches b (b.logEntry id what) id entry entry [what] where
  before := h
  after := by rw [pool_logEntry]; exact h
  entries := fun id' _ => by rw [pool_logEntry]
  length := by rw [pool_logEntry]
  history := history_logEntry_self h what
  histories := fun _ hne => history_logEntry_of_ne b hne what

theorem touches_changeEntry_logEntry {b : Balancer α} {id : ExporterId} {entry : Entry} (h : b.pool.entry? id = some entry)
    (f : Entry → Entry) (what : Occurrence) :
    Touches b ((b.changeEntry id f).logEntry id what) id entry (f entry) [what] :=
  (touches_changeEntry h f).trans (touches_logEntry (touches_changeEntry h f).after what)

theorem touches_logEntry_changeEntry {b : Balancer α} {id : ExporterId} {entry : Entry} (h : b.pool.entry? id = some entry)
    (what : Occurrence) (f : Entry → Entry) :
    Touches b ((b.logEntry id what).changeEntry id f) id entry (f entry) [what] :=
  (touches_logEntry h what).trans (touches_changeEntry (touches_logEntry h what).after f)

theorem touches_logEntry_logEntry {b : Balancer α} {id : ExporterId} {entry : Entry} (h : b.pool.entry? id = some entry)
    (what more : Occurrence) : Touches b ((b.logEntry id what).logEntry id more) id entry entry [what, more] :=
  (touches_logEntry h what).trans (touches_logEntry (touches_logEntry h what).after more)

/-! ## Starts -/

theorem concludeCall_eq (b : Balancer α) (entry : Entry) (kind : CallKind) :
    ∃ result backends, b.concludeCall entry kind = (result, { b with backends := backends }) := by
  unfold concludeCall
  split
  · exact ⟨.ok (), b.backends, rfl⟩
  · exact ⟨_, _, rfl⟩

/-- Nothing is different about the exporters. -/
structure SameExporters (b b' : Balancer α) : Prop where
  made : b'.pool.made = b.pool.made
  current : b'.pool.current = b.pool.current
  history : ∀ id, b'.history id = b.history id

/-- What a step of the start of an exporter for an endpoint does. -/
inductive AttemptStep (b : Balancer α) (e : Endpoint) : AttemptPhase → Balancer α → AttemptPhase → Prop
  | call {b' : Balancer α} {address : String} {plain : Bool} {wake : Nat} (same : SameExporters b b') :
    AttemptStep b e .pending b' (.creating address plain wake)
  | refuse {b' : Balancer α} {address : String} {plain : Bool} {wake : Nat} (same : SameExporters b b') :
    AttemptStep b e (.creating address plain wake) b' .failed
  | make {b' : Balancer α} {address : String} {plain : Bool} {wake due : Nat}
    (made : b'.pool.made = b.pool.made ++ [Entry.make e address plain])
    (current : b'.pool.current = b.pool.current.filter (fun c => c.1 ≠ e) ++ [(e, b.pool.nextId)])
    (history : b'.history b.pool.nextId = b.history b.pool.nextId ++ [.created, .starting])
    (histories : ∀ id, id ≠ b.pool.nextId → b'.history id = b.history id) :
    AttemptStep b e (.creating address plain wake) b' (.starting b.pool.nextId due)
  | run {b' : Balancer α} {id : ExporterId} {wake : Nat} {entry : Entry}
    (touches : Touches b b' id entry { entry with state := .running } [.started]) (current : b'.pool.current = b.pool.current) :
    AttemptStep b e (.starting id wake) b' .started
  | stumble {b' : Balancer α} {id : ExporterId} {wake : Nat} {entry : Entry}
    (touches : Touches b b' id entry { entry with state := .stopped } [.startFailed])
    (current : b'.pool.current = b.pool.current.filter (fun c => c.1 ≠ e)) :
    AttemptStep b e (.starting id wake) b' .failed

theorem concludeCreate_spec (b : Balancer α) (e : Endpoint) (address : String) (plain : Bool) (wake : Nat) :
    Frame b (b.concludeCreate e address plain).1 ∧
      AttemptStep b e (.creating address plain wake) (b.concludeCreate e address plain).1
        (b.concludeCreate e address plain).2 := by
  unfold concludeCreate
  generalize b.backends.conclude address .create = result
  obtain ⟨_ | _, backends⟩ := result
  · exact ⟨⟨rfl, rfl, rfl, rfl, rfl, rfl, rfl, rfl⟩, .refuse ⟨rfl, rfl, history_log_none _ _ _ _⟩⟩
  · dsimp only
    have hnew : Pool.entry? (b.pool.insert (Entry.make e address plain)) b.pool.nextId = some (Entry.make e address plain) := by
      rw [Pool.entry?, Pool.insert, Pool.nextId, List.getElem?_append_right (Nat.le_refl _), Nat.sub_self]
      rfl
    have hlog := touches_logEntry_logEntry
      (b := { b with backends := backends, pool := b.pool.insert (Entry.make e address plain) }) hnew .created .starting
    refine ⟨.log (.log ⟨rfl, rfl, rfl, rfl, rfl, rfl, rfl, rfl⟩), .make ?_ ?_ hlog.history hlog.histories⟩
    · rw [pool_logEntry, pool_logEntry]
      rfl
    · rw [pool_logEntry, pool_logEntry]
      rfl

theorem concludeStart_spec {b : Balancer α} {id : ExporterId} {entry : Entry} (he : b.pool.entry? id = some entry)
    (e : Endpoint) (wake : Nat) :
    Frame b (b.concludeStart e id).1 ∧ AttemptStep b e (.starting id wake) (b.concludeStart e id).1 (b.concludeStart e id).2 := by
  unfold concludeStart
  obtain ⟨result, backends, hresult⟩ := concludeCall_eq b entry .start
  rw [he]
  dsimp only
  rw [hresult]
  rcases result with _ | _
  · have h := touches_changeEntry_logEntry (b := { b with backends := backends }) he
      (fun x => { x with state := .stopped }) .startFailed
    dsimp only
    refine ⟨?_, .stumble ((h.rebase ?_ ?_).congr ?_ ?_) ?_⟩
    · exact .erase (.log ⟨rfl, rfl, rfl, rfl, rfl, rfl, rfl, rfl⟩)
    · rfl
    · rfl
    · rfl
    · rfl
    · dsimp only [Pool.erase]
      rw [pool_logEntry]
      rfl
  · have h := touches_changeEntry_logEntry (b := { b with backends := backends }) he
      (fun x => { x with state := .running }) .started
    dsimp only
    refine ⟨.log ⟨rfl, rfl, rfl, rfl, rfl, rfl, rfl, rfl⟩, .run (h.rebase rfl rfl) ?_⟩
    rw [pool_logEntry]
    rfl

/-- A step of a start. Its exporter, if it has one yet, was made. -/
theorem stepAttempt_spec {b b' : Balancer α} {a a' : Attempt}
    (hmade : ∀ id wake, a.phase = .starting id wake → ∃ entry, b.pool.entry? id = some entry)
    (h : b.stepAttempt a = some (b', a')) :
    a'.endpoint = a.endpoint ∧ Frame b b' ∧ AttemptStep b a.endpoint a.phase b' a'.phase := by
  obtain ⟨hendpoint, hmove⟩ := AttemptMove.of_step h
  refine ⟨hendpoint, ?_⟩
  generalize hphase : a.phase = phase at hmove ⊢
  generalize a'.phase = phase' at hmove ⊢
  cases hmove with
  | call => exact ⟨⟨rfl, rfl, rfl, rfl, rfl, rfl, rfl, rfl⟩, .call ⟨rfl, rfl, history_log_none _ _ _ _⟩⟩
  | @made address plain wake _ => exact concludeCreate_spec b a.endpoint address plain wake
  | @started id wake _ =>
    obtain ⟨entry, he⟩ := hmade id wake hphase
    exact concludeStart_spec he a.endpoint wake

/-! ## Retirements -/

end Balancer

/-- The deadline of a drain that goes on. -/
def RetirementPhase.deadline? : RetirementPhase → Option Instant
  | .counting deadline => some deadline
  | .registering deadline => some deadline
  | .waiting deadline => some deadline
  | _ => none

namespace Balancer

/-- What a step of the retirement of an exporter does. -/
inductive RetirementStep (b : Balancer α) (id : ExporterId) (entry : Entry) :
    RetirementPhase → Balancer α → RetirementPhase → Prop
  | mark {b' : Balancer α} (touches : Touches b b' id entry { entry with state := .stopping } [])
    (current : b'.pool.current = b.pool.current) :
    RetirementStep b id entry .pending b' (.counting (Instant.after b.now b.options.settings.drainTimeout))
  | drain {b' : Balancer α} {phase phase' : RetirementPhase} {deadline : Instant} {notices : Nat} {awaited : Bool}
    (before : phase.deadline? = some deadline) (after : phase'.deadline? = some deadline)
    (touches : Touches b b' id entry { entry with notices := notices, awaited := awaited } []) (current : b'.pool.current = b.pool.current) :
    RetirementStep b id entry phase b' phase'
  | close {b' : Balancer α} {deadline : Instant} {wake : Nat} (idle : entry.leases = 0)
    (touches : Touches b b' id entry { entry with closed := true } [.stopping entry.inProgress])
    (current : b'.pool.current = b.pool.current) : RetirementStep b id entry (.counting deadline) b' (.closing wake)
  | giveUp {b' : Balancer α} {deadline : Instant} {wake : Nat} (notice : entry.idleNotice = false)
    (late : Instant.reached deadline b.now = true)
    (touches : Touches b b' id entry { entry with closed := true } [.stopping entry.inProgress])
    (current : b'.pool.current = b.pool.current) : RetirementStep b id entry (.waiting deadline) b' (.closing wake)
  | leave {b' : Balancer α} {wake : Nat} {what : Occurrence} (what_eq : what = .stopped ∨ what = .stopFailed)
    (touches : Touches b b' id entry { entry with state := .stopped } [what])
    (current : b'.pool.current = b.pool.current.filter (fun c => c.1 ≠ entry.endpoint)) :
    RetirementStep b id entry (.closing wake) b' .retired

theorem callStop_spec {b : Balancer α} {id : ExporterId} {entry : Entry} (he : b.pool.entry? id = some entry) :
    Frame b (b.callStop id).1 ∧ (∃ wake, (b.callStop id).2 = .closing wake) ∧
      Touches b (b.callStop id).1 id entry { entry with closed := true } [.stopping entry.inProgress] ∧
      (b.callStop id).1.pool.current = b.pool.current := by
  unfold callStop
  rw [he]
  dsimp only
  refine ⟨.change (.log (.refl b)), ⟨_, rfl⟩, touches_logEntry_changeEntry he _ _, ?_⟩
  rw [changeEntry, pool_logEntry]
  rfl

theorem concludeStop_spec {b : Balancer α} {id : ExporterId} {entry : Entry} (he : b.pool.entry? id = some entry) (wake : Nat) :
    Frame b (b.concludeStop id).1 ∧
      RetirementStep b id entry (.closing wake) (b.concludeStop id).1 (b.concludeStop id).2 := by
  unfold concludeStop
  obtain ⟨result, backends, hresult⟩ := concludeCall_eq b entry .stop
  rw [he]
  dsimp only
  rw [hresult]
  dsimp only
  have hwhat : ∀ what : Occurrence, what = .stopped ∨ what = .stopFailed →
      RetirementStep b id entry (.closing wake)
        { (({ b with backends := backends } : Balancer α).logEntry id what).changeEntry id (fun x => { x with state := .stopped }) with
          pool := ((({ b with backends := backends } : Balancer α).logEntry id what).changeEntry id
            (fun x => { x with state := .stopped })).pool.erase entry.endpoint } .retired := fun what hw => by
    have h := touches_logEntry_changeEntry (b := { b with backends := backends }) he what (fun x => { x with state := .stopped })
    refine .leave hw ((h.rebase ?_ ?_).congr ?_ ?_) ?_
    · rfl
    · rfl
    · rfl
    · rfl
    · dsimp only [Pool.erase, changeEntry, Pool.change]
      rw [pool_logEntry]
  refine ⟨.erase (.change (.log ⟨rfl, rfl, rfl, rfl, rfl, rfl, rfl, rfl⟩)), hwhat _ ?_⟩
  cases result with
  | ok _ => exact .inl rfl
  | error _ => exact .inr rfl

theorem stepRetirement_spec {b b' : Balancer α} {r r' : Retirement} {entry : Entry} (he : b.pool.entry? r.id = some entry)
    (h : b.stepRetirement r = some (b', r')) :
    r'.id = r.id ∧ Frame b b' ∧ RetirementStep b r.id entry r.phase b' r'.phase := by
  obtain ⟨hid, hmove⟩ := RetirementMove.of_step h
  refine ⟨hid, ?_⟩
  generalize r.id = id at he hmove ⊢
  generalize r.phase = phase at hmove ⊢
  generalize r'.phase = phase' at hmove ⊢
  have hrefl : Touches b b id entry { entry with notices := entry.notices, awaited := entry.awaited } [] := touches_refl he
  obtain ⟨hframe, ⟨wake, hwake⟩, htouches, hcurrent⟩ := callStop_spec he
  cases hmove with
  | mark => exact ⟨.change (.refl b), .mark (touches_changeEntry he _) rfl⟩
  | close idle =>
    rw [hwake]
    rw [he] at idle
    exact ⟨hframe, .close idle htouches hcurrent⟩
  | stay _ => exact ⟨.refl b, .drain rfl rfl hrefl rfl⟩
  | register => exact ⟨.change (.refl b), .drain rfl rfl (touches_changeEntry he _) rfl⟩
  | hear _ => exact ⟨.change (.refl b), .drain rfl rfl (touches_changeEntry he _) rfl⟩
  | giveUp unnoticed late =>
    rw [hwake]
    rw [he] at unnoticed
    exact ⟨hframe, .giveUp (Bool.eq_false_iff.2 unnoticed) late htouches hcurrent⟩
  | stopped _ => exact concludeStop_spec he _

end Balancer

end TelemetryRouter
