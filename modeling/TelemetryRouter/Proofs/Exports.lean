import TelemetryRouter.Proofs.Exporters

/-!
# What a delivery does to the exporters

An export goes through a lease: a parcel takes one for itself, and a lease held from outside serves the exports made through it.
This module says what each step of a parcel does to the exporter it leased, and what giving back the leases that nobody needs
does to all of them.
-/

namespace TelemetryRouter

variable {α : Type}

/-! ## Leases -/

namespace Pool

/-- A lease is the lease of a running exporter that the pool has for the endpoint, and adds one to its count. -/
theorem lease?_eq_some_iff {p p' : Pool} {e : Endpoint} {id : ExporterId} :
    p.lease? e = some (id, p') ↔ ∃ entry, p.find? e = some id ∧ p.entry? id = some entry ∧ entry.state = .running ∧
      p' = p.change id (fun _ => { entry with leases := entry.leases + 1 }) := by
  unfold lease? Entry.lease?
  constructor
  · intro h
    simp only [Option.bind_eq_bind, Option.bind_eq_some_iff, Option.pure_def, Option.some.injEq, Prod.mk.injEq] at h
    obtain ⟨id', hfind, entry, hentry, leased, hleased, rfl, rfl⟩ := h
    split at hleased
    · rename_i hrunning
      injection hleased with hleased
      exact ⟨entry, hfind, hentry, hrunning, by rw [hleased]⟩
    · cases hleased
  · rintro ⟨entry, hfind, hentry, hrunning, rfl⟩
    simp [hfind, hentry, hrunning]

end Pool

/-- Whether two entries are of one endpoint, in one stage of life, and both closed or both not. -/
structure Entry.SameLife (entry' entry : Entry) : Prop where
  endpoint : entry'.endpoint = entry.endpoint
  state : entry'.state = entry.state
  closed : entry'.closed = entry.closed

theorem Entry.SameLife.refl (entry : Entry) : entry.SameLife entry := ⟨rfl, rfl, rfl⟩

theorem Entry.SameLife.trans {a b c : Entry} (h : a.SameLife b) (h' : b.SameLife c) : a.SameLife c :=
  ⟨h.endpoint.trans h'.endpoint, h.state.trans h'.state, h.closed.trans h'.closed⟩

theorem Entry.sameLife_notify (e : Entry) : e.notify.SameLife e := by
  unfold notify
  split <;> exact ⟨rfl, rfl, rfl⟩

theorem Entry.leases_notify (e : Entry) : e.notify.leases = e.leases := by
  unfold notify
  split <;> rfl

/-- The exporter that a parcel has leased. -/
def ParcelPhase.lease? : ParcelPhase → Option ExporterId
  | .leased id _ => some id
  | .exporting id _ _ => some id
  | _ => none

/-- The phase of a parcel whose delivery has a result. -/
def ParcelPhase.ofResult : Except RouterError Unit → ParcelPhase
  | .ok _ => .delivered
  | .error e => .failed e

namespace Balancer

theorem touches_release {b : Balancer α} {id : ExporterId} {entry : Entry} (h : b.pool.entry? id = some entry) :
    Touches b { b with pool := b.pool.release id } id entry entry.release [] :=
  touches_changeEntry h Entry.release

/-! ## Exports -/

/-- The call of an export: a closed exporter refuses it, unless it is a plain one. -/
theorem callExport_spec {b : Balancer α} {id : ExporterId} {entry : Entry} (he : b.pool.entry? id = some entry)
    (batch : Batch α) :
    Frame b (b.callExport id batch).1 ∧ (b.callExport id batch).1.pool.current = b.pool.current ∧
      ((∃ e, (b.callExport id batch).2 = .error e ∧ Touches b (b.callExport id batch).1 id entry entry [.exportRefused]) ∨
        ∃ wake, (b.callExport id batch).2 = .ok wake ∧ Touches b (b.callExport id batch).1 id entry
          { entry with inProgress := entry.inProgress + 1 } [.exporting batch.itemCount]) := by
  unfold callExport
  rw [he]
  dsimp only
  split
  · refine ⟨.log (.refl b), ?_, .inl ⟨_, rfl, touches_logEntry he _⟩⟩
    dsimp only
    rw [pool_logEntry]
  · refine ⟨.change (.log (.refl b)), ?_, .inr ⟨_, rfl, touches_logEntry_changeEntry he _ _⟩⟩
    dsimp only [changeEntry, Pool.change]
    rw [pool_logEntry]

theorem Frame.keep {b c : Balancer α} {address : String} {batch : Batch α} (h : Frame b c) :
    Frame b (c.keepDelivered address batch) :=
  h.trans ⟨rfl, rfl, rfl, rfl, rfl, rfl, rfl, rfl⟩

theorem delivered_logEntry (b : Balancer α) (id : ExporterId) (what : Occurrence) :
    (b.logEntry id what).delivered = b.delivered := by
  unfold logEntry
  split <;> rfl

/-- The end of an export, well or not. A batch that the exporter took is kept as it is. -/
theorem concludeExport_spec {b : Balancer α} {id : ExporterId} {entry : Entry} (he : b.pool.entry? id = some entry)
    (batch : Batch α) :
    Frame b (b.concludeExport id batch).1 ∧ (b.concludeExport id batch).1.pool.current = b.pool.current ∧
      (((b.concludeExport id batch).2 = .ok () ∧
          (b.concludeExport id batch).1.delivered = b.delivered ++ [(entry.address, batch)] ∧
          Touches b (b.concludeExport id batch).1 id entry { entry with inProgress := entry.inProgress - 1 } [.exported]) ∨
        ∃ e, (b.concludeExport id batch).2 = .error e ∧ Touches b (b.concludeExport id batch).1 id entry
          { entry with inProgress := entry.inProgress - 1 } [.exportFailed]) := by
  unfold concludeExport
  obtain ⟨result, backends, hresult⟩ :=
    concludeCall_eq (b.changeEntry id (fun x => { x with inProgress := x.inProgress - 1 })) entry .deliver
  rw [he]
  dsimp only
  rw [hresult]
  have hc := touches_changeEntry he (fun x => { x with inProgress := x.inProgress - 1 })
  have hlog := fun what => touches_logEntry
    (b := { b.changeEntry id (fun x => { x with inProgress := x.inProgress - 1 }) with backends := backends }) hc.after what
  rcases result with e | _
  · dsimp only
    refine ⟨.log (.trans (.change (.refl b)) ⟨rfl, rfl, rfl, rfl, rfl, rfl, rfl, rfl⟩), ?_, .inr ⟨e, rfl, ?_⟩⟩
    · rw [pool_logEntry]
      rfl
    · exact hc.trans ((hlog .exportFailed).rebase rfl rfl)
  · dsimp only
    refine ⟨?_, ?_, .inl ⟨rfl, ?_, ?_⟩⟩
    · exact .keep (.log (.trans (.change (.refl b)) ⟨rfl, rfl, rfl, rfl, rfl, rfl, rfl, rfl⟩))
    · unfold keepDelivered
      dsimp only
      rw [pool_logEntry]
      rfl
    · unfold keepDelivered
      dsimp only
      rw [delivered_logEntry]
      rfl
    · refine hc.trans (((hlog .exported).rebase ?_ ?_).congr ?_ ?_)
      · rfl
      · rfl
      · rfl
      · rfl

theorem abandonExport_spec {b : Balancer α} {id : ExporterId} {entry : Entry} (he : b.pool.entry? id = some entry) :
    Frame b (b.abandonExport id) ∧ (b.abandonExport id).pool.current = b.pool.current ∧
      Touches b (b.abandonExport id) id entry { entry with inProgress := entry.inProgress - 1 } [.exportAbandoned] := by
  unfold abandonExport
  refine ⟨.log (.change (.refl b)), ?_, touches_changeEntry_logEntry he _ _⟩
  rw [pool_logEntry]
  rfl

/-! ## Parcels -/

/-- What a step of the delivery of a parcel for an endpoint does, `cut` being what ends it whatever its exporter does. -/
inductive ParcelStep (b : Balancer α) (e : Endpoint) (batch : Batch α) (cut : Option RouterError) :
    ParcelPhase → Balancer α → ParcelPhase → Prop
  | unready (none : b.pool.lease? e = none) : ParcelStep b e batch cut .pending b (.failed (.endpointNotReady e))
  | lease {b' : Balancer α} {id : ExporterId} {entry : Entry} (find : b.pool.find? e = some id)
    (running : entry.state = .running) (touches : Touches b b' id entry { entry with leases := entry.leases + 1 } [])
    (current : b'.pool.current = b.pool.current) : ParcelStep b e batch cut .pending b' (.leased id b.now)
  | cutEarly {b' : Balancer α} {id : ExporterId} {since : Nat} {entry : Entry} {error : RouterError}
    (cut_eq : cut = some error) (touches : Touches b b' id entry entry.release [])
    (current : b'.pool.current = b.pool.current) : ParcelStep b e batch cut (.leased id since) b' (.failed error)
  | refuse {b' : Balancer α} {id : ExporterId} {since : Nat} {entry : Entry} {error : RouterError} (cut_eq : cut = none)
    (touches : Touches b b' id entry entry.release [.exportRefused]) (current : b'.pool.current = b.pool.current) :
    ParcelStep b e batch cut (.leased id since) b' (.failed error)
  | call {b' : Balancer α} {id : ExporterId} {since wake : Nat} {entry : Entry} (cut_eq : cut = none)
    (touches : Touches b b' id entry { entry with inProgress := entry.inProgress + 1 } [.exporting batch.itemCount])
    (current : b'.pool.current = b.pool.current) : ParcelStep b e batch cut (.leased id since) b' (.exporting id since wake)
  | cutLate {b' : Balancer α} {id : ExporterId} {since wake : Nat} {entry : Entry} {error : RouterError}
    (cut_eq : cut = some error)
    (touches : Touches b b' id entry ({ entry with inProgress := entry.inProgress - 1 } : Entry).release [.exportAbandoned])
    (current : b'.pool.current = b.pool.current) : ParcelStep b e batch cut (.exporting id since wake) b' (.failed error)
  | arrive {b' : Balancer α} {id : ExporterId} {since wake : Nat} {entry : Entry} (cut_eq : cut = none)
    (due : wake ≤ b.now) (ok : (b.concludeExport id batch).2 = .ok ())
    (touches : Touches b b' id entry ({ entry with inProgress := entry.inProgress - 1 } : Entry).release [.exported])
    (current : b'.pool.current = b.pool.current) (kept : b'.delivered = b.delivered ++ [(entry.address, batch)]) :
    ParcelStep b e batch cut (.exporting id since wake) b' .delivered
  | reject {b' : Balancer α} {id : ExporterId} {since wake : Nat} {entry : Entry} {error : RouterError} (cut_eq : cut = none)
    (due : wake ≤ b.now) (notOk : (b.concludeExport id batch).2 = .error error)
    (touches : Touches b b' id entry ({ entry with inProgress := entry.inProgress - 1 } : Entry).release [.exportFailed])
    (current : b'.pool.current = b.pool.current) : ParcelStep b e batch cut (.exporting id since wake) b' (.failed error)

section Parcels

variable {b b' : Balancer α} {id : ExporterId} {entry : Entry} {since : Nat} {p' : Parcel α}

/-- The end of a delivery: the lease goes back, and the parcel's phase tells the result. -/
theorem concludeParcel_spec {p : Parcel α} {result : Except RouterError Unit} (h : b.concludeParcel p id since result = (b', p'))
    (he : b.pool.entry? id = some entry) :
    Frame b b' ∧ b'.pool.current = b.pool.current ∧ b'.delivered = b.delivered ∧ Touches b b' id entry entry.release [] ∧
      p' = { p with phase := .ofResult result } := by
  unfold concludeParcel at h
  have hfeed := fun latency ok => feed_record (f := (·.recordExport p.endpoint.address latency ok)) { b with pool := b.pool.release id }
    (MetricBook.resolutions_recordExport b.metrics p.endpoint.address latency ok)
  cases result with
  | ok _ =>
    cases h
    exact ⟨⟨rfl, rfl, rfl, rfl, rfl, rfl, rfl, hfeed _ _⟩, rfl, rfl, (touches_release he).congr rfl rfl, rfl⟩
  | error e =>
    cases h
    exact ⟨⟨rfl, rfl, rfl, rfl, rfl, rfl, rfl, hfeed _ _⟩, rfl, rfl, (touches_release he).congr rfl rfl, rfl⟩

/-- The end of a delivery after something else that touched its exporter. -/
theorem concludeParcel_after {c : Balancer α} {old : Entry} {said : List Occurrence} {p : Parcel α} {result : Except RouterError Unit}
    (h : c.concludeParcel p id since result = (b', p')) (hframe : Frame b c) (hcurrent : c.pool.current = b.pool.current)
    (htouches : Touches b c id old entry said) :
    Frame b b' ∧ b'.pool.current = b.pool.current ∧ b'.delivered = c.delivered ∧ Touches b b' id old entry.release said ∧
      p' = { p with phase := .ofResult result } := by
  obtain ⟨hframe', hcurrent', hdelivered, htouches', hp⟩ := concludeParcel_spec h htouches.after
  refine ⟨hframe.trans hframe', hcurrent'.trans hcurrent, hdelivered, ?_, hp⟩
  have hboth := htouches.trans htouches'
  rwa [List.append_nil] at hboth

variable {started wake : Nat} {deadline : Option Instant} {token : Option String} {e : Endpoint} {batch : Batch α}

/-- A step of a parcel. The exporter it has leased, if any, was made. -/
theorem stepParcel_spec {p : Parcel α} (hmade : ∀ id ∈ p.phase.lease?, ∃ entry, b.pool.entry? id = some entry)
    (h : b.stepParcel started deadline token p = some (b', p')) :
    p'.endpoint = p.endpoint ∧ p'.batch = p.batch ∧ Frame b b' ∧
      ParcelStep b p.endpoint p.batch (b.interruption? started deadline token) p.phase b' p'.phase := by
  cases ParcelMove.of_step h with
  | unready phase_eq none =>
    rw [phase_eq]
    exact ⟨rfl, rfl, .refl b, .unready none⟩
  | lease phase_eq leased =>
    rw [phase_eq]
    obtain ⟨entry, hfind, hentry, hrunning, rfl⟩ := Pool.lease?_eq_some_iff.1 leased
    refine ⟨rfl, rfl, ⟨rfl, rfl, rfl, rfl, rfl, rfl, rfl, rfl⟩, .lease hfind hrunning ?_ rfl⟩
    exact touches_changeEntry hentry (fun _ => { entry with leases := entry.leases + 1 })
  | cutEarly phase_eq cut_eq ends =>
    rw [phase_eq] at hmade ⊢
    obtain ⟨entry, he⟩ := hmade _ rfl
    obtain ⟨hframe, hcurrent, -, htouches, rfl⟩ := concludeParcel_spec ends he
    exact ⟨rfl, rfl, hframe, .cutEarly cut_eq htouches hcurrent⟩
  | refuse phase_eq cut_eq refused ends =>
    rw [phase_eq] at hmade ⊢
    obtain ⟨entry, he⟩ := hmade _ rfl
    obtain ⟨hframe, hcurrent, ⟨_, -, htouches⟩ | ⟨_, hresult, -⟩⟩ := callExport_spec he p.batch
    · obtain ⟨hframe, hcurrent, -, htouches, rfl⟩ := concludeParcel_after ends hframe hcurrent htouches
      exact ⟨rfl, rfl, hframe, .refuse cut_eq htouches hcurrent⟩
    · cases refused.symm.trans hresult
  | call phase_eq cut_eq called =>
    rw [phase_eq] at hmade ⊢
    obtain ⟨entry, he⟩ := hmade _ rfl
    obtain ⟨hframe, hcurrent, ⟨_, hresult, -⟩ | ⟨_, -, htouches⟩⟩ := callExport_spec he p.batch
    · cases called.symm.trans hresult
    · exact ⟨rfl, rfl, hframe, .call cut_eq htouches hcurrent⟩
  | cutLate phase_eq cut_eq ends =>
    rw [phase_eq] at hmade ⊢
    obtain ⟨entry, he⟩ := hmade _ rfl
    obtain ⟨hframe, hcurrent, htouches⟩ := abandonExport_spec he
    obtain ⟨hframe, hcurrent, -, htouches, rfl⟩ := concludeParcel_after ends hframe hcurrent htouches
    exact ⟨rfl, rfl, hframe, .cutLate cut_eq htouches hcurrent⟩
  | finish phase_eq cut_eq due ends =>
    rw [phase_eq] at hmade ⊢
    obtain ⟨entry, he⟩ := hmade _ rfl
    obtain ⟨hframe, hcurrent, ⟨hresult, hkept, htouches⟩ | ⟨error, hresult, htouches⟩⟩ := concludeExport_spec he p.batch
    all_goals
      rw [hresult] at ends
      obtain ⟨hframe, hcurrent, hdelivered, htouches, rfl⟩ := concludeParcel_after ends hframe hcurrent htouches
    · exact ⟨rfl, rfl, hframe, .arrive cut_eq due hresult htouches hcurrent (hdelivered.trans hkept)⟩
    · exact ⟨rfl, rfl, hframe, .reject cut_eq due hresult htouches hcurrent⟩

end Parcels

/-! ## Leases held from outside -/

/-- How many leases of a list are unused leases of an exporter. -/
def unusedOf (leases : List HeldLease) (id : ExporterId) : Nat := leases.countP (fun l => l.isUnused && l.exporter == id)

/-- Giving back the unused leases of a list takes as many from every exporter's count and changes nothing else. -/
theorem foldl_releaseIfUnused (leases : List HeldLease) (b : Balancer α) :
    ∃ pool, leases.foldl releaseIfUnused b = { b with pool := pool } ∧ pool.current = b.pool.current ∧
      pool.gate = b.pool.gate ∧ pool.made.length = b.pool.made.length ∧
      ∀ id entry, b.pool.entry? id = some entry → ∃ owed, pool.entry? id =
        some { entry with leases := entry.leases - unusedOf leases id, owed := owed } := by
  induction leases generalizing b with
  | nil =>
    refine ⟨b.pool, rfl, rfl, rfl, rfl, fun id entry he => ⟨entry.owed, ?_⟩⟩
    rw [he]
    rfl
  | cons l leases ih =>
    rw [List.foldl_cons]
    by_cases hl : l.isUnused = true
    · have hb : b.releaseIfUnused l = { b with pool := b.pool.release l.exporter } := by rw [releaseIfUnused, if_pos hl]
      rw [hb]
      obtain ⟨pool, heq, hcurrent, hgate, hlength, hentries⟩ := ih { b with pool := b.pool.release l.exporter }
      refine ⟨pool, heq, hcurrent, hgate, hlength.trans (List.length_modify _ _ _), fun id entry he => ?_⟩
      by_cases hid : l.exporter = id
      · subst hid
        obtain ⟨owed, hpool⟩ := hentries l.exporter entry.release (touches_release he).after
        refine ⟨owed, hpool.trans ?_⟩
        have hcount : unusedOf (l :: leases) l.exporter = unusedOf leases l.exporter + 1 := by
          rw [unusedOf, unusedOf, List.countP_cons_of_pos (by simp [hl])]
        rw [hcount, Entry.release]
        simp only [Nat.sub_sub, Nat.add_comm]
      · have hother : ({ b with pool := b.pool.release l.exporter } : Balancer α).pool.entry? id = some entry := by
          rw [← he]
          exact List.getElem?_modify_ne _ _ hid
        obtain ⟨owed, hpool⟩ := hentries id entry hother
        refine ⟨owed, hpool.trans ?_⟩
        have hcount : unusedOf (l :: leases) id = unusedOf leases id := by
          rw [unusedOf, unusedOf, List.countP_cons_of_neg (by simp [hid])]
        rw [hcount]
    · have hb : b.releaseIfUnused l = b := by rw [releaseIfUnused, if_neg hl]
      rw [hb]
      obtain ⟨pool, heq, hcurrent, hgate, hlength, hentries⟩ := ih b
      refine ⟨pool, heq, hcurrent, hgate, hlength, fun id entry he => ?_⟩
      have hcount : unusedOf (l :: leases) id = unusedOf leases id := by
        rw [unusedOf, unusedOf, List.countP_cons_of_neg (by simp [hl])]
      rw [hcount]
      exact hentries id entry he

/-- Giving back the leases that nobody needs takes them from the counts of their exporters and changes nothing else. -/
theorem releaseUnused_spec (b : Balancer α) :
    ∃ pool, b.releaseUnused = { b with pool := pool, leases := b.leases.map HeldLease.settle } ∧
      pool.current = b.pool.current ∧ pool.gate = b.pool.gate ∧ pool.made.length = b.pool.made.length ∧
      ∀ id entry, b.pool.entry? id = some entry → ∃ owed, pool.entry? id =
        some { entry with leases := entry.leases - unusedOf b.leases id, owed := owed } :=
  foldl_releaseIfUnused b.leases { b with leases := b.leases.map HeldLease.settle }

/-! ## Giving leases back -/

/-- Leases were given back, so many of each exporter, and exports through them abandoned. What the exporters are and how far their
lives are has not changed. -/
structure Relieves (b b' : Balancer α) (given : ExporterId → Nat) : Prop where
  entries : ∀ id entry, b.pool.entry? id = some entry → ∃ entry', b'.pool.entry? id = some entry' ∧ entry'.SameLife entry ∧
    entry'.leases = entry.leases - given id
  length : b'.pool.made.length = b.pool.made.length
  current : b'.pool.current = b.pool.current
  history : ∀ id, ∃ said, b'.history id = b.history id ++ said ∧ ∀ what ∈ said, what = .exportAbandoned
  silent : ∀ id, b.pool.entry? id = none → b'.history id = b.history id

namespace Relieves

variable {b b' b'' : Balancer α} {given more : ExporterId → Nat}

theorem refl (b : Balancer α) : Relieves b b (fun _ => 0) where
  entries := fun _ entry he => ⟨entry, he, .refl entry, rfl⟩
  length := rfl
  current := rfl
  history := fun _ => SaysOnly.of_eq rfl
  silent := fun _ _ => rfl

theorem trans (h : Relieves b b' given) (h' : Relieves b' b'' more) : Relieves b b'' (fun id => given id + more id) where
  entries := fun id entry he => by
    obtain ⟨mid, hmid, hlife, hleases⟩ := h.entries id entry he
    obtain ⟨new, hnew, hlife', hleases'⟩ := h'.entries id mid hmid
    exact ⟨new, hnew, hlife'.trans hlife, by rw [hleases', hleases, Nat.sub_sub]⟩
  length := h'.length.trans h.length
  current := h'.current.trans h.current
  history := fun id => SaysOnly.trans (h.history id) (h'.history id)
  silent := fun id hnone => by
    have hnone' : b'.pool.entry? id = none :=
      List.getElem?_eq_none (h.length ▸ List.getElem?_eq_none_iff.1 hnone)
    rw [h'.silent id hnone', h.silent id hnone]

theorem of_touches {id : ExporterId} {old new : Entry} {said : List Occurrence} (h : Touches b b' id old new said)
    (hcurrent : b'.pool.current = b.pool.current) (hlife : new.SameLife old) {n : Nat} (hleases : new.leases = old.leases - n)
    (hsaid : ∀ what ∈ said, what = .exportAbandoned) : Relieves b b' (fun x => if id = x then n else 0) where
  entries := fun x entry he => by
    by_cases hx : id = x
    · subst hx
      rw [h.before] at he
      injection he with he
      subst he
      exact ⟨new, h.after, hlife, by rw [if_pos rfl, hleases]⟩
    · exact ⟨entry, by rw [h.entries x (Ne.symm hx)]; exact he, .refl entry, by rw [if_neg hx]; rfl⟩
  length := h.length
  current := hcurrent
  history := fun _ => SaysOnly.of_touches h hsaid
  silent := h.silent

/-- Every exporter was there before, with the leases that were given back. -/
theorem entry_before (h : Relieves b b' given) {id : ExporterId} {entry' : Entry} (he' : b'.pool.entry? id = some entry') :
    ∃ entry, b.pool.entry? id = some entry ∧ entry'.SameLife entry ∧ entry'.leases = entry.leases - given id := by
  have hlt : id < b.pool.made.length := h.length ▸ (List.getElem?_eq_some_iff.1 he').1
  obtain ⟨entry, hentry, hlife, hleases⟩ := h.entries id _ (List.getElem?_eq_getElem hlt)
  obtain rfl := Option.some.inj (he'.symm.trans hentry)
  exact ⟨_, List.getElem?_eq_getElem hlt, hlife, hleases⟩

end Relieves

/-- There is nothing to leave for an exporter that does not exist. -/
theorem notify_of_none {b : Balancer α} {id : ExporterId} (he : b.pool.entry? id = none) : b.notify id = b := by
  have hmade : b.pool.made.modify id Entry.notify = b.pool.made := List.modify_eq_self (List.getElem?_eq_none_iff.1 he)
  rw [notify, changeEntry, Pool.change, hmade]

/-- A notice that is left changes nothing but what its exporter knows of notices. -/
theorem notify_spec (b : Balancer α) (id : ExporterId) : Frame b (b.notify id) ∧ Relieves b (b.notify id) (fun _ => 0) := by
  refine ⟨.change (.refl b), ?_⟩
  cases he : b.pool.entry? id with
  | none =>
    rw [notify_of_none he]
    exact .refl b
  | some entry =>
    have hrelieves : Relieves b (b.notify id) (fun x => if id = x then 0 else 0) :=
      .of_touches (touches_changeEntry he Entry.notify) rfl entry.sameLife_notify entry.leases_notify (fun _ h => nomatch h)
    simpa only [ite_self] using hrelieves

theorem relieves_releaseUnused (b : Balancer α) : Relieves b b.releaseUnused (unusedOf b.leases) := by
  obtain ⟨pool, heq, hcurrent, _, hlength, hentries⟩ := releaseUnused_spec b
  rw [heq]
  refine ⟨fun id entry he => ?_, hlength, hcurrent, fun _ => SaysOnly.of_eq rfl, fun _ _ => rfl⟩
  obtain ⟨owed, hpool⟩ := hentries id entry he
  exact ⟨_, hpool, ⟨rfl, rfl, rfl⟩, rfl⟩

/-- The leases held from outside become other ones, of which nobody needs some, and those are given back. Everything else is as
before but the counts of their exporters. -/
structure Resettles (b b' : Balancer α) (leases : List HeldLease) : Prop where
  relieves : Relieves b b' (unusedOf leases)
  leases : b'.leases = leases.map HeldLease.settle
  options : b'.options = b.options
  adapter : b'.adapter = b.adapter
  now : b'.now = b.now
  ring : b'.ring = b.ring
  gate : b'.pool.gate = b.pool.gate
  tasks : b'.tasks = b.tasks
  feed : b'.feed = b.feed

theorem resettles_releaseUnused (b : Balancer α) (leases : List HeldLease) :
    Resettles b ({ b with leases := leases } : Balancer α).releaseUnused leases := by
  obtain ⟨hentries, hlength, hcurrent, hhistory, hsilent⟩ := relieves_releaseUnused { b with leases := leases }
  obtain ⟨pool, heq, _, hgate, _⟩ := releaseUnused_spec { b with leases := leases }
  refine ⟨⟨hentries, hlength, hcurrent, hhistory, hsilent⟩, ?_, ?_, ?_, ?_, ?_, ?_, ?_, ?_⟩
  all_goals rw [heq]
  · exact hgate
  · rfl

/-- The leases of a list with another number of exports through one of them. -/
def usesOf (leases : List HeldLease) (lease : LeaseId) (f : Nat → Nat) : List HeldLease :=
  leases.modify lease (fun l => { l with users := f l.users })

/-- The leases of a list, none of them held under a name any more. -/
def unnamed (leases : List HeldLease) (name : String) : List HeldLease :=
  leases.map (fun l => if l.name = some name then { l with name := none } else l)

theorem resettles_useLease (b : Balancer α) (lease : LeaseId) (f : Nat → Nat) :
    Resettles b (b.useLease lease f) (usesOf b.leases lease f) :=
  resettles_releaseUnused b _

theorem resettles_dropName (b : Balancer α) (name : String) : Resettles b (b.dropName name) (unnamed b.leases name) :=
  resettles_releaseUnused b _

/-- Taking a lease under a name: the exporter runs, and an older lease under the name is dropped. -/
theorem leaseAs_spec {b b' : Balancer α} {e : Endpoint} {name : String} (h : b.leaseAs e name = .ok b') :
    ∃ id entry c d, b.pool.find? e = some id ∧ entry.state = .running ∧ Frame b c ∧ c.pool.current = b.pool.current ∧
      Touches b c id entry { entry with leases := entry.leases + 1 } [] ∧ Resettles c d (unnamed b.leases name) ∧
      b' = { d with leases := d.leases ++ [⟨id, some name, 0, false⟩] } := by
  unfold leaseAs at h
  split at h
  · cases h
  · rename_i id pool hlease
    injection h with h
    obtain ⟨entry, hfind, hentry, hrunning, rfl⟩ := Pool.lease?_eq_some_iff.1 hlease
    refine ⟨id, entry, b.changeEntry id (fun _ => { entry with leases := entry.leases + 1 }), _, hfind, hrunning,
      .change (.refl b), rfl, touches_changeEntry hentry _, resettles_dropName _ name, h.symm⟩

/-- Giving up a parcel changes the pool and the log only. -/
theorem frame_dropParcel (b : Balancer α) (p : Parcel α) : Frame b (b.dropParcel p) := by
  unfold dropParcel
  split
  · exact ⟨rfl, rfl, rfl, rfl, rfl, rfl, rfl, rfl⟩
  · exact (Frame.log (.change (.refl b))).trans ⟨rfl, rfl, rfl, rfl, rfl, rfl, rfl, rfl⟩
  · exact .refl b

theorem frame_foldl_dropParcel (parcels : List (Parcel α)) (b : Balancer α) : Frame b (parcels.foldl dropParcel b) :=
  List.foldlRecOn parcels dropParcel (.refl b) (fun c hc p _ => hc.trans (frame_dropParcel c p))

/-- Giving up an export through a lease held from outside ends the use of the lease. -/
theorem frame_dropWork_exportLeased (t : TaskId) (b : Balancer α) (lease : LeaseId) (batch : Batch α) (wake : Option Nat) :
    ∃ c, dropWork t b (.exportLeased lease batch wake) = c.useLease lease (· - 1) ∧ Frame b c := by
  unfold dropWork
  dsimp only
  split
  · exact ⟨_, rfl, .log (.change (.refl b))⟩
  · exact ⟨b, rfl, .refl b⟩

theorem foldl_dropWork_congr {β : Type} (f : Balancer α → β) {t : TaskId} {ws : List (Work α)}
    (hws : ∀ w ∈ ws, ∀ c, f (dropWork t c w) = f c) (b : Balancer α) : f (ws.foldl (dropWork t) b) = f b :=
  List.foldlRecOn ws (dropWork t) (motive := fun c => f c = f b) rfl (fun c hc w hw => (hws w hw c).trans hc)

/-- Giving up a parcel gives its lease back, if it has one. -/
theorem dropParcel_spec {b : Balancer α} {p : Parcel α} (hmade : ∀ id ∈ p.phase.lease?, ∃ entry, b.pool.entry? id = some entry) :
    Frame b (b.dropParcel p) ∧ Relieves b (b.dropParcel p) (fun id => if p.phase.lease? = some id then 1 else 0) := by
  refine ⟨frame_dropParcel b p, ?_⟩
  unfold dropParcel
  obtain ⟨e, batch, phase⟩ := p
  cases phase with
  | leased id since =>
    obtain ⟨entry, he⟩ := hmade id rfl
    simp only [ParcelPhase.lease?, Option.some.injEq]
    exact .of_touches (touches_release he) rfl ⟨rfl, rfl, rfl⟩ rfl (fun _ h => nomatch h)
  | exporting id since wake =>
    obtain ⟨entry, he⟩ := hmade id rfl
    obtain ⟨_, hcurrent, htouches⟩ := abandonExport_spec he
    simp only [ParcelPhase.lease?, Option.some.injEq]
    refine .of_touches (htouches.trans (touches_release htouches.after)) hcurrent ⟨rfl, rfl, rfl⟩ rfl (fun what hwhat => ?_)
    rw [List.append_nil] at hwhat
    exact List.mem_singleton.1 hwhat
  | pending => exact .refl b
  | delivered => exact .refl b
  | failed error => exact .refl b

theorem relieves_abandonExport {b : Balancer α} {id : ExporterId} {entry : Entry} (he : b.pool.entry? id = some entry) :
    Frame b (b.abandonExport id) ∧ Relieves b (b.abandonExport id) (fun _ => 0) := by
  obtain ⟨hframe, hcurrent, htouches⟩ := abandonExport_spec he
  have hrelieves : Relieves b (b.abandonExport id) (fun x => if id = x then 0 else 0) :=
    .of_touches htouches hcurrent ⟨rfl, rfl, rfl⟩ rfl (fun what hwhat => List.mem_singleton.1 hwhat)
  simp only [ite_self] at hrelieves
  exact ⟨hframe, hrelieves⟩

/-- How many parcels have leased an exporter. -/
def leasedBy (parcels : List (Parcel α)) (id : ExporterId) : Nat := parcels.countP (fun p => p.phase.lease? == some id)

theorem foldl_dropParcel_spec (parcels : List (Parcel α)) {b : Balancer α}
    (hmade : ∀ p ∈ parcels, ∀ id ∈ p.phase.lease?, ∃ entry, b.pool.entry? id = some entry) :
    Frame b (parcels.foldl dropParcel b) ∧ Relieves b (parcels.foldl dropParcel b) (leasedBy parcels) := by
  induction parcels generalizing b with
  | nil => exact ⟨.refl b, .refl b⟩
  | cons p parcels ih =>
    obtain ⟨hframe, hrelieves⟩ := dropParcel_spec (hmade p List.mem_cons_self)
    have hmade' : ∀ q ∈ parcels, ∀ id ∈ q.phase.lease?, ∃ entry, (b.dropParcel p).pool.entry? id = some entry := by
      intro q hq id hid
      obtain ⟨entry, he⟩ := hmade q (List.mem_cons_of_mem _ hq) id hid
      obtain ⟨entry', he', _⟩ := hrelieves.entries id entry he
      exact ⟨entry', he'⟩
    obtain ⟨hframe', hrelieves'⟩ := ih hmade'
    refine ⟨hframe.trans hframe', ?_⟩
    have hgiven : leasedBy (p :: parcels) = fun id => (if p.phase.lease? = some id then 1 else 0) + leasedBy parcels id := by
      funext id
      rw [leasedBy, List.countP_cons, Nat.add_comm, leasedBy]
      simp only [beq_iff_eq]
    rw [hgiven]
    exact hrelieves.trans hrelieves'

end Balancer

end TelemetryRouter
