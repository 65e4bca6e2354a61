import TelemetryRouter.Proofs.Accounts

/-!
# Dispatching again what came back

The parcels of a dispatch are the parts of its batch by the owners of keys (`Balancer.Cuts.map_eq_partsBy`), and owners depend only on
what survives a cut. On an unchanged ring a batch that a dispatch handed back is therefore one parcel, the one that it was, and goes to
the endpoint that it was cut for (`Run.resends`).
-/

namespace TelemetryRouter

variable {α : Type}

/-- The parcels that a batch is cut into are its parts by the owners of the keys. -/
theorem Balancer.Cuts.map_eq_partsBy {b : Balancer α} {batch : Batch α} {parcels : List (Parcel α)} (h : b.Cuts batch parcels) :
    parcels.map (fun p => (p.endpoint, p.batch)) = batch.partsBy (b.adapter.ownerWith Sha256.position b.ring) := by
  obtain ⟨owners, howners, hparts⟩ := h
  have hchoices : batch.choices (b.adapter.ownerWith Sha256.position b.ring) = owners := by
    have hmap := congrArg (List.map (fun o : Option Endpoint => o.getD default)) howners
    rw [List.map_map, List.map_map] at hmap
    exact hmap.trans (List.map_id owners)
  rw [hparts, Batch.partsBy, hchoices]
  simp only [Batch.partFor, hchoices]

namespace DispatchError

/-- The batches that come back, each with the endpoint that it was for. -/
def returned (e : DispatchError α) : List (Endpoint × Batch α) := e.failedEndpoints.zip e.failedBatches

/-- A failed dispatch hands back the failures of its result. -/
theorem returned_eq_failures (e : DispatchError α) :
    e.returned = (DispatchResult.failed e).failures.map (fun f => (f.endpoint, f.batch)) := by
  cases e with
  | routing error => rfl
  | undelivered delivered failed => exact List.zip_map'

end DispatchError

namespace Run

variable (r : Run α)

/-- What becomes of a batch for an endpoint when it is dispatched on the ring that was published before a step. -/
structure Keeps (k : Nat) (x : Endpoint × Batch α) : Prop where
  cut : r.adapter.regroupOn (r.state k).ring x.2 = some [x]
  sent : ∀ n m context result, r.action n = .request (.dispatch x.2 context) → n < m →
    (r.state m).outcome? (r.state n).nextTask = some (.dispatched result) →
    ∃ j, r.Accounts (r.state n).nextTask n x.2 context j m result ∧
      ((r.state j).ring = (r.state k).ring → ¬ (r.state j).ClockOverflows context →
        ∃ p, p.endpoint = x.1 ∧ p.batch = x.2 ∧ r.Delivers (r.state n).nextTask n x.2 j m result [p])

/-- Whether a dispatch that fails hands back only batches that go where they went, as long as the ring is the one that it began with. -/
def Resends : Prop :=
  ∀ n m batch context e, r.action n = .request (.dispatch batch context) → n < m →
    (r.state m).outcome? (r.state n).nextTask = some (.dispatched (.failed e)) →
    ∃ k, r.Accounts (r.state n).nextTask n batch context k m (.failed e) ∧ ∀ x ∈ e.returned, r.Keeps k x

variable {r} {n m k : Nat} {batch : Batch α} {context : DispatchContext}

/-- What a dispatch hands back is among the parts by the owners on the ring that it began with, which has members. -/
theorem Accounts.mem_partsBy {t : TaskId} {e : DispatchError α} (h : r.Accounts t n batch context k m (.failed e))
    {x : Endpoint × Batch α} (hx : x ∈ e.returned) :
    (r.state k).ring.endpoints ≠ [] ∧ x ∈ batch.partsBy (r.adapter.ownerWith Sha256.position (r.state k).ring) := by
  have hrouted : DispatchResult.failed e ≠ .failed (.routing .noEndpoints) := by
    intro heq
    injection heq with heq
    subst heq
    cases hx
  have hmembers : (r.state k).ring.endpoints ≠ [] := mt h.unrouted.2 hrouted
  have hclock : ¬ (r.state k).ClockOverflows context := fun hoverflows => nomatch h.overflow.2 ⟨hmembers, hoverflows⟩
  obtain ⟨parcels, hdelivers⟩ := h.delivers hmembers hclock
  refine ⟨hmembers, ?_⟩
  rw [e.returned_eq_failures, hdelivers.failures, List.mem_map] at hx
  obtain ⟨p, hp, rfl⟩ := hx
  rw [← r.adapter_state k, ← hdelivers.cuts.map_eq_partsBy, List.mem_map]
  exact ⟨p, (List.mem_filter.1 hp).1, rfl⟩

/-- A part by the owners on the ring before a step stays what it is when it is dispatched on that ring. -/
theorem keeps_of_mem_partsBy (hmembers : (r.state k).ring.endpoints ≠ []) {x : Endpoint × Batch α}
    (hx : x ∈ batch.partsBy (r.adapter.ownerWith Sha256.position (r.state k).ring)) : r.Keeps k x := by
  have hself := Batch.partsBy_part hx
  have hitems : x.2.isEmpty = false := by
    refine Bool.eq_false_iff.2 (fun hempty => ?_)
    rw [Batch.partsBy_of_isEmpty hempty] at hself
    cases hself
  refine ⟨?_, ?_⟩
  · rw [r.adapter.regroupOn_eq_partsBy (r.published k).ring hmembers, hself]
  · intro n' m' context' result hrequest hm houtcome
    obtain ⟨j, haccounts⟩ := (answers_of_outcome hrequest hm houtcome).accounts hitems
    refine ⟨j, haccounts, fun hring hclock => ?_⟩
    obtain ⟨parcels, hdelivers⟩ := haccounts.delivers (hring ▸ hmembers) hclock
    have hcut := hdelivers.cuts.map_eq_partsBy
    rw [r.adapter_state j, hring, hself] at hcut
    obtain ⟨p, rfl, hp⟩ := List.map_eq_singleton_iff.1 hcut
    exact ⟨p, congrArg Prod.fst hp, congrArg Prod.snd hp, hdelivers⟩

/-- Cutting a part of a batch again on the same ring gives just that part, for every hash, every adapter and every ring with members;
and in every run a batch that a dispatch handed back goes, on the ring that the dispatch began with, to the endpoint that it was for
and to no other. -/
theorem resends (hash : ByteArray → UInt64) (a : Adapter α) {es : List Endpoint} (hes : es ≠ []) (count : Nat) (batch : Batch α) :
    (∃ parts, a.regroupOnWith hash (Ring.buildWith hash es count) batch = some parts ∧
      ∀ p ∈ parts, a.regroupOnWith hash (Ring.buildWith hash es count) p.2 = some [p]) ∧
      ∀ r : Run α, r.Resends := by
  refine ⟨⟨_, a.regroupOnWith_eq_partsBy hash hes count batch, fun p hp => ?_⟩, ?_⟩
  · rw [a.regroupOnWith_eq_partsBy hash hes, Batch.partsBy_part hp]
  · intro r n m batch context e hrequest hm houtcome
    have hanswers := answers_of_outcome hrequest hm houtcome
    have hitems : batch.isEmpty = false := by
      refine Bool.eq_false_iff.2 (fun hempty => ?_)
      cases (hanswers.of_isEmpty hempty).1
    obtain ⟨k, haccounts⟩ := hanswers.accounts hitems
    refine ⟨k, haccounts, fun x hx => ?_⟩
    obtain ⟨hmembers, hpart⟩ := haccounts.mem_partsBy hx
    exact keeps_of_mem_partsBy hmembers hpart

/-! ## A batch that is refused and sent again -/

/-- One endpoint, which refuses the batch that it is sent first. What came back is then dispatched again. Only true items have a key. -/
def refused : Run Bool where
  options := ⟨⟨1, .ofSeconds 30, .ofSeconds 30⟩, none, none⟩
  adapter := ⟨.logs, fun _ item => if item then some ⟨Vector.replicate 16 98⟩ else none⟩
  resolver := .new .fixed []
  backends := ⟨[("a", { Behaviour.smooth with deliver := ⟨0, .times 1, none⟩ })]⟩
  action := fun n =>
    if n = 0 then .request (.update [⟨"a"⟩])
    else if n < 8 then .move 0 (n % 2)
    else if n = 8 then .request (.dispatch (Batch.ofGroups [[false, false]]) ⟨none, none⟩)
    else if n < 17 then .move 1 (n % 2)
    else if n = 17 then .request (.dispatch (Batch.ofGroups [[false, false]]) ⟨none, none⟩)
    else .move 2 0

/-- The items that a failed dispatch hands back, each list with the endpoint that it was for. -/
def handedBack? : Option (Outcome Bool) → Option (List (Endpoint × List Bool))
  | some (.dispatched (.failed e)) => some (e.returned.map (fun x => (x.1, x.2.items.map (·.2.2))))
  | _ => none

/-- A ring of two endpoints cuts a batch in two, and each part into itself. In the run the first dispatch hands back two items, and the
exporter that refused them takes them when they are dispatched again. -/
theorem resends_refused : ([⟨"a"⟩, ⟨"b"⟩] : List Endpoint) ≠ [] ∧
    refused.adapter.regroupOnWith firstByte (Ring.buildWith firstByte [⟨"a"⟩, ⟨"b"⟩] 1) (Batch.ofGroups [[true, false, true]]) =
      some [(⟨"b"⟩, Batch.ofGroups [[true, true]]), (⟨"a"⟩, Batch.ofGroups [[false]])] ∧
    (handedBack? ((refused.state 17).outcome? 1) = some [(⟨"a"⟩, [false, false])] ∧
      (refused.state 22).history 0 = [.created, .starting, .started, .exporting 2, .exportFailed, .exporting 2, .exported]) ∧
    (∃ parts, refused.adapter.regroupOnWith firstByte (Ring.buildWith firstByte [⟨"a"⟩, ⟨"b"⟩] 1) (Batch.ofGroups [[true, false, true]]) =
        some parts ∧
      ∀ p ∈ parts, refused.adapter.regroupOnWith firstByte (Ring.buildWith firstByte [⟨"a"⟩, ⟨"b"⟩] 1) p.2 = some [p]) ∧
    refused.Resends := by
  have hmembers : ([⟨"a"⟩, ⟨"b"⟩] : List Endpoint) ≠ [] := by decide
  have hresends := resends firstByte refused.adapter hmembers 1 (Batch.ofGroups [[true, false, true]])
  refine ⟨hmembers, ?_, by decide +kernel, hresends.1, hresends.2 refused⟩
  rw [Ring.buildWith_firstByte]
  rfl

end Run

end TelemetryRouter
