import TelemetryRouter.Proofs.Choices

/-!
# The items of one trace stay together

The key of an item that is routed by its trace is told by the trace alone. On one ring the items of a trace therefore have one place,
in whatever batches, groups and signals they come, and each batch keeps its items of the trace in one part (`colocated`).
-/

namespace TelemetryRouter

variable {α : Type}

/-- What holds of the parts that a batch is cut into when the items of a trace belong to an endpoint. -/
structure KeepsTogether (trace : α → TraceId) (id : TraceId) (e : Endpoint) (b : Batch α) (parts : List (Endpoint × Batch α)) : Prop where
  placed : ∀ p ∈ parts, ∀ x ∈ p.2.items, trace x.2.2 = id → p.1 = e
  /-- If the batch has items of the trace, exactly one part has any, and it has them all, in their order. -/
  whole : (∃ x ∈ b.items, trace x.2.2 = id) →
    ∃ part, parts.filter (fun p => p.2.items.any (fun x => trace x.2.2 = id)) = [(e, part)] ∧
      part.items.filter (fun x => trace x.2.2 = id) = b.items.filter (fun x => trace x.2.2 = id)

namespace Batch

variable {choose : Resource → Scope → α → Endpoint} {trace : α → TraceId} {id : TraceId} {e : Endpoint}

/-- A choice that places an item of the trace at the endpoint gives a part of an endpoint items of the trace only if it is that one. -/
theorem eq_of_mem_partFor (h : ∀ resource scope item, trace item = id → choose resource scope item = e) {b : Batch α} {e' : Endpoint}
    {x : Resource × Scope × α} (hx : x ∈ (b.partFor choose e').items) (htrace : trace x.2.2 = id) : e' = e := by
  rw [items_partFor, List.mem_filter] at hx
  have hchosen : choose x.1 x.2.1 x.2.2 = e' := of_decide_eq_true hx.2
  rw [← hchosen, h x.1 x.2.1 x.2.2 htrace]

/-- The parts with items of a trace are the one of the endpoint that is chosen for the trace. -/
theorem filter_partsBy (h : ∀ resource scope item, trace item = id → choose resource scope item = e) {b : Batch α}
    (hsome : ∃ x ∈ b.items, trace x.2.2 = id) :
    (b.partsBy choose).filter (fun p => p.2.items.any (fun x => trace x.2.2 = id)) = [(e, b.partFor choose e)] := by
  obtain ⟨x, hx, htrace⟩ := hsome
  have hchosen : choose x.1 x.2.1 x.2.2 = e := h x.1 x.2.1 x.2.2 htrace
  have hmem : e ∈ b.choices choose := List.mem_map.2 ⟨x, hx, hchosen⟩
  have hany : ∀ e', (b.partFor choose e').items.any (fun y => trace y.2.2 = id) = decide (e' = e) := by
    intro e'
    rw [Bool.eq_iff_iff, List.any_eq_true, decide_eq_true_iff]
    constructor
    · rintro ⟨y, hy, hytrace⟩
      exact eq_of_mem_partFor h hy (of_decide_eq_true hytrace)
    · rintro rfl
      refine ⟨x, ?_, decide_eq_true htrace⟩
      rw [items_partFor, List.mem_filter]
      exact ⟨hx, decide_eq_true hchosen⟩
  rw [partsBy, List.filter_map]
  simp only [Function.comp_def, hany]
  rw [filter_eraseDups, if_pos hmem]
  rfl

/-- A choice that places the items of a trace at an endpoint keeps them together. -/
theorem keepsTogether_partsBy (h : ∀ resource scope item, trace item = id → choose resource scope item = e) (b : Batch α) :
    KeepsTogether trace id e b (b.partsBy choose) where
  placed := by
    intro p hp x hx htrace
    rw [(mem_partsBy.1 hp).2] at hx
    exact eq_of_mem_partFor h hx htrace
  whole := by
    intro hsome
    refine ⟨_, filter_partsBy h hsome, ?_⟩
    rw [items_partFor, List.filter_filter]
    refine List.filter_congr (fun x _ => ?_)
    rw [Bool.and_eq_left_iff_imp]
    intro htrace
    exact decide_eq_true (h x.1 x.2.1 x.2.2 (of_decide_eq_true htrace))

end Batch

/-- The key that the items of a trace are routed by: the empty key stands in for the absent trace. -/
def TraceId.keyOrEmpty (id : TraceId) : RoutingKey := id.routingKey.getD RoutingKey.empty

/-- On the ring of a list with members, an adapter that routes by traces keeps a trace together at the owner of its key. -/
theorem Adapter.keepsTogether (hash : ByteArray → UInt64) (a : Adapter α) (trace : α → TraceId)
    (ha : ∀ resource item, a.key resource item = (trace item).routingKey) {es : List Endpoint} (hes : es ≠ []) (count : Nat)
    (b : Batch α) : ∃ parts, a.regroupOnWith hash (Ring.buildWith hash es count) b = some parts ∧
      ∀ id e, (Ring.buildWith hash es count).ownerWith hash id.keyOrEmpty = some e → KeepsTogether trace id e b parts := by
  refine ⟨_, a.regroupOnWith_eq_partsBy hash hes count b, fun id e howner => Batch.keepsTogether_partsBy ?_ b⟩
  intro resource scope item htrace
  have hkey : a.keyOrEmpty resource item = id.keyOrEmpty := by rw [keyOrEmpty, ha, htrace, TraceId.keyOrEmpty]
  rw [ownerWith, hkey, howner]
  rfl

/-- Where a ring places traces, and that it keeps their items together. -/
structure Ring.Places (hash : ByteArray → UInt64) (ring : Ring) (place : TraceId → Endpoint) : Prop where
  owner : ∀ id, ring.ownerWith hash id.keyOrEmpty = some (place id)
  absent : ring.ownerWith hash RoutingKey.empty = some (place TraceId.empty)
  /-- Every batch of spans that go by their traces is cut, and each trace is kept together at its place. -/
  spans : ∀ batch, ∃ parts, (Adapter.traces .traceId).regroupOnWith hash ring batch = some parts ∧
    ∀ id, KeepsTogether Span.traceId id (place id) batch parts
  /-- So is every batch of log records, at the same places. -/
  records : ∀ batch, ∃ parts, Adapter.logs.regroupOnWith hash ring batch = some parts ∧
    ∀ id, KeepsTogether LogRecord.traceId id (place id) batch parts

/-- On every ring with members each trace has one place, where its spans and log records are kept together, whatever batches, resources
and scopes they come in. -/
theorem colocated (hash : ByteArray → UInt64) {es : List Endpoint} (hes : es ≠ []) (count : Nat) :
    ∃ place : TraceId → Endpoint, (Ring.buildWith hash es count).Places hash place := by
  have howned := fun id : TraceId => Ring.exists_ownerWith_buildWith hash hes count id.keyOrEmpty
  choose place hplace using howned
  refine ⟨place, hplace, hplace TraceId.empty, fun batch => ?_, fun batch => ?_⟩
  · obtain ⟨parts, hparts, htogether⟩ :=
      Adapter.keepsTogether hash (Adapter.traces .traceId) Span.traceId (fun _ _ => rfl) hes count batch
    exact ⟨parts, hparts, fun id => htogether id (place id) (hplace id)⟩
  · obtain ⟨parts, hparts, htogether⟩ :=
      Adapter.keepsTogether hash Adapter.logs LogRecord.traceId (fun _ _ => rfl) hes count batch
    exact ⟨parts, hparts, fun id => htogether id (place id) (hplace id)⟩

/-- The trace of sixteen equal bytes. -/
def TraceId.ofByte (byte : UInt8) : TraceId := ⟨Vector.replicate 16 byte⟩

/-- A span of a trace. -/
def spanIn (byte : UInt8) : Span := Span.named (TraceId.ofByte byte) "GET /"

/-- A log record of a trace. -/
def recordIn (byte : UInt8) : LogRecord := { LogRecord.ofBody (.text "done") with traceId := TraceId.ofByte byte }

/-- Two spans and two records of one trace go to its place from the resources that they are in, and what has no trace goes elsewhere. -/
theorem colocated_two : ([⟨"a"⟩, ⟨"b"⟩] : List Endpoint) ≠ [] ∧
    (Adapter.traces .traceId).regroupOnWith firstByte (Ring.buildWith firstByte [⟨"a"⟩, ⟨"b"⟩] 1)
        (Batch.ofGroups [[spanIn 98, spanIn 0], [spanIn 98]]) =
      some [(⟨"b"⟩, Batch.ofGroups [[spanIn 98], [spanIn 98]]), (⟨"a"⟩, Batch.ofGroups [[spanIn 0]])] ∧
    Adapter.logs.regroupOnWith firstByte (Ring.buildWith firstByte [⟨"a"⟩, ⟨"b"⟩] 1)
        (Batch.ofGroups [[recordIn 0], [recordIn 98, recordIn 98]]) =
      some [(⟨"a"⟩, Batch.ofGroups [[recordIn 0]]), (⟨"b"⟩, Batch.ofGroups [[recordIn 98, recordIn 98]])] ∧
    ∃ place : TraceId → Endpoint, (Ring.buildWith firstByte [⟨"a"⟩, ⟨"b"⟩] 1).Places firstByte place := by
  have hmembers : ([⟨"a"⟩, ⟨"b"⟩] : List Endpoint) ≠ [] := by decide
  refine ⟨hmembers, ?_, ?_, colocated firstByte hmembers 1⟩
  · rw [Ring.buildWith_firstByte]
    rfl
  · rw [Ring.buildWith_firstByte]
    rfl

end TelemetryRouter
