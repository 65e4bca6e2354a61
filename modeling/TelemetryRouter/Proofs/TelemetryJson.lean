import TelemetryRouter.Proofs.Decoding

/-!
# Telemetry is read back from JSON

What is lost in the JSON form of telemetry is the doubles that are not finite, and nothing else. Every kind of value is read back from
its form exactly when the doubles in it are finite (`Batch.ofJson?_toJson_eq_some_iff`), so a batch of any signal is
(`telemetry_reads_back`).
-/

namespace TelemetryRouter

/-! ## The doubles of telemetry -/

/-- Whether all doubles of a list are finite. -/
def AllFinite (xs : List Float) : Prop := ∀ x ∈ xs, x.isFinite = true

@[simp] theorem allFinite_nil : AllFinite [] := fun _ h => nomatch h

@[simp] theorem allFinite_cons (x : Float) (xs : List Float) : AllFinite (x :: xs) ↔ x.isFinite = true ∧ AllFinite xs :=
  List.forall_mem_cons

@[simp] theorem allFinite_append (xs ys : List Float) : AllFinite (xs ++ ys) ↔ AllFinite xs ∧ AllFinite ys :=
  List.forall_mem_append

@[simp] theorem allFinite_flatMap {β : Type} (f : β → List Float) (ys : List β) :
    AllFinite (ys.flatMap f) ↔ ∀ y ∈ ys, AllFinite (f y) := by
  simp only [AllFinite, List.mem_flatMap]
  exact ⟨fun h y hy x hx => h x ⟨y, hy, hx⟩, fun h x ⟨y, hy, hx⟩ => h y hy x hx⟩

/-- Where values are read back exactly when their doubles are finite, so are lists of them. -/
theorem Json.listOf?_encodeList_iff_allFinite {β : Type} {encode : β → Json} {decode : Json → Option β} {doubles : β → List Float}
    (h : ∀ y, decode (encode y) = some y ↔ AllFinite (doubles y)) (ys : List β) :
    listOf? decode (encodeList encode ys) = some ys ↔ AllFinite (ys.flatMap doubles) := by
  rw [listOf?_encodeList_eq_some_iff, allFinite_flatMap]
  simp only [h]

/-- The double of an attribute value, if it is one. -/
def AttributeValue.doubles : AttributeValue → List Float
  | .double x => [x]
  | _ => []

/-- The doubles of a list of attributes. -/
def Attribute.doublesOf (attributes : List Attribute) : List Float := attributes.flatMap (fun a => a.value.doubles)

section Groups

variable {α : Type} (item : α → List Float)

/-- The doubles of a scope group, given those of an item. -/
def ScopeGroup.doubles (sg : ScopeGroup α) : List Float := Attribute.doublesOf sg.scope.attributes ++ sg.items.flatMap item

/-- The doubles of a resource group. -/
def ResourceGroup.doubles (rg : ResourceGroup α) : List Float :=
  Attribute.doublesOf rg.resource.attributes ++ rg.scopeGroups.flatMap (ScopeGroup.doubles item)

/-- The doubles of a batch. -/
def Batch.doubles (b : Batch α) : List Float := b.resourceGroups.flatMap (ResourceGroup.doubles item)

end Groups

/-- The doubles of a span. -/
def Span.doubles (s : Span) : List Float := Attribute.doublesOf s.attributes

/-- The doubles of a log record. -/
def LogRecord.doubles (r : LogRecord) : List Float := r.body.toList.flatMap AttributeValue.doubles ++ Attribute.doublesOf r.attributes

/-- The double of a number, if it is one. -/
def NumberValue.doubles : NumberValue → List Float
  | .int _ => []
  | .double x => [x]

/-- The doubles of a measurement. -/
def NumberPoint.doubles (p : NumberPoint) : List Float := Attribute.doublesOf p.attributes ++ p.value.doubles

/-- The doubles of a distribution. -/
def HistogramPoint.doubles (p : HistogramPoint) : List Float := Attribute.doublesOf p.attributes ++ p.sum :: p.explicitBounds

/-- The doubles of the points of a metric. -/
def MetricData.doubles : MetricData → List Float
  | .gauge points => points.flatMap NumberPoint.doubles
  | .sum points _ => points.flatMap NumberPoint.doubles
  | .histogram points => points.flatMap HistogramPoint.doubles

/-- The doubles of a metric. -/
def Metric.doubles (m : Metric) : List Float := m.data.doubles

/-! ## Reading attributes -/

/-- A value is read back in its kind exactly when it is no double that is not finite. -/
@[simp] theorem AttributeValue.ofJson?_toJson_eq_some_iff (v : AttributeValue) :
    ofJson? v.toJson = some v ↔ AllFinite v.doubles := by
  cases v with
  | bool b => simp [toJson, ofJson?, doubles]
  | int n => simp [toJson, ofJson?, doubles]
  | text s => simp [toJson, ofJson?, doubles]
  | double x =>
    rw [toJson, Json.ofFloat_eq_some_iff ofJson? rfl rfl]
    simp [doubles]

@[simp] theorem Attribute.ofJson?_toJson_eq_some_iff (a : Attribute) : ofJson? a.toJson = some a ↔ AllFinite a.value.doubles := by
  rw [← AttributeValue.ofJson?_toJson_eq_some_iff]
  obtain ⟨key, value⟩ := a
  simp [toJson, ofJson?, Json.Fields.need, Option.bind_eq_some_iff]

@[simp] theorem decodeAttributes_eq_some_iff (attributes : List Attribute) :
    decodeAttributes (encodeList Attribute.toJson attributes) = some attributes ↔ AllFinite (Attribute.doublesOf attributes) := by
  rw [decodeAttributes, Attribute.doublesOf, Json.listOf?_encodeList_iff_allFinite Attribute.ofJson?_toJson_eq_some_iff]

/-! ## Reading groups -/

/-- A resource is read back exactly when the doubles of its attributes are finite. -/
@[simp] theorem Resource.ofJson?_toJson_eq_some_iff (r : Resource) :
    ofJson? r.toJson = some r ↔ AllFinite (Attribute.doublesOf r.attributes) := by
  rw [← decodeAttributes_eq_some_iff]
  obtain ⟨attributes, dropped⟩ := r
  simp [toJson, ofJson?, Json.Fields.orElse, Option.bind_eq_some_iff]

@[simp] theorem Scope.ofJson?_toJson_eq_some_iff (s : Scope) :
    ofJson? s.toJson = some s ↔ AllFinite (Attribute.doublesOf s.attributes) := by
  rw [← decodeAttributes_eq_some_iff]
  obtain ⟨name, version, attributes⟩ := s
  simp [toJson, ofJson?, Json.Fields.orElse, Option.bind_eq_some_iff]

section Groups

variable {α : Type} {encode : α → Json} {decode : Json → Option α} {item : α → List Float}

/-- Where items are read back exactly when their doubles are finite, so are scope groups. -/
theorem ScopeGroup.ofJson?_toJson_eq_some_iff (h : ∀ x, decode (encode x) = some x ↔ AllFinite (item x)) (sg : ScopeGroup α) :
    ofJson? decode (sg.toJson encode) = some sg ↔ AllFinite (sg.doubles item) := by
  rw [doubles, allFinite_append, ← Scope.ofJson?_toJson_eq_some_iff, ← Json.listOf?_encodeList_iff_allFinite h]
  obtain ⟨scope, schemaUrl, items⟩ := sg
  simp [toJson, ofJson?, Json.Fields.orElse, Json.Fields.need, Option.bind_eq_some_iff]

theorem ResourceGroup.ofJson?_toJson_eq_some_iff (h : ∀ x, decode (encode x) = some x ↔ AllFinite (item x)) (rg : ResourceGroup α) :
    ofJson? decode (rg.toJson encode) = some rg ↔ AllFinite (rg.doubles item) := by
  rw [doubles, allFinite_append, ← Resource.ofJson?_toJson_eq_some_iff,
    ← Json.listOf?_encodeList_iff_allFinite (ScopeGroup.ofJson?_toJson_eq_some_iff h)]
  obtain ⟨resource, schemaUrl, scopeGroups⟩ := rg
  simp [toJson, ofJson?, Json.Fields.orElse, Json.Fields.need, Option.bind_eq_some_iff]

theorem Batch.ofJson?_toJson_eq_some_iff (h : ∀ x, decode (encode x) = some x ↔ AllFinite (item x)) (b : Batch α) :
    ofJson? decode (b.toJson encode) = some b ↔ AllFinite (b.doubles item) := by
  rw [doubles, ← Json.listOf?_encodeList_iff_allFinite (ResourceGroup.ofJson?_toJson_eq_some_iff h)]
  obtain ⟨groups⟩ := b
  simp [toJson, ofJson?, Json.Fields.need, Option.bind_eq_some_iff]

end Groups

/-! ## Reading spans and log records -/

@[simp] theorem SpanKind.ofName?_name (k : SpanKind) : ofName? k.name = some k := by
  cases k <;> rfl

theorem Span.ofJson?_toJson_eq_some_iff (s : Span) : ofJson? s.toJson = some s ↔ AllFinite s.doubles := by
  rw [doubles, ← decodeAttributes_eq_some_iff]
  obtain ⟨traceId, spanId, parentSpanId, name, kind, startTime, endTime, attributes⟩ := s
  simp [toJson, ofJson?, Json.Fields.orElse, Json.Fields.need, Json.choice?, Option.bind_eq_some_iff]

/-- A body is read back, as present or absent, exactly when it is no double that is not finite. -/
theorem LogRecord.bodyOfJson?_bodyToJson_eq_some_iff (body : Option AttributeValue) :
    bodyOfJson? (bodyToJson body) = some body ↔ AllFinite (body.toList.flatMap AttributeValue.doubles) := by
  cases body with
  | none => exact iff_of_true rfl allFinite_nil
  | some v =>
    simp only [Option.toList_some, allFinite_flatMap, List.forall_mem_singleton, ← AttributeValue.ofJson?_toJson_eq_some_iff]
    rw [bodyToJson, bodyOfJson?.eq_def]
    split
    · rename_i hnull
      rw [hnull]
      exact iff_of_false (fun h => nomatch h) (fun h => nomatch h)
    · simp

theorem LogRecord.ofJson?_toJson_eq_some_iff (r : LogRecord) : ofJson? r.toJson = some r ↔ AllFinite r.doubles := by
  rw [doubles, allFinite_append, ← bodyOfJson?_bodyToJson_eq_some_iff, ← decodeAttributes_eq_some_iff]
  obtain ⟨time, severity, severityText, body, traceId, spanId, attributes⟩ := r
  simp [toJson, ofJson?, Json.Fields.orElse, Option.bind_eq_some_iff]

/-! ## Reading metrics -/

/-- A number is read back in its kind exactly when it is no double that is not finite. -/
@[simp] theorem NumberValue.ofJson?_toJson_eq_some_iff (v : NumberValue) : ofJson? v.toJson = some v ↔ AllFinite v.doubles := by
  cases v with
  | int n => simp [toJson, ofJson?, doubles]
  | double x =>
    rw [toJson, Json.ofFloat_eq_some_iff ofJson? rfl rfl]
    simp [doubles]

theorem NumberPoint.ofJson?_toJson_eq_some_iff (p : NumberPoint) : ofJson? p.toJson = some p ↔ AllFinite p.doubles := by
  rw [doubles, allFinite_append, ← NumberValue.ofJson?_toJson_eq_some_iff, ← decodeAttributes_eq_some_iff]
  obtain ⟨attributes, time, value⟩ := p
  simp [toJson, ofJson?, Json.Fields.orElse, Json.Fields.need, Option.bind_eq_some_iff]

theorem Json.listOf?_float?_eq_some_iff (xs : List Float) :
    listOf? float? (encodeList ofFloat xs) = some xs ↔ AllFinite xs := by
  rw [listOf?_encodeList_eq_some_iff]
  exact forall₂_congr (fun x _ => ofFloat_eq_some_iff float? rfl rfl)

/-- A distribution is read back exactly when its doubles are finite. -/
theorem HistogramPoint.ofJson?_toJson_eq_some_iff (p : HistogramPoint) : ofJson? p.toJson = some p ↔ AllFinite p.doubles := by
  have hfinite : p.sum.isFinite = true ↔ (Json.ofFloat p.sum).float? = some p.sum := (Json.ofFloat_eq_some_iff Json.float? rfl rfl).symm
  rw [doubles, allFinite_append, allFinite_cons, hfinite, ← decodeAttributes_eq_some_iff, ← Json.listOf?_float?_eq_some_iff]
  obtain ⟨attributes, time, count, sum, bucketCounts, explicitBounds⟩ := p
  have hcounts := Json.listOf?_encodeList Json.uint64?_toNat bucketCounts
  have hread : ofJson? (toJson ⟨attributes, time, count, sum, bucketCounts, explicitBounds⟩) =
      (decodeAttributes (encodeList Attribute.toJson attributes)).bind (fun attributes' =>
        (Json.ofFloat sum).float?.bind (fun sum' =>
          (Json.listOf? Json.float? (encodeList Json.ofFloat explicitBounds)).bind (fun bounds' =>
            some ⟨attributes', time, count, sum', bucketCounts, bounds'⟩))) := by
    simp [toJson, ofJson?, Json.Fields.orElse, Json.Fields.need, hcounts]
  rw [hread]
  constructor
  · intro h
    obtain ⟨_, hattributes, h⟩ := Option.bind_eq_some_iff.1 h
    obtain ⟨_, hsum, h⟩ := Option.bind_eq_some_iff.1 h
    obtain ⟨_, hbounds, h⟩ := Option.bind_eq_some_iff.1 h
    cases h
    exact ⟨hattributes, hsum, hbounds⟩
  · rintro ⟨hattributes, hsum, hbounds⟩
    rw [hattributes, Option.bind_some, hsum, Option.bind_some, hbounds, Option.bind_some]

/-- The points of a metric are read back, under their kind, exactly when their doubles are finite. -/
theorem MetricData.ofJson?_toJson_eq_some_iff (d : MetricData) : ofJson? d.toJson = some d ↔ AllFinite d.doubles := by
  cases d with
  | gauge points =>
    rw [doubles, ← Json.listOf?_encodeList_iff_allFinite NumberPoint.ofJson?_toJson_eq_some_iff]
    simp [toJson, ofJson?, kindOfJson?, Json.field?, Json.Fields.need, Option.bind_eq_some_iff]
  | sum points monotonic =>
    rw [doubles, ← Json.listOf?_encodeList_iff_allFinite NumberPoint.ofJson?_toJson_eq_some_iff]
    simp [toJson, ofJson?, kindOfJson?, Json.field?, Json.Fields.need, Option.bind_eq_some_iff]
  | histogram points =>
    rw [doubles, ← Json.listOf?_encodeList_iff_allFinite HistogramPoint.ofJson?_toJson_eq_some_iff]
    simp [toJson, ofJson?, kindOfJson?, Json.field?, Json.Fields.need, Option.bind_eq_some_iff]

theorem Metric.ofJson?_toJson_eq_some_iff (m : Metric) : ofJson? m.toJson = some m ↔ AllFinite m.doubles := by
  rw [doubles, ← MetricData.ofJson?_toJson_eq_some_iff]
  obtain ⟨name, description, unit, data⟩ := m
  simp [toJson, ofJson?, Json.Fields.orElse, Json.Fields.need, Option.bind_eq_some_iff]

/-- Every batch of spans, of log records and of metrics is read back from its JSON form exactly when its doubles are finite: with all
its groups and items in order, every value in its kind and every field as it was. -/
theorem telemetry_reads_back :
    (∀ b : Batch Span, Batch.ofJson? Span.ofJson? (b.toJson Span.toJson) = some b ↔ AllFinite (b.doubles Span.doubles)) ∧
      (∀ b : Batch LogRecord,
        Batch.ofJson? LogRecord.ofJson? (b.toJson LogRecord.toJson) = some b ↔ AllFinite (b.doubles LogRecord.doubles)) ∧
      ∀ b : Batch Metric, Batch.ofJson? Metric.ofJson? (b.toJson Metric.toJson) = some b ↔ AllFinite (b.doubles Metric.doubles) :=
  ⟨Batch.ofJson?_toJson_eq_some_iff Span.ofJson?_toJson_eq_some_iff,
    Batch.ofJson?_toJson_eq_some_iff LogRecord.ofJson?_toJson_eq_some_iff,
    Batch.ofJson?_toJson_eq_some_iff Metric.ofJson?_toJson_eq_some_iff⟩

end TelemetryRouter
