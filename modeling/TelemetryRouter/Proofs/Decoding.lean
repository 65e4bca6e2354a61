import TelemetryRouter.Telemetry.Codec

/-!
# Reading what was written

Words of every width, bytes, lists and the fields of a record are read back from the JSON values that they are written as. A list is
read back exactly when each of its items is (`Json.listOf?_encodeList_eq_some_iff`), which carries such facts through the nesting of
groups.
-/

namespace TelemetryRouter

namespace Json

/-! ## Numbers -/

theorem nat?_natCast {limit n : Nat} (h : n ≤ limit) : (Json.int n).nat? limit = some n := by
  have hrange : (0 : Int) ≤ n ∧ (n : Int) ≤ limit := ⟨Int.natCast_nonneg n, Int.ofNat_le.2 h⟩
  rw [nat?, if_pos hrange, Int.toNat_natCast]

@[simp] theorem uint8?_toNat (n : UInt8) : (Json.int n.toNat).uint8? = some n := by
  rw [uint8?, nat?_natCast (Nat.le_of_lt_succ n.toNat_lt), Option.map_some, UInt8.ofNat_toNat]

@[simp] theorem uint16?_toNat (n : UInt16) : (Json.int n.toNat).uint16? = some n := by
  rw [uint16?, nat?_natCast (Nat.le_of_lt_succ n.toNat_lt), Option.map_some, UInt16.ofNat_toNat]

@[simp] theorem uint32?_toNat (n : UInt32) : (Json.int n.toNat).uint32? = some n := by
  rw [uint32?, nat?_natCast (Nat.le_of_lt_succ n.toNat_lt), Option.map_some, UInt32.ofNat_toNat]

@[simp] theorem uint64?_toNat (n : UInt64) : (Json.int n.toNat).uint64? = some n := by
  rw [uint64?, nat?_natCast (Nat.le_of_lt_succ n.toNat_lt), Option.map_some, UInt64.ofNat_toNat]

@[simp] theorem int64?_toInt (n : Int64) : (Json.int n.toInt).int64? = some n := by
  have hrange : -9223372036854775808 ≤ n.toInt ∧ n.toInt ≤ 9223372036854775807 :=
    ⟨n.le_toInt, Int.le_of_lt_add_one n.toInt_lt⟩
  rw [int64?, if_pos hrange, Int64.ofInt_toInt]

@[simp] theorem bool?_bool (b : Bool) : (Json.bool b).bool? = some b := rfl

@[simp] theorem text?_text (s : String) : (Json.text s).text? = some s := rfl

/-- Where a double is read and null is not, a double is read back exactly when it is finite: null stands for the others. -/
theorem ofFloat_eq_some_iff {β : Type} (decode : Json → Option β) {x : Float} {v : β} (hdouble : decode (.double x) = some v)
    (hnull : decode .null = none) : decode (ofFloat x) = some v ↔ x.isFinite = true := by
  rw [ofFloat]
  split
  · rename_i h
    exact iff_of_true hdouble h
  · rename_i h
    rw [hnull]
    exact iff_of_false (fun hnone => nomatch hnone) h

/-! ## Lists -/

/-- A list is read back exactly when each of its items is. -/
theorem listOf?_encodeList_eq_some_iff {α : Type} {encode : α → Json} {decode : Json → Option α} {xs : List α} :
    listOf? decode (encodeList encode xs) = some xs ↔ ∀ x ∈ xs, decode (encode x) = some x := by
  show (xs.map encode).mapM decode = some xs ↔ _
  induction xs with
  | nil => simp
  | cons x xs ih =>
    rw [List.map_cons, List.mapM_cons, List.forall_mem_cons, ← ih]
    simp [Option.bind_eq_some_iff]

theorem listOf?_encodeList {α : Type} {encode : α → Json} {decode : Json → Option α} (h : ∀ x, decode (encode x) = some x)
    (xs : List α) : listOf? decode (encodeList encode xs) = some xs :=
  listOf?_encodeList_eq_some_iff.2 (fun x _ => h x)

/-! ## Fields -/

@[simp] theorem fields?_record (count : Nat) (fields : List (String × Json)) :
    (Json.record fields).fields? count = some (.named fields) := rfl

@[simp] theorem Fields.get?_named_cons (f : String × Json) (fields : List (String × Json)) (name : String) (place : Nat) :
    (Fields.named (f :: fields)).get? name place = if f.1 = name then some f.2 else (Fields.named fields).get? name place := by
  by_cases h : f.1 = name
  · simp [get?, h]
  · simp [get?, h]

end Json

/-! ## Bytes -/

theorem decodeBytes_encodeBytes {n : Nat} (bytes : Vector UInt8 n) : decodeBytes n (encodeBytes bytes.toList) = some bytes := by
  have harray : bytes.toList.toArray = bytes.toArray := Array.toArray_toList
  rw [decodeBytes, encodeBytes, Json.listOf?_encodeList Json.uint8?_toNat, Option.bind_some, bytesOfList?]
  simp [harray]

@[simp] theorem TraceId.ofJson?_toJson (id : TraceId) : ofJson? id.toJson = some id := by
  rw [ofJson?, toJson, decodeBytes_encodeBytes, Option.map_some]

@[simp] theorem SpanId.ofJson?_toJson (id : SpanId) : ofJson? id.toJson = some id := by
  rw [ofJson?, toJson, decodeBytes_encodeBytes, Option.map_some]

end TelemetryRouter
