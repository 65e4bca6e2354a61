import TelemetryRouter.Config.Codec
import TelemetryRouter.Proofs.Decoding
import TelemetryRouter.Proofs.DurationText

/-!
# Configurations are read back from JSON

Every section is read back from its JSON form (`RouterConfig.ofJson?_toJson`). A section with options is a record from which those that
are not set are left out (`Json.Fields.get?_present_cons`), and what is left out is read as not set (`elim_decodeOption`). A field that
has a default is always written, so no default takes the place of a value.
-/

namespace TelemetryRouter

@[simp] theorem decodeDuration_encodeDuration (d : Duration) : decodeDuration (encodeDuration d) = some d := by
  show (Duration.read d.print).toOption = some d
  rw [d.read_print]
  rfl

/-! ## Options -/

/-- The fields of a record, those that are not set left out. -/
def Json.Fields.present (fields : List (String × Option Json)) : Fields :=
  .named (fields.filterMap (fun f => f.2.map (fun v => (f.1, v))))

@[simp] theorem fields?_presentFields (count : Nat) (fields : List (String × Option Json)) :
    (presentFields fields).fields? count = some (.present fields) := rfl

@[simp] theorem Json.Fields.get?_present_cons (f : String × Option Json) (fields : List (String × Option Json)) (name : String)
    (place : Nat) : (present (f :: fields)).get? name place =
      if f.1 = name then f.2.or ((present fields).get? name place) else (present fields).get? name place := by
  obtain ⟨key, value⟩ := f
  cases value with
  | none => simp [present]
  | some v => simp [present]

@[simp] theorem Json.Fields.get?_present_nil (name : String) (place : Nat) : (present []).get? name place = none := rfl

theorem Json.Fields.orElse_eq_elim {α : Type} (fs : Fields) (name : String) (place : Nat) (default : α) (decode : Json → Option α) :
    fs.orElse name place default decode = (fs.get? name place).elim (some default) decode := by
  rw [orElse]
  cases fs.get? name place <;> rfl

/-- An option that is left out when it is not set is read back, where values are and none is written as null. -/
theorem elim_decodeOption {α : Type} {encode : α → Json} {decode : Json → Option α} (h : ∀ x, decode (encode x) = some x)
    (hnull : ∀ x, encode x ≠ .null) (o : Option α) : (o.map encode).elim (some none) (decodeOption decode) = some o := by
  cases o with
  | none => rfl
  | some x =>
    rw [Option.map_some, Option.elim_some, decodeOption.eq_def]
    split
    · rename_i heq
      exact absurd heq (hnull x)
    · rw [h, Option.map_some]

/-! ## Sections -/

@[simp] theorem StaticDiscovery.ofJson?_toJson (s : StaticDiscovery) : ofJson? s.toJson = some s := by
  have hnames : Json.listOf? Json.text? (.list (s.hostnames.map Json.text)) = some s.hostnames :=
    Json.listOf?_encodeList Json.text?_text s.hostnames
  simp [ofJson?, toJson, Json.Fields.need, hnames]

@[simp] theorem DnsDiscovery.ofJson?_toJson (d : DnsDiscovery) : ofJson? d.toJson = some d := by
  have hport := elim_decodeOption Json.uint16?_toNat (fun _ h => nomatch h) d.port
  simp [ofJson?, toJson, Json.Fields.need, Json.Fields.orElse_eq_elim, hport]

/-- The section of a cluster is read back, with its namespace and its path or without. -/
@[simp] theorem ClusterDiscovery.ofJson?_toJson (c : ClusterDiscovery) : ofJson? c.toJson = some c := by
  have hports : Json.listOf? Json.uint16? (.list (c.ports.map (fun p => .int p.toNat))) = some c.ports :=
    Json.listOf?_encodeList Json.uint16?_toNat c.ports
  have hoption := elim_decodeOption Json.text?_text (fun _ h => nomatch h)
  simp [ofJson?, toJson, Json.Fields.need, Json.Fields.orElse_eq_elim, hports, hoption]

/-- The ways of discovery are read back, those that are set and those that are not. -/
@[simp] theorem DiscoveryConfig.ofJson?_toJson (d : DiscoveryConfig) : ofJson? d.toJson = some d := by
  have hfixed := elim_decodeOption StaticDiscovery.ofJson?_toJson (fun _ h => nomatch h) d.fixed
  have hdns := elim_decodeOption DnsDiscovery.ofJson?_toJson (fun _ h => nomatch h) d.dns
  have hcluster := elim_decodeOption ClusterDiscovery.ofJson?_toJson (fun _ h => nomatch h) d.cluster
  simp [ofJson?, toJson, Json.Fields.orElse_eq_elim, hfixed, hdns, hcluster]

@[simp] theorem TraceRouting.ofName?_name (r : TraceRouting) : ofName? r.name = some r := by
  cases r <;> rfl

@[simp] theorem MetricRouting.ofName?_name (r : MetricRouting) : ofName? r.name = some r := by
  cases r <;> rfl

@[simp] theorem RoutingConfig.ofJson?_toJson (r : RoutingConfig) : ofJson? r.toJson = some r := by
  simp [ofJson?, toJson, Json.Fields.orElse_eq_elim, Json.choice?]

@[simp] theorem RingConfig.ofJson?_toJson (r : RingConfig) : ofJson? r.toJson = some r := by
  simp [ofJson?, toJson, Json.Fields.orElse_eq_elim]

@[simp] theorem PoolConfig.ofJson?_toJson (p : PoolConfig) : ofJson? p.toJson = some p := by
  simp [ofJson?, toJson, Json.Fields.orElse_eq_elim]

@[simp] theorem ProtocolConfig.ofJson?_toJson (p : ProtocolConfig) : ofJson? p.toJson = some p := by
  have htimeout := elim_decodeOption decodeDuration_encodeDuration (fun _ h => nomatch h) p.timeout
  simp [ofJson?, toJson, Json.Fields.orElse_eq_elim, htimeout]

@[simp] theorem LoggingConfig.ofJson?_toJson (l : LoggingConfig) : ofJson? l.toJson = some l := by
  simp [ofJson?, toJson, Json.Fields.orElse_eq_elim]

theorem RouterConfig.ofJson?_toJson (c : RouterConfig) : ofJson? c.toJson = some c := by
  simp [ofJson?, toJson, Json.Fields.orElse_eq_elim]

/-- Every duration is read back from its text, and every configuration from its JSON form: what it sets with the value that it sets, and
what it does not set as not set. -/
theorem configuration_reads_back :
    (∀ d : Duration, Duration.read d.print = .ok d) ∧ ∀ c : RouterConfig, RouterConfig.ofJson? c.toJson = some c :=
  ⟨Duration.read_print, RouterConfig.ofJson?_toJson⟩

end TelemetryRouter
