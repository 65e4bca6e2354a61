import TelemetryRouter.Config.Environment

/-!
# What the environment overrides

Overrides are applied one after the other up to the first invalid value (`Halts`), so what an environment changes can be told without
them: its amendment gives new values to the fields that it names, but none to what comes after an invalid one, and its verdict is the
first fault. `applyEnvironment_eq` says that a configuration is amended and judged in this way. Whatever is not named stays, and an
amended configuration is amended already (`overridden`).
-/

namespace TelemetryRouter

/-! ## Amendments -/

/-- Values for some of the fields that can be overridden. -/
structure Amendment where
  level : Option String
  format : Option String
  hostname : Option String
  port : Option UInt16
  interval : Option Duration

namespace Amendment

/-- Whether there is a value for a field of the section for lookups. -/
def concernsDns (a : Amendment) : Bool := a.hostname.isSome || a.port.isSome || a.interval.isSome

/-- A section for lookups with the values that there are. -/
def dns (a : Amendment) (d : DnsDiscovery) : DnsDiscovery where
  hostname := a.hostname.getD d.hostname
  port := a.port.or d.port
  interval := a.interval.getD d.interval
  timeout := d.timeout

/-- A section for the log with the values that there are. -/
def logging (a : Amendment) (l : LoggingConfig) : LoggingConfig := ⟨a.level.getD l.level, a.format.getD l.format⟩

/-- The values of an amendment and of a later one, which takes precedence. -/
def followedBy (a b : Amendment) : Amendment where
  level := b.level.or a.level
  format := b.format.or a.format
  hostname := b.hostname.or a.hostname
  port := b.port.or a.port
  interval := b.interval.or a.interval

theorem followedBy_self (a : Amendment) : a.followedBy a = a := by
  unfold followedBy
  simp only [Option.or_self]

/-- One of two amendments concerns the section for lookups if both together do. -/
theorem concernsDns_followedBy (a b : Amendment) : (a.followedBy b).concernsDns = (a.concernsDns || b.concernsDns) := by
  unfold concernsDns followedBy
  simp only [Option.isSome_or]
  ac_rfl

/-- Without a value for it, the section for lookups stays as it is. -/
theorem dns_of_not_concernsDns {a : Amendment} (h : a.concernsDns = false) (d : DnsDiscovery) : a.dns d = d := by
  obtain ⟨_, _, hostname, port, interval⟩ := a
  simp only [concernsDns, Bool.or_eq_false_iff, Option.isSome_eq_false_iff, Option.isNone_iff_eq_none] at h
  obtain ⟨⟨rfl, rfl⟩, rfl⟩ := h
  rfl

theorem dns_dns (a b : Amendment) (d : DnsDiscovery) : b.dns (a.dns d) = (a.followedBy b).dns d := by
  unfold dns followedBy
  simp only [Option.or_assoc, Option.getD_or]

theorem logging_logging (a b : Amendment) (l : LoggingConfig) : b.logging (a.logging l) = (a.followedBy b).logging l := by
  unfold logging followedBy
  simp only [Option.getD_or]

end Amendment

namespace RouterConfig

/-- A configuration with the values that an amendment has. The section for lookups is made from the defaults if there is a value for it
and no section. -/
def amend (c : RouterConfig) (a : Amendment) : RouterConfig :=
  { c with
    logging := a.logging c.logging
    discovery := { c.discovery with dns := if a.concernsDns then some (a.dns (c.discovery.dns.getD .default)) else c.discovery.dns } }

theorem amend_amend (c : RouterConfig) (a b : Amendment) : (c.amend a).amend b = c.amend (a.followedBy b) := by
  simp only [amend, a.logging_logging, a.concernsDns_followedBy, ← a.dns_dns]
  cases ha : a.concernsDns <;> cases hb : b.concernsDns
  · rfl
  · simp [Amendment.dns_of_not_concernsDns ha]
  · simp [Amendment.dns_of_not_concernsDns hb]
  · simp

end RouterConfig

/-! ## What an environment asks for -/

namespace Environment

/-- The port for lookups that is set, or what is wrong with it. -/
def port? (env : Environment) : Option (Except PortFault UInt16) := (env "LOADBALANCER_DNS_PORT").map PortNumber.read

/-- The interval between lookups that is set, or what is wrong with it. -/
def interval? (env : Environment) : Option (Except Duration.Fault Duration) := (env "LOADBALANCER_DNS_INTERVAL").map Duration.read

/-- The values that are applied: all but an invalid one, and no interval after an invalid port. -/
def amendment (env : Environment) : Amendment where
  level := env "LOADBALANCER_LOG_LEVEL"
  format := env "LOADBALANCER_LOG_FORMAT"
  hostname := env "LOADBALANCER_DNS_HOSTNAME"
  port := match env.port? with
    | some (.ok p) => some p
    | _ => none
  interval := match env.port?, env.interval? with
    | some (.error _), _ => none
    | _, some (.ok i) => some i
    | _, _ => none

/-- The first fault, if there is one. -/
def verdict (env : Environment) : Except RouterError Unit :=
  match env.port?, env.interval? with
  | some (.error e), _ => .error (.configuration ("Invalid LOADBALANCER_DNS_PORT: " ++ e.message))
  | _, some (.error e) => .error (.configuration ("Invalid LOADBALANCER_DNS_INTERVAL: " ++ e.message))
  | _, _ => .ok ()

/-- A variable that does not hold text counts as one that is not set. -/
theorem ofBytes_eq_of_unreadable {held : String → Option ByteArray} {name : String} {bytes : ByteArray}
    (hset : held name = some bytes) (hbytes : String.fromUTF8? bytes = none) :
    ofBytes (fun n => if n = name then none else held n) = ofBytes held := by
  funext n
  unfold ofBytes
  by_cases hn : n = name
  · subst hn
    simp only [if_true, hset, Option.bind_none, Option.bind_some, hbytes]
  · simp only [if_neg hn]

end Environment

namespace RouterConfig

/-! ## Overrides one after the other -/

/-- Whether overrides end with an error: there is an invalid value, exactly the overrides before it have been applied, and the error is
about it. -/
def Halts (env : Environment) (os : List Override) (c c' : RouterConfig) (e : RouterError) : Prop :=
  ∃ before o after v reason, os = before ++ o :: after ∧ applyOverrides env before c = (c', .ok ()) ∧ env o.variableName = some v ∧
    o.apply v c' = .error reason ∧ e = .configuration ("Invalid " ++ o.variableName ++ ": " ++ reason)

/-- Overrides that end with an error after the first one has been applied end with it. -/
theorem Halts.cons {env : Environment} {o : Override} {os : List Override} {c d c' : RouterConfig} {e : RouterError}
    (h : Halts env os d c' e) (hfirst : ∀ more, applyOverrides env (o :: more) c = applyOverrides env more d) :
    Halts env (o :: os) c c' e := by
  obtain ⟨before, x, after, v, reason, rfl, happly, hrest⟩ := h
  exact ⟨o :: before, x, after, v, reason, rfl, (hfirst before).trans happly, hrest⟩

theorem halts_of_applyOverrides_eq_error {env : Environment} {os : List Override} {c c' : RouterConfig} {e : RouterError}
    (h : applyOverrides env os c = (c', .error e)) : Halts env os c c' e := by
  induction os generalizing c with
  | nil =>
    rw [applyOverrides] at h
    cases h
  | cons o os ih =>
    cases hv : env o.variableName with
    | none =>
      have hfirst : ∀ more, applyOverrides env (o :: more) c = applyOverrides env more c := fun more => by
        rw [applyOverrides, hv]
      exact (ih ((hfirst os).symm.trans h)).cons hfirst
    | some v =>
      cases happly : o.apply v c with
      | ok d =>
        have hfirst : ∀ more, applyOverrides env (o :: more) c = applyOverrides env more d := fun more => by
          rw [applyOverrides, hv]
          dsimp only
          rw [happly]
        exact (ih ((hfirst os).symm.trans h)).cons hfirst
      | error reason =>
        simp only [applyOverrides, hv, happly, Prod.mk.injEq, Except.error.injEq] at h
        obtain ⟨rfl, rfl⟩ := h
        exact ⟨[], o, os, v, reason, rfl, rfl, hv, happly, rfl⟩

/-- An override that cannot be invalid changes the configuration if its variable is set. -/
theorem applyOverrides_cons_of_valid (env : Environment) (name : String) (change : String → RouterConfig → RouterConfig)
    (more : List Override) (c : RouterConfig) :
    applyOverrides env (⟨name, fun v c => .ok (change v c)⟩ :: more) c =
      applyOverrides env more ((env name).elim c (fun v => change v c)) := by
  rw [applyOverrides]
  cases env name <;> rfl

/-- The overrides that cannot be invalid come first, and amend the configuration. -/
theorem applyEnvironment_eq_drop (env : Environment) (c : RouterConfig) : c.applyEnvironment env =
    applyOverrides env (overrides.drop 3)
      (c.amend ⟨env "LOADBALANCER_LOG_LEVEL", env "LOADBALANCER_LOG_FORMAT", env "LOADBALANCER_DNS_HOSTNAME", none, none⟩) := by
  rw [applyEnvironment, overrides, applyOverrides_cons_of_valid, applyOverrides_cons_of_valid, applyOverrides_cons_of_valid]
  congr 1
  cases env "LOADBALANCER_LOG_LEVEL" <;> cases env "LOADBALANCER_LOG_FORMAT" <;> cases env "LOADBALANCER_DNS_HOSTNAME" <;> rfl

theorem applyOverrides_port (env : Environment) (c : RouterConfig) : applyOverrides env (overrides.drop 3) c =
    match env.port? with
    | none => applyOverrides env (overrides.drop 4) c
    | some (.ok p) => applyOverrides env (overrides.drop 4) (c.amend ⟨none, none, none, some p, none⟩)
    | some (.error e) => (c, .error (.configuration ("Invalid LOADBALANCER_DNS_PORT: " ++ e.message))) := by
  rw [overrides, List.drop_succ_cons, List.drop_succ_cons, List.drop_succ_cons, List.drop_zero, applyOverrides, Environment.port?]
  cases env "LOADBALANCER_DNS_PORT" with
  | none => rfl
  | some v =>
    dsimp only [Option.map_some]
    cases PortNumber.read v <;> rfl

theorem applyOverrides_interval (env : Environment) (c : RouterConfig) : applyOverrides env (overrides.drop 4) c =
    match env.interval? with
    | none => (c, .ok ())
    | some (.ok i) => (c.amend ⟨none, none, none, none, some i⟩, .ok ())
    | some (.error e) => (c, .error (.configuration ("Invalid LOADBALANCER_DNS_INTERVAL: " ++ e.message))) := by
  rw [overrides, List.drop_succ_cons, List.drop_succ_cons, List.drop_succ_cons, List.drop_succ_cons, List.drop_zero, applyOverrides,
    Environment.interval?]
  cases env "LOADBALANCER_DNS_INTERVAL" with
  | none => rfl
  | some v =>
    dsimp only [Option.map_some]
    cases Duration.read v <;> rfl

/-- All overrides together amend a configuration, and end as the environment lets them. -/
theorem applyEnvironment_eq (env : Environment) (c : RouterConfig) : c.applyEnvironment env = (c.amend env.amendment, env.verdict) := by
  rw [applyEnvironment_eq_drop, applyOverrides_port]
  simp only [applyOverrides_interval, Environment.amendment, Environment.verdict]
  rcases env.port? with _ | _ | p <;> rcases env.interval? with _ | _ | i <;>
    simp only [amend_amend, Amendment.followedBy, Option.or_none, Option.none_or]

/-! ## What the overrides leave -/

/-- What the overrides of an environment make of a configuration, and how they end. -/
structure Overridden (env : Environment) (c : RouterConfig) (result : RouterConfig × Except RouterError Unit) : Prop where
  /-- The log has the level and the format that are set. -/
  logging : result.1.logging =
    ⟨(env "LOADBALANCER_LOG_LEVEL").getD c.logging.level, (env "LOADBALANCER_LOG_FORMAT").getD c.logging.format⟩
  /-- The section for lookups has the values that are applied. It is made from the defaults if there is none, but not without such a
  value. -/
  dns : result.1.discovery.dns =
    if env.amendment.concernsDns then some (env.amendment.dns (c.discovery.dns.getD .default)) else c.discovery.dns
  rest : result.1 = { c with logging := result.1.logging, discovery := { c.discovery with dns := result.1.discovery.dns } }
  outcome : result.2 = env.verdict
  /-- If they end with an error, exactly those before the invalid value have been applied. -/
  earlier : ∀ e, result.2 = .error e → Halts env overrides c result.1 e
  /-- Applying them again changes nothing and ends in the same way. -/
  again : result.1.applyEnvironment env = result

/-- Whatever the variables hold, the overrides change what they name and nothing else, up to the first fault, and settle with the first
application. A variable that does not hold text counts as one that is not set. -/
theorem overridden (held : String → Option ByteArray) (c : RouterConfig) :
    Overridden (.ofBytes held) c (c.applyEnvironment (.ofBytes held)) ∧
      ∀ name bytes, held name = some bytes → String.fromUTF8? bytes = none →
        c.applyEnvironment (.ofBytes (fun n => if n = name then none else held n)) = c.applyEnvironment (.ofBytes held) := by
  refine ⟨?_, fun name bytes hset hbytes => by rw [Environment.ofBytes_eq_of_unreadable hset hbytes]⟩
  generalize Environment.ofBytes held = env
  have heq := c.applyEnvironment_eq env
  refine ⟨by rw [heq]; rfl, by rw [heq]; rfl, by rw [heq]; rfl, by rw [heq], fun e he => ?_, ?_⟩
  · exact halts_of_applyOverrides_eq_error (Prod.ext rfl he)
  · rw [heq, applyEnvironment_eq, amend_amend, Amendment.followedBy_self]

end RouterConfig

end TelemetryRouter
