import TelemetryRouter.Config.Basic
import TelemetryRouter.Duration.Text
import TelemetryRouter.Error
import TelemetryRouter.PortNumber

/-!
# Overrides from the environment

Five variables override fields of a configuration, one after the other. The first invalid value ends the sequence with an error;
the overrides before it stay. A section for lookups is made when one of its variables is set and there is none.
-/

namespace TelemetryRouter

/-- The value of a variable, if it is set to text. -/
abbrev Environment : Type := String → Option String

/-- What can be read of variables that hold bytes: one that does not hold text counts as one that is not set. -/
def Environment.ofBytes (held : String → Option ByteArray) : Environment := fun name => (held name).bind String.fromUTF8?

namespace RouterConfig

/-- Changes the section for lookups, which is made from the defaults if it is missing. -/
def withDns (c : RouterConfig) (change : DnsDiscovery → DnsDiscovery) : RouterConfig :=
  { c with discovery := { c.discovery with dns := some (change (c.discovery.dns.getD .default)) } }

/-- The override of one variable: a change, or the reason why its value is invalid. -/
structure Override where
  variableName : String
  apply : String → RouterConfig → Except String RouterConfig

/-- The overrides in the order in which they are applied. -/
def overrides : List Override :=
  [⟨"LOADBALANCER_LOG_LEVEL", fun v c => .ok { c with logging := { c.logging with level := v } }⟩,
   ⟨"LOADBALANCER_LOG_FORMAT", fun v c => .ok { c with logging := { c.logging with format := v } }⟩,
   ⟨"LOADBALANCER_DNS_HOSTNAME", fun v c => .ok (c.withDns (fun d => { d with hostname := v }))⟩,
   ⟨"LOADBALANCER_DNS_PORT", fun v c =>
      match PortNumber.read v with
      | .ok p => .ok (c.withDns (fun d => { d with port := some p }))
      | .error e => .error e.message⟩,
   ⟨"LOADBALANCER_DNS_INTERVAL", fun v c =>
      match Duration.read v with
      | .ok i => .ok (c.withDns (fun d => { d with interval := i }))
      | .error e => .error e.message⟩]

/-- Applies overrides in order. The configuration reached is returned also when a value is invalid. -/
def applyOverrides (env : Environment) : List Override → RouterConfig → RouterConfig × Except RouterError Unit
  | [], c => (c, .ok ())
  | o :: rest, c =>
    match env o.variableName with
    | none => applyOverrides env rest c
    | some v =>
      match o.apply v c with
      | .ok c => applyOverrides env rest c
      | .error reason => (c, .error (.configuration ("Invalid " ++ o.variableName ++ ": " ++ reason)))

/-- Applies all overrides. -/
def applyEnvironment (env : Environment) (c : RouterConfig) : RouterConfig × Except RouterError Unit :=
  applyOverrides env overrides c

end RouterConfig

end TelemetryRouter
