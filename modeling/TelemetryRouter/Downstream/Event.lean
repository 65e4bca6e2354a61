/-!
# What happens to exporters

Every call of an exporter and of its maker leaves events in a log, from which the history of each exporter can be read. Plain
exporters do nothing when they are started and stopped, so these calls of theirs are not shown.
-/

namespace TelemetryRouter

/-- The number of an exporter, in the order of making. -/
abbrev ExporterId : Type := Nat

/-- One thing that happens to an exporter. -/
inductive Occurrence where
  | creating
  | createFailed
  | created
  | starting
  | started
  | startFailed
  | exporting (items : Nat)
  | exported
  | exportFailed
  | exportAbandoned
  | exportRefused
  | stopping (inProgress : Nat)
  | stopped
  | stopFailed
  deriving DecidableEq, Repr

/-- An event: when, at which address, to which exporter once there is one, whether that is a plain one, and what. -/
structure Event where
  time : Nat
  address : String
  exporter : Option ExporterId
  plain : Bool
  what : Occurrence
  deriving DecidableEq, Repr

/-- The line that shows an event, if it is shown. -/
def Event.text? (e : Event) : Option String :=
  match e.what with
  | .creating => some "create"
  | .createFailed => some "create_failed"
  | .created => none
  | .starting => if e.plain then none else some "start"
  | .started => if e.plain then none else some "started"
  | .startFailed => if e.plain then none else some "start_failed"
  | .exporting n => some ((if e.plain then "plain_export " else "export ") ++ toString n)
  | .exported => if e.plain then none else some "exported"
  | .exportFailed => some "export_failed"
  | .exportAbandoned => if e.plain then none else some "export_abandoned"
  | .exportRefused => some "export_after_shutdown"
  | .stopping n => if e.plain then none else some ("shutdown in_progress=" ++ toString n)
  | .stopped => if e.plain then none else some "stopped"
  | .stopFailed => if e.plain then none else some "shutdown_failed"

end TelemetryRouter
