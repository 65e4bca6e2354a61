import TelemetryRouter.Endpoint
import TelemetryRouter.Text.Quoted

/-!
# Errors

Every operation that can fail reports one of these causes. Delivery errors are worth a retry; configuration and routing errors
give the same result until something outside changes.
-/

namespace TelemetryRouter

/-- Why an operation failed. -/
inductive RouterError where
  | configuration (message : String)
  | discovery (resolver message : String)
  | endpointStart (endpoint : Endpoint) (message : String)
  | noEndpoints
  | endpointNotReady (endpoint : Endpoint)
  | exportFailed (message : String)
  | timeout (milliseconds : UInt64)
  | cancelled
  | lifecycle (endpoint : Endpoint) (message : String)
  | io (message : String)
  | yaml (message : String)
  deriving DecidableEq, Repr

namespace RouterError

/-- The sentence shown for an error. -/
def message : RouterError → String
  | .configuration m => "Configuration error: " ++ m
  | .discovery r m => "Discovery error (" ++ r ++ "): " ++ m
  | .endpointStart e m => "Failed to start exporter for endpoint " ++ e.address ++ ": " ++ m
  | .noEndpoints => "No endpoints available for routing"
  | .endpointNotReady e => "Endpoint " ++ e.address ++ " is not ready"
  | .exportFailed m => "Export failed: " ++ m
  | .timeout ms => "Export timed out after " ++ toString ms.toNat ++ "ms"
  | .cancelled => "Dispatch cancelled"
  | .lifecycle e m => "Exporter lifecycle error (" ++ e.address ++ "): " ++ m
  | .io m => "I/O error: " ++ m
  | .yaml m => "YAML error: " ++ m

/-- The name of the kind of an error, for logs and metrics. -/
def kind : RouterError → String
  | .configuration _ => "configuration_error"
  | .discovery _ _ => "discovery_error"
  | .endpointStart _ _ => "endpoint_start_error"
  | .noEndpoints => "no_endpoints"
  | .endpointNotReady _ => "endpoint_not_ready"
  | .exportFailed _ => "export_error"
  | .timeout _ => "timeout"
  | .cancelled => "cancelled"
  | .lifecycle _ _ => "lifecycle_error"
  | .io _ => "io_error"
  | .yaml _ => "yaml_error"

/-- Whether the telemetry concerned may be sent again. -/
def isRetryable : RouterError → Bool
  | .endpointNotReady _ => true
  | .exportFailed _ => true
  | .timeout _ => true
  | .cancelled => true
  | .io _ => true
  | _ => false

/-- A constructor with named fields, as a description writes it. -/
def describeFields (name : String) (fields : List (String × String)) : String :=
  name ++ " \x7b " ++ String.intercalate ", " (fields.map (fun f => f.1 ++ ": " ++ f.2)) ++ " \x7d"

/-- An endpoint, as a description writes it. -/
def describeEndpoint (e : Endpoint) : String := "Endpoint(" ++ Quoted.quote e.address ++ ")"

/-- The description of an error, with its fields by name. -/
def describe : RouterError → String
  | .configuration m => describeFields "Configuration" [("message", Quoted.quote m)]
  | .discovery r m => describeFields "Discovery" [("resolver", Quoted.quote r), ("message", Quoted.quote m)]
  | .endpointStart e m => describeFields "EndpointStart" [("endpoint", describeEndpoint e), ("message", Quoted.quote m)]
  | .noEndpoints => "NoEndpoints"
  | .endpointNotReady e => describeFields "EndpointNotReady" [("endpoint", describeEndpoint e)]
  | .exportFailed m => describeFields "Export" [("message", Quoted.quote m)]
  | .timeout ms => describeFields "Timeout" [("timeout_ms", toString ms.toNat)]
  | .cancelled => "Cancelled"
  | .lifecycle e m => describeFields "Lifecycle" [("endpoint", describeEndpoint e), ("message", Quoted.quote m)]
  | .io m => describeFields "Io" [("message", Quoted.quote m)]
  | .yaml m => describeFields "Yaml" [("message", Quoted.quote m)]

end RouterError

end TelemetryRouter
