import TelemetryRouter.Endpoint
import TelemetryRouter.Json.Reader

/-!
# The endpoints object of a cluster service

The object lists the addresses behind a service in subsets, those that are ready and those that are not. Every ready address is
combined with every port asked for; an address that carries a port of its own keeps it.
-/

namespace TelemetryRouter

/-- A group of addresses of a service. Either list may be absent. -/
structure EndpointSubset where
  ready : Option (List String)
  notReady : Option (List String)
  deriving DecidableEq, Repr

/-- The addresses behind a service. -/
structure EndpointsObject where
  subsets : Option (List EndpointSubset)
  deriving DecidableEq, Repr

namespace EndpointsObject

/-- A field that may be absent or null. -/
def optionalField {α : Type} (v : Json) (name : String) (decode : Json → Option α) : Option (Option α) :=
  match v.field? name with
  | none => some none
  | some .null => some none
  | some x => (decode x).map some

/-- The address in a subset's list. -/
def addressOfJson? : Json → Option String
  | .record fields => do
    let ip ← optionalField (.record fields) "ip" Json.text?
    let _ ← optionalField (.record fields) "hostname" Json.text?
    let _ ← optionalField (.record fields) "nodeName" Json.text?
    pure (ip.getD "")
  | _ => none

/-- A subset from JSON. -/
def subsetOfJson? : Json → Option EndpointSubset
  | .record fields => do
    let ready ← optionalField (.record fields) "addresses" (Json.listOf? addressOfJson?)
    let notReady ← optionalField (.record fields) "notReadyAddresses" (Json.listOf? addressOfJson?)
    pure ⟨ready, notReady⟩
  | _ => none

/-- The object from JSON. A version or a kind that is named must be the right one. -/
def ofJson? : Json → Option EndpointsObject
  | .record fields => do
    let v := Json.record fields
    if (v.field? "apiVersion").any (fun x => x.text? != some "v1") then none
    else if (v.field? "kind").any (fun x => x.text? != some "Endpoints") then none
    else if (v.field? "metadata").any (fun x => match x with | .record _ => false | _ => true) then none
    else do
      let subsets ← optionalField v "subsets" (Json.listOf? subsetOfJson?)
      pure ⟨subsets⟩
  | _ => none

/-- Every ready address with every port, in the order of subsets, addresses and ports. -/
def endpoints (o : EndpointsObject) (ports : List UInt16) : List Endpoint :=
  (o.subsets.getD []).flatMap (fun s =>
    (s.ready.getD []).flatMap (fun ip => ports.map (fun port => (Endpoint.mk ip).withDefaultPort port)))

end EndpointsObject

end TelemetryRouter
