import TelemetryRouter.Discovery.Platform
import TelemetryRouter.Error
import TelemetryRouter.Text.Blank

/-!
# Sources of endpoints

A source is asked again and again which endpoints there are. Its answers come from a script: each takes some time, or never
arrives, and is a list or an error. When the script has come to its end the last answer is given again.
-/

namespace TelemetryRouter

/-- One answer: the milliseconds it takes, whether it never arrives, and what it says. -/
structure SourceAnswer where
  delay : Nat
  hangs : Bool
  result : Except RouterError (List Endpoint)

namespace SourceAnswer

/-- An answer that arrives at once. -/
def immediate (result : Except RouterError (List Endpoint)) : SourceAnswer := ⟨0, false, result⟩

/-- The answer that there is no endpoint. -/
def nothing : SourceAnswer := immediate (.ok [])

end SourceAnswer

/-- The answers to come, and the one given last. -/
structure SourceScript where
  queue : List SourceAnswer
  last : Option SourceAnswer

namespace SourceScript

/-- A script of answers. -/
def ofList (answers : List SourceAnswer) : SourceScript := ⟨answers, none⟩

/-- The script with more answers at its end. -/
def append (s : SourceScript) (answers : List SourceAnswer) : SourceScript := { s with queue := s.queue ++ answers }

/-- The next answer, and the script after it. -/
def next (s : SourceScript) : SourceAnswer × SourceScript :=
  match s.queue with
  | a :: rest => (a, ⟨rest, some a⟩)
  | [] => (s.last.getD .nothing, s)

end SourceScript

/-- A source: its name, the line that each request leaves in the record of requests, whether its requests are counted, and its
script. -/
structure Source where
  name : String
  request : Option String
  counted : Bool
  script : SourceScript

namespace Source

/-- A source that lists endpoints itself. -/
def listing (name : String) (answers : List SourceAnswer) : Source := ⟨name, none, true, .ofList answers⟩

/-- The endpoints of looked up addresses. -/
def ofAddresses (port : Option UInt16) (addresses : List IpAddress) : List Endpoint :=
  addresses.map (fun a => a.endpoint port)

/-- The error of a lookup. -/
def lookupFailed (hostname reason : String) : RouterError := .discovery "dns" ("lookup of " ++ hostname ++ " failed: " ++ reason)

/-- A source that looks up a hostname, which leaves the hostname in the record. -/
def dns (hostname : String) (answers : List SourceAnswer) : Except RouterError Source :=
  if Blank.isBlankText hostname then .error (.configuration "dns resolver requires a hostname")
  else .ok ⟨"dns", some hostname, true, .ofList answers⟩

/-- What a reply to the lookup of a hostname means. -/
def hostAnswer (hostname : String) (port : Option UInt16) (reply : Reply (List IpAddress)) : SourceAnswer :=
  ⟨reply.delay, reply.hangs, match reply.result with
    | .ok addresses => .ok (ofAddresses port addresses)
    | .error reason => .error (lookupFailed hostname reason)⟩

/-- The source without a record of its requests. -/
def unrecorded (s : Source) : Source := { s with request := none, counted := false }

/-- The source that looks up a hostname on a platform. -/
def ofHost (platform : Platform) (hostname : String) (port : Option UInt16) : Except RouterError Source :=
  (dns hostname ((platform.lookup hostname).map (hostAnswer hostname port))).map unrecorded

/-- The error of a query for the endpoints of a service. -/
def queryFailed (service space reason : String) : RouterError :=
  .discovery "k8s" ("failed to read endpoints " ++ space ++ "/" ++ service ++ ": " ++ reason)

/-- The line of a query for the endpoints of a service. -/
def queryLine (service space : String) : String := "GET /api/v1/namespaces/" ++ space ++ "/endpoints/" ++ service

/-- What a query for the endpoints of a service gives: the endpoints of the object, none for a service that does not exist, and an error
if the query failed. -/
def ofObject (service space : String) (ports : List UInt16) : Except String (Option EndpointsObject) →
    Except RouterError (List Endpoint)
  | .ok (some o) => .ok (o.endpoints ports)
  | .ok none => .ok []
  | .error reason => .error (queryFailed service space reason)

/-- What the status and the object of a reply mean: a service that does not exist is no error, but any other status is, and so is a reply
without an object. -/
def ofReply (service space : String) (ports : List UInt16) (status : Nat) (object : Option EndpointsObject) :
    Except RouterError (List Endpoint) :=
  ofObject service space ports
    (if status = 404 then .ok none
    else if status = 200 then
      match object with
      | some o => .ok (some o)
      | none => .error ""
    else .error "")

/-- A source that asks a cluster for the endpoints of a service. -/
def cluster (service space : String) (answers : List SourceAnswer) : Source :=
  ⟨"k8s", some (queryLine service space), true, .ofList answers⟩

/-- The source that asks a cluster by its client. -/
def ofClient (client : ClusterClient) (service space : String) (ports : List UInt16) : Source :=
  (cluster service space ((client service space).map (fun reply =>
    ⟨reply.delay, reply.hangs, ofObject service space ports reply.result⟩))).unrecorded

end Source

end TelemetryRouter
