import TelemetryRouter.Error
import TelemetryRouter.RoutingKey

/-!
# The consistent hash ring

Every endpoint takes several places on a ring of 64-bit positions, one for each label `address:index`. A key is hashed into the
same ring and belongs to the first place at or after its hash, the ring closing behind the highest position. A change of the
fleet therefore moves only keys that lie between a place that came or went and the place before it.

The hash is a parameter of the construction; `Ring.build` and `Ring.owner` fix it to the first eight bytes of the SHA-256 digest.
-/

namespace TelemetryRouter

/-- A ring: the normal form of its endpoints, the number of labels of each, and the occupied positions in ascending order. -/
structure Ring where
  endpoints : List Endpoint
  virtualNodes : Nat
  positions : List (UInt64 × Endpoint)

namespace Ring

/-- The number of labels of an endpoint when nothing else is asked for. -/
def defaultVirtualNodes : Nat := 150

/-- The label of one place of an endpoint. -/
def label (e : Endpoint) (i : Nat) : String := e.address ++ ":" ++ toString i

/-- The places that the labels of a list of endpoints claim, endpoint by endpoint and index by index. -/
def claims (hash : ByteArray → UInt64) (endpoints : List Endpoint) (virtualNodes : Nat) : List (UInt64 × Endpoint) :=
  endpoints.flatMap (fun e => (List.range virtualNodes).map (fun i => (hash (label e i).toUTF8, e)))

/-- Keeps the first of neighbours that claim one position. -/
def settle : List (UInt64 × Endpoint) → List (UInt64 × Endpoint)
  | [] => []
  | [p] => [p]
  | p :: q :: rest => if p.1 = q.1 then settle (p :: rest) else p :: settle (q :: rest)
termination_by ps => ps.length

/-- The ring of a list of endpoints under a hash. The list is normalised first and a count of zero is taken as one. Where labels
collide the endpoint that sorts first keeps the position, because sorting is stable. -/
def buildWith (hash : ByteArray → UInt64) (endpoints : List Endpoint) (virtualNodes : Nat) : Ring :=
  let members := Endpoint.normalize endpoints
  let count := max virtualNodes 1
  ⟨members, count, settle ((claims hash members count).mergeSort (fun p q => p.1 ≤ q.1))⟩

/-- The owner of a position: the first place at or after it, else the lowest place. -/
def ownerAt (ring : Ring) (position : UInt64) : Option Endpoint :=
  match ring.positions.find? (fun p => position ≤ p.1) with
  | some p => some p.2
  | none => ring.positions.head?.map (·.2)

/-- The owner of a key under a hash; none only on the empty ring. -/
def ownerWith (hash : ByteArray → UInt64) (ring : Ring) (key : RoutingKey) : Option Endpoint :=
  ring.ownerAt (hash key.toByteArray)

/-- The ring of a list of endpoints. -/
def build (endpoints : List Endpoint) (virtualNodes : Nat) : Ring := buildWith Sha256.position endpoints virtualNodes

/-- The owner of a key. -/
def owner (ring : Ring) (key : RoutingKey) : Option Endpoint := ring.ownerWith Sha256.position key

/-- The owner of a key, or the error that there is none. -/
def locate (ring : Ring) (key : RoutingKey) : Except RouterError Endpoint :=
  match ring.owner key with
  | some e => .ok e
  | none => .error .noEndpoints

/-- Whether an endpoint is a member, by bisection of the sorted members between two bounds. -/
def bisect (members : Array Endpoint) (e : Endpoint) (lo hi : Nat) : Bool :=
  if lo < hi then
    let mid := (lo + hi) / 2
    match members[mid]? with
    | none => false
    | some m => if m = e then true else if m.le e then bisect members e (mid + 1) hi else bisect members e lo mid
  else false
termination_by hi - lo

/-- Whether an endpoint is a member. -/
def contains (ring : Ring) (e : Endpoint) : Bool := bisect ring.endpoints.toArray e 0 ring.endpoints.length

/-- Whether the ring has no member. -/
def isEmpty (ring : Ring) : Bool := ring.endpoints.isEmpty

/-- The number of members. -/
def size (ring : Ring) : Nat := ring.endpoints.length

/-- The number of occupied positions. -/
def positionCount (ring : Ring) : Nat := ring.positions.length

end Ring

end TelemetryRouter
