import TelemetryRouter.Digest.Sha256
import TelemetryRouter.Text.Hex

/-!
# Routing keys and trace identifiers

A routing key is the sixteen bytes by which the destination of a telemetry item is chosen. It is a trace identifier, or the
first half of the digest of another identity. Items without a key share the key of sixteen zero bytes; a trace identifier of
sixteen zero bytes means that there is none.
-/

namespace TelemetryRouter

/-- The correlation key of an item. -/
structure RoutingKey where
  bytes : Vector UInt8 16
  deriving DecidableEq, Repr

/-- The identifier of a trace. -/
structure TraceId where
  bytes : Vector UInt8 16
  deriving DecidableEq, Repr

/-- The identifier of a span within its trace. -/
structure SpanId where
  bytes : Vector UInt8 8
  deriving DecidableEq, Repr

/-- So many bytes from a list, if the list has exactly that length. -/
def bytesOfList? (n : Nat) (bytes : List UInt8) : Option (Vector UInt8 n) :=
  if h : bytes.toArray.size = n then some ⟨bytes.toArray, h⟩ else none

namespace RoutingKey

/-- The key of items that carry none. -/
def empty : RoutingKey := ⟨Vector.replicate 16 0⟩

/-- The key of an identity given as bytes. -/
def digest (identity : ByteArray) : RoutingKey := ⟨Vector.ofFn (fun i => (Sha256.digest identity).getD i.val 0)⟩

/-- The key of an identity given as text. -/
def ofText (identity : String) : RoutingKey := digest identity.toUTF8

/-- Whether this is the key of items that carry none. -/
def isEmpty (key : RoutingKey) : Bool := key == empty

/-- The text of a key. -/
def text (key : RoutingKey) : String := Hex.encode key.bytes.toList

/-- The bytes of a key as they are hashed. -/
def toByteArray (key : RoutingKey) : ByteArray := ⟨key.bytes.toArray⟩

end RoutingKey

namespace TraceId

/-- The absent identifier. -/
def empty : TraceId := ⟨Vector.replicate 16 0⟩

/-- Whether the identifier is absent. -/
def isEmpty (id : TraceId) : Bool := id == empty

/-- The routing key of a present identifier. -/
def routingKey (id : TraceId) : Option RoutingKey := if id.isEmpty then none else some ⟨id.bytes⟩

/-- The text of an identifier. -/
def text (id : TraceId) : String := Hex.encode id.bytes.toList

end TraceId

/-- The absent span identifier. -/
def SpanId.empty : SpanId := ⟨Vector.replicate 8 0⟩

end TelemetryRouter
