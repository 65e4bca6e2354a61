import TelemetryRouter.PortNumber

/-!
# Backend endpoints

An endpoint is the opaque address of one backend: two endpoints are the same backend exactly when their texts are equal. The
address may lack a port; `Endpoint.withDefaultPort` completes it. Lists of endpoints cross the components in their normal form,
sorted by bytes and without repetition, so that lists with the same members are equal.
-/

namespace TelemetryRouter

/-- The address of one backend. -/
structure Endpoint where
  address : String
  deriving DecidableEq, Repr, Inhabited

namespace Endpoint

/-- Splits at the last colon. -/
def splitLastColon : List Char → Option (List Char × List Char)
  | [] => none
  | c :: rest =>
    match splitLastColon rest with
    | some (host, port) => some (c :: host, port)
    | none => if c = ':' then some ([], rest) else none

/-- Whether a closing bracket stands right before a colon. -/
def closesBeforeColon : List Char → Bool
  | ']' :: ':' :: _ => true
  | _ :: rest => closesBeforeColon rest
  | [] => false

/-- Whether the characters of an address carry a port: a bracketed address does when a colon follows the bracket, any other when
the text after its only colon is a port number. The colons of a bare IPv6 address separate no port. -/
def charsHavePort : List Char → Bool
  | '[' :: rest => closesBeforeColon rest
  | cs =>
    match splitLastColon cs with
    | some (host, port) => !host.contains ':' && PortNumber.isPort port
    | none => false

/-- Whether the address carries a port. -/
def hasPort (e : Endpoint) : Bool := charsHavePort e.address.toList

/-- The endpoint with the port after it when it carries none; a bare IPv6 address is put between brackets first. -/
def withDefaultPort (e : Endpoint) (port : UInt16) : Endpoint :=
  if e.hasPort then e
  else
    let cs := e.address.toList
    let tail := ":" ++ toString port.toNat
    if cs.contains ':' && cs.head? != some '[' then ⟨"[" ++ e.address ++ "]" ++ tail⟩
    else ⟨e.address ++ tail⟩

/-- The order of addresses by their bytes, which is the order of their code points. -/
def le (a b : Endpoint) : Bool := !decide (b.address < a.address)

/-- Drops each element that equals the one before it. -/
def collapse : List Endpoint → List Endpoint
  | [] => []
  | [e] => [e]
  | a :: b :: rest => if a = b then collapse (b :: rest) else a :: collapse (b :: rest)

/-- The normal form of a list: sorted, each member once. -/
def normalize (endpoints : List Endpoint) : List Endpoint := collapse (endpoints.mergeSort le)

/-- The list in order, repetitions kept. -/
def sort (endpoints : List Endpoint) : List Endpoint := endpoints.mergeSort le

end Endpoint

end TelemetryRouter
