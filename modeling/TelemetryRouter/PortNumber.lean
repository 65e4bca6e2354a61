/-!
# Port numbers as text

A port is a number of sixteen bits, written in decimal digits with at most one plus sign before them and any number of leading
zeros. Reading goes from left to right and reports the first fault it meets.
-/

namespace TelemetryRouter

/-- Why a text is not a port number. -/
inductive PortFault where
  | empty
  | foreignCharacter
  | tooLarge
  deriving DecidableEq, Repr

/-- The sentence shown for a fault. -/
def PortFault.message : PortFault → String
  | .empty => "cannot parse integer from empty string"
  | .foreignCharacter => "invalid digit found in string"
  | .tooLarge => "number too large to fit in target type"

namespace PortNumber

/-- The value of a decimal digit. -/
def digit? (c : Char) : Option Nat := if '0' ≤ c ∧ c ≤ '9' then some (c.toNat - 48) else none

/-- Reads the digits that are left after the number read so far. -/
def readDigits (acc : Nat) : List Char → Except PortFault Nat
  | [] => .ok acc
  | c :: rest =>
    match digit? c with
    | none => .error .foreignCharacter
    | some d => if 10 * acc + d ≤ 65535 then readDigits (10 * acc + d) rest else .error .tooLarge

/-- Reads a port number from the characters of a text. -/
def readChars : List Char → Except PortFault Nat
  | [] => .error .empty
  | ['+'] => .error .foreignCharacter
  | '+' :: rest => readDigits 0 rest
  | cs => readDigits 0 cs

/-- Reads a port number. -/
def read (text : String) : Except PortFault UInt16 := (readChars text.toList).map UInt16.ofNat

/-- Whether the characters write a port number. -/
def isPort (cs : List Char) : Bool := match readChars cs with | .ok _ => true | .error _ => false

end PortNumber

end TelemetryRouter
