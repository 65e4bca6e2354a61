import TelemetryRouter.Decimal.Shortest

/-!
# Attributes

An attribute is a name with a value, and a value is a truth value, an integer, a double or a text. Values of different kinds
with the same text, such as the integer 1 and the text `1`, are told apart by a letter for the kind.
-/

namespace TelemetryRouter

/-- The value of an attribute. -/
inductive AttributeValue where
  | bool (b : Bool)
  | int (n : Int64)
  | double (x : Float)
  | text (s : String)
  deriving DecidableEq, Repr

namespace AttributeValue

/-- The letter for the kind of a value. -/
def tag : AttributeValue → Char
  | .bool _ => 'b'
  | .int _ => 'i'
  | .double _ => 'd'
  | .text _ => 's'

/-- The text of a value. -/
def display : AttributeValue → String
  | .bool b => if b then "true" else "false"
  | .int n => toString n.toInt
  | .double x => Decimal.ofFloat x
  | .text s => s

end AttributeValue

/-- A named value. -/
structure Attribute where
  key : String
  value : AttributeValue
  deriving DecidableEq, Repr

/-- The value of the first attribute of a name. -/
def Attribute.find? (attributes : List Attribute) (key : String) : Option AttributeValue :=
  (attributes.find? (fun a => a.key == key)).map (·.value)

end TelemetryRouter
