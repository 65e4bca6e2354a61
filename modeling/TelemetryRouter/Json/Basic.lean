import TelemetryRouter.Decimal.Shortest

/-!
# JSON values

The values of a JSON document, with integers and doubles kept apart as kinds of number: a literal without fraction and exponent
that fits sixty-four bits is an integer, any other number is a double. The printer writes a value on one line.
-/

namespace TelemetryRouter

/-- A JSON value. -/
inductive Json where
  | null
  | bool (b : Bool)
  | int (n : Int)
  | double (x : Float)
  | text (s : String)
  | list (items : List Json)
  | record (fields : List (String × Json))
  deriving Repr, Inhabited

namespace Json

/-- The character escapes of a string literal. -/
def escapeChar (c : Char) : String :=
  if c = '"' then "\\\""
  else if c = '\\' then "\\\\"
  else if c = '\n' then "\\n"
  else if c = '\r' then "\\r"
  else if c = '\t' then "\\t"
  else if c.toNat < 32 then
    let digits := Nat.toDigits 16 c.toNat
    "\\u" ++ String.ofList (List.replicate (4 - digits.length) '0' ++ digits)
  else c.toString

/-- A string literal. -/
def literal (s : String) : String := "\"" ++ String.join (s.toList.map escapeChar) ++ "\""

mutual

/-- The text of a value. -/
def print : Json → String
  | .null => "null"
  | .bool b => if b then "true" else "false"
  | .int n => toString n
  | .double x => Decimal.ofFloat x
  | .text s => literal s
  | .list items => "[" ++ String.intercalate "," (printList items) ++ "]"
  | .record fields => "\x7b" ++ String.intercalate "," (printFields fields) ++ "\x7d"

/-- The texts of the items of a list. -/
def printList : List Json → List String
  | [] => []
  | v :: rest => v.print :: printList rest

/-- The texts of the fields of a record. -/
def printFields : List (String × Json) → List String
  | [] => []
  | (k, v) :: rest => (literal k ++ ":" ++ v.print) :: printFields rest

end

/-- The value of a field. -/
def field? (name : String) : Json → Option Json
  | .record fields => (fields.find? (fun f => f.1 == name)).map (·.2)
  | _ => none

/-- The characters of a string value. -/
def text? : Json → Option String
  | .text s => some s
  | _ => none

/-- The items of a list value. -/
def list? : Json → Option (List Json)
  | .list items => some items
  | _ => none

/-- A truth value. -/
def bool? : Json → Option Bool
  | .bool b => some b
  | _ => none

/-- An integer from zero to an upper limit. -/
def nat? (limit : Nat) : Json → Option Nat
  | .int n => if 0 ≤ n ∧ n ≤ (limit : Int) then some n.toNat else none
  | _ => none

/-- An integer of eight bits. -/
def uint8? (v : Json) : Option UInt8 := (v.nat? 255).map UInt8.ofNat

/-- An integer of sixteen bits. -/
def uint16? (v : Json) : Option UInt16 := (v.nat? 65535).map UInt16.ofNat

/-- An integer of thirty-two bits. -/
def uint32? (v : Json) : Option UInt32 := (v.nat? 4294967295).map UInt32.ofNat

/-- An integer of sixty-four bits. -/
def uint64? (v : Json) : Option UInt64 := (v.nat? 18446744073709551615).map UInt64.ofNat

/-- A signed integer of sixty-four bits. -/
def int64? : Json → Option Int64
  | .int n => if -9223372036854775808 ≤ n ∧ n ≤ 9223372036854775807 then some (Int64.ofInt n) else none
  | _ => none

/-- The double nearest to an integer. -/
def floatOfInt (n : Int) : Float := if n < 0 then -(Float.ofNat n.natAbs) else Float.ofNat n.natAbs

/-- A double as a value: a double that is not finite has no literal, and null stands for it. -/
def ofFloat (x : Float) : Json := if x.isFinite then .double x else .null

/-- A number of either kind as a double. -/
def float? : Json → Option Float
  | .int n => some (floatOfInt n)
  | .double x => some x
  | _ => none

/-- A list of values of one kind. -/
def listOf? {α : Type} (decode : Json → Option α) (v : Json) : Option (List α) := v.list?.bind (fun items => items.mapM decode)

/-- The fields of a record of known shape. They stand under their names, or in a list in the order of the shape. -/
inductive Fields where
  | named (fields : List (String × Json))
  | placed (items : List Json)

/-- The fields of a value, for a shape with so many fields. -/
def fields? (count : Nat) : Json → Option Fields
  | .record fields => some (.named fields)
  | .list items => if items.length ≤ count then some (.placed items) else none
  | _ => none

/-- The value of a field, by its name or its place. -/
def Fields.get? (fs : Fields) (name : String) (place : Nat) : Option Json :=
  match fs with
  | .named fields => (fields.find? (fun f => f.1 == name)).map (·.2)
  | .placed items => items[place]?

/-- A field that must be there. -/
def Fields.need {α : Type} (fs : Fields) (name : String) (place : Nat) (decode : Json → Option α) : Option α :=
  (fs.get? name place).bind decode

/-- A field with a value of its own for when it is left out. -/
def Fields.orElse {α : Type} (fs : Fields) (name : String) (place : Nat) (default : α) (decode : Json → Option α) : Option α :=
  match fs.get? name place with
  | some v => decode v
  | none => some default

/-- The name of a choice without content: a string, or a record whose only field has that name and holds nothing. -/
def choice? : Json → Option String
  | .text s => some s
  | .record [(name, .null)] => some name
  | _ => none

end Json

end TelemetryRouter
