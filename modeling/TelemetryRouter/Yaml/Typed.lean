import TelemetryRouter.Yaml.Node

/-!
# Typed values of a YAML document

A typed value is read from a node by the kind of value that is wanted: the same scalar may be text, a number or a missing option.
Every reader refuses a node of another kind, and follows an alias first.
-/

namespace TelemetryRouter.Yaml

/-- A reader of typed values. -/
abbrev Decoder (α : Type) : Type := Document → Node → Option α

/-- The words of a plain scalar for a missing value. -/
def isNullWord (s : String) : Bool := s == "null" || s == "Null" || s == "NULL" || s == "~"

/-- The tag of a missing value. -/
def nullTag : String := "tag:yaml.org,2002:null"

/-- The tag of an integer. -/
def intTag : String := "tag:yaml.org,2002:int"

/-- The digits of a base, as a number; nothing for the empty list and for other characters. -/
def readDigits (base : Nat) (cs : List Char) : Option Nat :=
  if cs.isEmpty then none
  else cs.foldlM (fun acc c =>
    let value :=
      if '0' ≤ c ∧ c ≤ '9' then c.toNat - 48
      else if 'a' ≤ c ∧ c ≤ 'z' then c.toNat - 87
      else if 'A' ≤ c ∧ c ≤ 'Z' then c.toNat - 55
      else base
    if value < base then some (base * acc + value) else none) 0

/-- An unsigned integer as a scalar writes it: decimal without leading zeros, or hexadecimal, octal or binary behind `0x`, `0o` or
`0b`, with an optional plus sign in front. -/
def readUnsigned (s : String) : Option Nat :=
  match (match s.toList with | '+' :: rest => rest | cs => cs) with
  | '0' :: 'x' :: rest => readDigits 16 rest
  | '0' :: 'o' :: rest => readDigits 8 rest
  | '0' :: 'b' :: rest => readDigits 2 rest
  | ['0'] => some 0
  | '0' :: _ => none
  | cs => readDigits 10 cs

namespace Decoder

/-- A scalar's text, however it is written. -/
def text : Decoder String := fun d n =>
  match d.resolve n with
  | some (.scalar _ _ s) => some s
  | _ => none

/-- An unsigned integer up to a limit, from a plain scalar or from literal lines with the tag of integers. -/
def unsigned (limit : Nat) : Decoder Nat := fun d n =>
  match d.resolve n with
  | some (.scalar tag style s) =>
    if style = .plain || (style = .literal && tag = some intTag) then
      (readUnsigned s).bind (fun v => if v ≤ limit then some v else none)
    else none
  | _ => none

/-- An integer of sixteen bits. -/
def uint16 : Decoder UInt16 := fun d n => (unsigned 65535 d n).map UInt16.ofNat

/-- An integer of sixty-four bits. -/
def uint64 : Decoder UInt64 := fun d n => (unsigned 18446744073709551615 d n).map UInt64.ofNat

/-- A value that may be missing: a plain scalar without a tag is missing if it is empty or a word for it. -/
def option {α : Type} (decode : Decoder α) : Decoder (Option α) := fun d n =>
  match d.resolve n with
  | some (.scalar tag .plain s) =>
    match tag with
    | none => if s.isEmpty || isNullWord s then some none else (decode d n).map some
    | some t => if t = nullTag then (if isNullWord s then some none else none) else (decode d n).map some
  | _ => (decode d n).map some

/-- The items of a sequence; a value left out is the empty sequence. -/
def list {α : Type} (decode : Decoder α) : Decoder (List α) := fun d n =>
  match d.resolve n with
  | some (.sequence _ items) => items.mapM (decode d)
  | some (.scalar _ .plain "") => some []
  | _ => none

/-- The name of a choice without content: a scalar's text, or a local tag before a value left out. -/
def choice : Decoder String := fun d n =>
  match d.resolve n with
  | some (.scalar tag style s) =>
    match tag.map String.toList with
    | some ('!' :: name) =>
      if style = .plain && (s.isEmpty || isNullWord s) then
        some (if name.isEmpty then "!" else String.ofList name)
      else none
    | _ => some s
  | _ => none

/-- A text that a function reads. -/
def parsed {α : Type} (read : String → Option α) : Decoder α := fun d n => (text d n).bind read

end Decoder

/-- The fields of a section: the values of the keys that it knows. -/
structure Section where
  document : Document
  entries : List (String × Node)

namespace Section

/-- The known entries among the entries of a mapping. Every key must be a scalar, and no known key may occur twice. -/
def collect (d : Document) (known : List String) : List (Node × Node) → List (String × Node) → Option (List (String × Node))
  | [], acc => some acc.reverse
  | (k, v) :: rest, acc =>
    match Decoder.text d k with
    | none => none
    | some name =>
      if known.contains name then
        if acc.any (fun e => e.1 == name) then none else collect d known rest ((name, v) :: acc)
      else collect d known rest acc

/-- The section that a node holds; a value left out is a section without entries. -/
def ofNode? (known : List String) (d : Document) (n : Node) : Option Section :=
  match d.resolve n with
  | some (.mapping _ entries) => (collect d known entries []).map (fun es => ⟨d, es⟩)
  | some (.scalar _ .plain "") => some ⟨d, []⟩
  | _ => none

/-- The value of a field that must be there. -/
def need {α : Type} (s : Section) (name : String) (decode : Decoder α) : Option α :=
  (s.entries.lookup name).bind (decode s.document)

/-- The value of a field that may be left out. -/
def orElse {α : Type} (s : Section) (name : String) (default : α) (decode : Decoder α) : Option α :=
  match s.entries.lookup name with
  | some n => decode s.document n
  | none => some default

end Section

end TelemetryRouter.Yaml
