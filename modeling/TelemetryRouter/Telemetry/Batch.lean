import TelemetryRouter.Telemetry.Attribute

/-!
# Batches of telemetry

Traces, logs and metrics share one nesting. A batch holds resource groups, a resource group holds the scope groups of one
producer, and a scope group holds the items of one instrumentation library. `Batch.items` reads a batch in order, each item
with the resource and the scope it belongs to.
-/

namespace TelemetryRouter

/-- The entity that produces telemetry. -/
structure Resource where
  attributes : List Attribute
  droppedAttributes : UInt32
  deriving DecidableEq, Repr

namespace Resource

/-- The name of the attribute that names a service. -/
def serviceNameKey : String := "service.name"

/-- A resource with nothing but the name of its service. -/
def forService (name : String) : Resource := ⟨[⟨serviceNameKey, .text name⟩], 0⟩

/-- A resource without attributes. -/
def empty : Resource := ⟨[], 0⟩

/-- The value of an attribute. -/
def lookup (r : Resource) (key : String) : Option AttributeValue := Attribute.find? r.attributes key

/-- The text of the attribute that names the service. -/
def serviceName (r : Resource) : Option String := (r.lookup serviceNameKey).map AttributeValue.display

/-- Writes a backslash before the characters that structure an identity. -/
def escape : List Char → List Char
  | [] => []
  | c :: rest => if c = '\\' ∨ c = '=' ∨ c = ';' then '\\' :: c :: escape rest else c :: escape rest

/-- The part of an identity that stands for one attribute: its name, the letter for the kind, and its text. -/
def identityPart (a : Attribute) : String :=
  String.ofList (escape a.key.toList ++ '=' :: a.value.tag :: ':' :: escape a.value.display.toList)

/-- The order of texts by their bytes. -/
def textLe (a b : String) : Bool := !decide (b < a)

/-- The canonical text of a resource: the parts of its attributes, sorted and joined by semicolons. The order of the attributes
and the count of dropped ones play no role. -/
def identity (r : Resource) : String := String.intercalate ";" ((r.attributes.map identityPart).mergeSort textLe)

end Resource

/-- The library that produced a group of items. -/
structure Scope where
  name : String
  version : String
  attributes : List Attribute
  deriving DecidableEq, Repr

/-- A scope without name, version and attributes. -/
def Scope.empty : Scope := ⟨"", "", []⟩

/-- The items of one scope. -/
structure ScopeGroup (α : Type) where
  scope : Scope
  schemaUrl : String
  items : List α
  deriving Repr

/-- The scope groups of one resource. -/
structure ResourceGroup (α : Type) where
  resource : Resource
  schemaUrl : String
  scopeGroups : List (ScopeGroup α)
  deriving Repr

/-- A batch of items. -/
structure Batch (α : Type) where
  resourceGroups : List (ResourceGroup α)
  deriving Repr

namespace Batch

variable {α : Type}

/-- The batch without groups. -/
def empty : Batch α := ⟨[]⟩

/-- Every item in order, with its resource and its scope. -/
def items (b : Batch α) : List (Resource × Scope × α) :=
  b.resourceGroups.flatMap (fun rg => rg.scopeGroups.flatMap (fun sg => sg.items.map (fun x => (rg.resource, sg.scope, x))))

/-- The number of items. -/
def itemCount (b : Batch α) : Nat :=
  (b.resourceGroups.flatMap ResourceGroup.scopeGroups).foldr (fun sg n => sg.items.length + n) 0

/-- Whether the batch has no item. -/
def isEmpty (b : Batch α) : Bool := b.itemCount == 0

/-- The scopes of one resource count as many as their part of the view is long. -/
theorem foldr_length_items (resource : Resource) (n : Nat) : ∀ scopes : List (ScopeGroup α),
    scopes.foldr (fun sg n => sg.items.length + n) n =
      (scopes.flatMap (fun sg => sg.items.map (fun x => (resource, sg.scope, x)))).length + n
  | [] => (Nat.zero_add n).symm
  | sg :: scopes => by
    rw [List.foldr_cons, foldr_length_items resource n scopes, List.flatMap_cons, List.length_append, List.length_map, Nat.add_assoc]

/-- The count is the length of the view. -/
theorem itemCount_eq_length_items (b : Batch α) : b.itemCount = b.items.length := by
  obtain ⟨groups⟩ := b
  induction groups with
  | nil => rfl
  | cons rg groups ih =>
    rw [itemCount, items] at ih ⊢
    rw [List.flatMap_cons, List.foldr_append, ih, foldr_length_items rg.resource, List.flatMap_cons, List.length_append]

/-- What a batch holds, told by the identities of its resources, the names of its scopes and labels of its items. -/
def outline (label : α → String) (b : Batch α) : List (String × List (String × List String)) :=
  b.resourceGroups.map (fun rg => (rg.resource.identity, rg.scopeGroups.map (fun sg => (sg.scope.name, sg.items.map label))))

end Batch

end TelemetryRouter
