import TelemetryRouter.Endpoint
import TelemetryRouter.Telemetry.Batch

/-!
# Splitting a batch over endpoints

A route names an endpoint for every item of a batch, in order, and may remember what it answered before. The batch is cut into
one part for each endpoint, in the order in which the endpoints were first named. A part keeps the groups of the batch that hold
any of its items, with their metadata and in their order; groups without items disappear.
-/

namespace TelemetryRouter

/-- A map from endpoints to values that remembers the order of first use: the entries in that order, and the place of each
endpoint among them. -/
structure OrderedGroups (β : Type) where
  index : List (Endpoint × Nat)
  groups : List (Endpoint × β)

namespace OrderedGroups

variable {β : Type}

/-- The map without entries. -/
def empty : OrderedGroups β := ⟨[], []⟩

/-- The place of an endpoint. -/
def position? (g : OrderedGroups β) (e : Endpoint) : Option Nat := g.index.lookup e

/-- Changes the value of an endpoint; a new endpoint takes the last place, and the change starts from the default. -/
def update (g : OrderedGroups β) (e : Endpoint) (default : β) (change : β → β) : OrderedGroups β :=
  match g.position? e with
  | some i => { g with groups := g.groups.modify i (fun p => (p.1, change p.2)) }
  | none => ⟨(e, g.groups.length) :: g.index, g.groups ++ [(e, change default)]⟩

/-- The entries in order of first use. -/
def toList (g : OrderedGroups β) : List (Endpoint × β) := g.groups

end OrderedGroups

/-- A choice of endpoint for every item, with a memory of type `σ`. -/
abbrev Route (σ α : Type) : Type := σ → Resource → Scope → α → Endpoint × σ

variable {σ α : Type}

/-- Splits the items of a scope group. -/
def ScopeGroup.partition (route : Route σ α) (resource : Resource) (sg : ScopeGroup α) (s : σ) :
    OrderedGroups (ScopeGroup α) × σ :=
  sg.items.foldl
    (fun (acc : OrderedGroups (ScopeGroup α) × σ) item =>
      let (e, s) := route acc.2 resource sg.scope item
      (acc.1.update e { sg with items := [] } (fun part => { part with items := part.items ++ [item] }), s))
    (.empty, s)

/-- Splits the scope groups of a resource group. -/
def ResourceGroup.partition (route : Route σ α) (rg : ResourceGroup α) (s : σ) : OrderedGroups (ResourceGroup α) × σ :=
  rg.scopeGroups.foldl
    (fun (acc : OrderedGroups (ResourceGroup α) × σ) sg =>
      let (parts, s) := sg.partition route rg.resource acc.2
      (parts.toList.foldl
        (fun g p => g.update p.1 { rg with scopeGroups := [] }
          (fun part => { part with scopeGroups := part.scopeGroups ++ [p.2] }))
        acc.1, s))
    (.empty, s)

/-- Splits a batch; the memory of the route starts with `s` and is returned with the parts. -/
def Batch.partitionBy (route : Route σ α) (s : σ) (b : Batch α) : List (Endpoint × Batch α) × σ :=
  let (parts, s) := b.resourceGroups.foldl
    (fun (acc : OrderedGroups (Batch α) × σ) rg =>
      let (parts, s) := rg.partition route acc.2
      (parts.toList.foldl
        (fun g p => g.update p.1 Batch.empty (fun part => ⟨part.resourceGroups ++ [p.2]⟩))
        acc.1, s))
    (OrderedGroups.empty, s)
  (parts.toList, s)

end TelemetryRouter
