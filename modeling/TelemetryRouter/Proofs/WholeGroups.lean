import TelemetryRouter.Proofs.Choices
import TelemetryRouter.Proofs.Identity

/-!
# Resources stay whole

Where the key of an item is told by its resource alone, a choice places resources and not items: a resource group with items goes as
one group to the place of its resource, with all its items and nothing but its empty scope groups left out (`Batch.keepsGroups_partsBy`).
On one ring a resource has one place for all batches, and so have resources that the key does not tell apart: those with the same
attributes in another order, and those of one service (`Ring.placesResources`).
-/

namespace TelemetryRouter

variable {α : Type}

/-! ## Groups under a choice by resources -/

namespace ResourceGroup

/-- Whether a resource group holds an item. -/
def holdsItem (rg : ResourceGroup α) : Bool := rg.scopeGroups.any (fun sg => !sg.items.isEmpty)

/-- A group holds an item exactly when something is left of it without its empty scope groups. -/
theorem scopeGroups_compact_ne_nil (rg : ResourceGroup α) : rg.compact.scopeGroups.isEmpty = !rg.holdsItem := by
  rw [Bool.eq_iff_iff, List.isEmpty_iff, compact, List.filter_eq_nil_iff, holdsItem, Bool.not_eq_true', List.any_eq_false]

theorem placed_eq_nil_iff (rg : ResourceGroup α) : rg.placed = [] ↔ rg.holdsItem = false := by
  simp [placed, holdsItem, ScopeGroup.placed]

theorem resource_of_mem_placed {rg : ResourceGroup α} {x : Resource × Scope × α} (hx : x ∈ rg.placed) : x.1 = rg.resource := by
  obtain ⟨sg, _, hx⟩ := List.mem_flatMap.1 hx
  obtain ⟨item, _, rfl⟩ := List.mem_map.1 hx
  rfl

/-- The answers of an answered resource group are the ones that were put beside its items. -/
theorem named_answered (rg : ResourceGroup α) {es : List Endpoint} (h : es.length = rg.placed.length) : (rg.answered es).named = es := by
  have hnamed : (rg.answered es).named = (rg.answered es).placed.map (fun p => p.2.2.1) := by
    simp only [named, placed, ScopeGroup.placed, List.map_flatMap, List.map_map]
    rfl
  rw [hnamed, placed_answered, List.map_map]
  exact List.map_snd_zip (by omega)

/-- Answers that are dealt out to resource groups reach the groups that they are for. -/
theorem answeredAll_map (f : Resource × Scope × α → Endpoint) (groups : List (ResourceGroup α)) :
    answeredAll groups ((groups.flatMap placed).map f) = groups.map (fun rg => rg.answered (rg.placed.map f)) := by
  induction groups with
  | nil => rfl
  | cons rg groups ih =>
    have hlength : (rg.placed.map f).length = rg.placed.length := List.length_map f
    rw [List.flatMap_cons, List.map_append, answeredAll, List.take_left' hlength, List.drop_left' hlength, ih, List.map_cons]

end ResourceGroup

namespace Batch

variable {choose : Resource → Scope → α → Endpoint} {place : Resource → Endpoint}

/-- What a choice by resources answers for the items of a group, in order. -/
def answersFor (place : Resource → Endpoint) (rg : ResourceGroup α) : List Endpoint := rg.placed.map (fun x => place x.1)

theorem length_answersFor (place : Resource → Endpoint) (rg : ResourceGroup α) : (answersFor place rg).length = rg.placed.length :=
  List.length_map _

/-- All the answers for the items of a group are the place of its resource. -/
theorem eq_of_mem_answersFor {rg : ResourceGroup α} {e : Endpoint} (he : e ∈ answersFor place rg) : e = place rg.resource := by
  obtain ⟨x, hx, rfl⟩ := List.mem_map.1 he
  rw [ResourceGroup.resource_of_mem_placed hx]

/-- The part of a group for the place of its resource is the group without its empty scope groups. -/
theorem part_answersFor_self (rg : ResourceGroup α) :
    (rg.answered (answersFor place rg)).part (place rg.resource) = rg.compact := by
  rw [ResourceGroup.part_eq_compact, rg.unanswered_answered (length_answersFor place rg)]
  intro x hx
  rw [rg.named_answered (length_answersFor place rg)] at hx
  exact eq_of_mem_answersFor hx

/-- A part of a group for another endpoint holds nothing. -/
theorem part_answersFor_of_ne {rg : ResourceGroup α} {e : Endpoint} (hne : place rg.resource ≠ e) :
    ((rg.answered (answersFor place rg)).part e).scopeGroups.isEmpty = true := by
  rw [← Bool.not_eq_false, ResourceGroup.scopeGroups_part_ne_nil, rg.named_answered (length_answersFor place rg)]
  intro he
  exact hne (eq_of_mem_answersFor he).symm

/-- The groups with items that are placed at an endpoint. -/
def groupsAt (place : Resource → Endpoint) (e : Endpoint) (b : Batch α) : List (ResourceGroup α) :=
  (b.resourceGroups.filter ResourceGroup.holdsItem).filter (fun rg => place rg.resource = e)

/-- The part of an endpoint by a choice by resources has the groups that are placed there, each as one. -/
theorem partFor_of_place (h : ∀ resource scope item, choose resource scope item = place resource) (b : Batch α) (e : Endpoint) :
    b.partFor choose e = ⟨(b.groupsAt place e).map ResourceGroup.compact⟩ := by
  obtain rfl : choose = fun resource _ _ => place resource := by
    funext resource scope item
    exact h resource scope item
  have hanswered : (b.answered (b.choices (fun resource _ _ => place resource))).resourceGroups =
      b.resourceGroups.map (fun rg => rg.answered (answersFor place rg)) := by
    show ResourceGroup.answeredAll b.resourceGroups _ = _
    rw [choices, items_eq_flatMap_placed, ResourceGroup.answeredAll_map]
    rfl
  rw [partFor, part, hanswered, List.map_map, List.filter_map, groupsAt, List.filter_filter]
  congr 1
  have hkept : ∀ rg : ResourceGroup α,
      (!((rg.answered (answersFor place rg)).part e).scopeGroups.isEmpty) = (decide (place rg.resource = e) && rg.holdsItem) := by
    intro rg
    by_cases hplace : place rg.resource = e
    · subst hplace
      rw [part_answersFor_self, rg.scopeGroups_compact_ne_nil]
      simp
    · simp [part_answersFor_of_ne hplace, hplace]
  simp only [Function.comp_def, hkept]
  refine List.map_congr_left (fun rg hrg => ?_)
  rw [List.mem_filter, Bool.and_eq_true, decide_eq_true_eq] at hrg
  obtain ⟨_, rfl, _⟩ := hrg
  exact part_answersFor_self rg

/-- The endpoints chosen by resources are, without repetition, the places of the groups with items. -/
theorem eraseDups_choices_of_place (h : ∀ resource scope item, choose resource scope item = place resource) (b : Batch α) :
    (b.choices choose).eraseDups =
      ((b.resourceGroups.filter ResourceGroup.holdsItem).map (fun rg => place rg.resource)).eraseDups := by
  have hchoices : b.choices choose = b.resourceGroups.flatMap (answersFor place) := by
    simp only [choices, items_eq_flatMap_placed, List.map_flatMap, h]
    rfl
  have hgroup : ∀ rg : ResourceGroup α,
      (answersFor place rg).eraseDups = if rg.holdsItem then [place rg.resource] else [] := by
    intro rg
    split
    · rename_i hholds
      refine eraseDups_eq_singleton (fun hnil => ?_) (fun x hx => eq_of_mem_answersFor hx)
      rw [answersFor, List.map_eq_nil_iff, ResourceGroup.placed_eq_nil_iff] at hnil
      rw [hnil] at hholds
      cases hholds
    · rename_i hempty
      rw [answersFor, rg.placed_eq_nil_iff.2 (Bool.eq_false_iff.2 hempty)]
      rfl
  have hplaces : b.resourceGroups.flatMap (fun rg => if rg.holdsItem then [place rg.resource] else []) =
      (b.resourceGroups.filter ResourceGroup.holdsItem).map (fun rg => place rg.resource) := by
    induction b.resourceGroups with
    | nil => rfl
    | cons rg groups ih =>
      rw [List.flatMap_cons, ih, List.filter_cons]
      split <;> rfl
  rw [hchoices, ← eraseDups_flatMap_eraseDups]
  simp only [hgroup, hplaces]

end Batch

/-! ## What it is to keep groups whole -/

/-- What holds of the parts that a batch is cut into when its resource groups go as they are to the places of their resources. -/
structure KeepsGroups (place : Resource → Endpoint) (b : Batch α) (parts : List (Endpoint × Batch α)) : Prop where
  /-- The endpoints of the parts are the places of the groups with items, in the order of the groups and none of them twice. -/
  endpoints : parts.map Prod.fst = ((b.resourceGroups.filter ResourceGroup.holdsItem).map (fun rg => place rg.resource)).eraseDups
  /-- A part has the groups with items that are placed at its endpoint, in their order, without empty scope groups and else as they
  were. -/
  groups : ∀ p ∈ parts, p.2.resourceGroups = (b.groupsAt place p.1).map ResourceGroup.compact
  /-- All the parts together have every group with items once. -/
  all : (parts.flatMap (fun p => p.2.resourceGroups)).Perm
    ((b.resourceGroups.filter ResourceGroup.holdsItem).map ResourceGroup.compact)
  /-- There is exactly one part with a group of the resource of a group with items. It is for the place of the resource, and has the
  group. -/
  alone : ∀ rg ∈ b.resourceGroups, rg.holdsItem = true → ∃ part,
    parts.filter (fun p => p.2.resourceGroups.any (fun g => g.resource = rg.resource)) = [(place rg.resource, part)] ∧
      rg.compact ∈ part.resourceGroups

namespace Batch

variable {choose : Resource → Scope → α → Endpoint} {place : Resource → Endpoint}

/-- A group that is placed at an endpoint is one of the batch, holds an item, and has that place. -/
theorem mem_groupsAt {b : Batch α} {e : Endpoint} {rg : ResourceGroup α} :
    rg ∈ b.groupsAt place e ↔ (rg ∈ b.resourceGroups ∧ rg.holdsItem = true) ∧ place rg.resource = e := by
  rw [groupsAt, List.mem_filter, List.mem_filter, decide_eq_true_eq]

theorem keepsGroups_partsBy (h : ∀ resource scope item, choose resource scope item = place resource) (b : Batch α) :
    KeepsGroups place b (b.partsBy choose) := by
  have hpart : ∀ e, (b.partFor choose e).resourceGroups = (b.groupsAt place e).map ResourceGroup.compact := by
    intro e
    rw [partFor_of_place h]
  have hendpoints := eraseDups_choices_of_place h b
  refine ⟨?_, ?_, ?_, ?_⟩
  · rw [partsBy, List.map_map, ← hendpoints]
    exact List.map_id _
  · intro p hp
    rw [(mem_partsBy.1 hp).2, hpart]
  · have hperm := perm_flatMap_filter (fun rg : ResourceGroup α => place rg.resource) (b.choices choose).eraseDups
      (nodup_eraseDups _) (b.resourceGroups.filter ResourceGroup.holdsItem) (fun rg hrg => by
        rw [hendpoints, List.mem_eraseDups]
        exact List.mem_map_of_mem hrg)
    have hmap := hperm.map ResourceGroup.compact
    rw [List.map_flatMap] at hmap
    rw [partsBy, List.flatMap_map]
    simpa only [hpart, groupsAt] using hmap
  · intro rg hrg hholds
    have hhere : rg ∈ b.groupsAt place (place rg.resource) := mem_groupsAt.2 ⟨⟨hrg, hholds⟩, rfl⟩
    have hany : ∀ e, (b.partFor choose e).resourceGroups.any (fun g => g.resource = rg.resource) = decide (e = place rg.resource) := by
      intro e
      rw [hpart, Bool.eq_iff_iff, List.any_eq_true, decide_eq_true_iff]
      constructor
      · rintro ⟨g, hg, hresource⟩
        obtain ⟨source, hsource, rfl⟩ := List.mem_map.1 hg
        have hsame : source.resource = rg.resource := of_decide_eq_true hresource
        rw [← (mem_groupsAt.1 hsource).2, hsame]
      · rintro rfl
        exact ⟨rg.compact, List.mem_map_of_mem hhere, decide_eq_true rfl⟩
    have hchosen : place rg.resource ∈ b.choices choose := by
      rw [← List.mem_eraseDups, hendpoints, List.mem_eraseDups]
      exact List.mem_map_of_mem (f := fun rg : ResourceGroup α => place rg.resource) (List.mem_filter.2 ⟨hrg, hholds⟩)
    refine ⟨b.partFor choose (place rg.resource), ?_, ?_⟩
    · rw [partsBy, List.filter_map]
      simp only [Function.comp_def, hany]
      rw [filter_eraseDups, if_pos hchosen]
      rfl
    · rw [hpart]
      exact List.mem_map_of_mem hhere

end Batch

/-! ## Places on a ring -/

/-- Resources with the same attributes in whatever order have the same identity. -/
theorem Resource.identity_congr {r s : Resource} (h : r.attributes.Perm s.attributes) : r.identity = s.identity := by
  rw [identity, identity]
  exact congrArg (String.intercalate ";") (mergeSort_textLe_congr (h.map identityPart))

/-- Where a ring places resources under an adapter, and that it keeps their groups whole. -/
structure Ring.PlacesResources (hash : ByteArray → UInt64) (ring : Ring) (a : Adapter α) (place : Resource → Endpoint) : Prop where
  /-- The place of a resource is the owner of the key of its items. -/
  owner : ∀ resource item, ring.ownerWith hash (a.keyOrEmpty resource item) = some (place resource)
  /-- Every batch is cut, and its resource groups go whole to the places of their resources. -/
  whole : ∀ batch, ∃ parts, a.regroupOnWith hash ring batch = some parts ∧ KeepsGroups place batch parts

/-- On the ring of a list with members, an adapter whose keys are told by resources keeps their groups whole. -/
theorem Adapter.placesResources (hash : ByteArray → UInt64) (a : Adapter α) {key : Resource → Option RoutingKey}
    (ha : ∀ resource item, a.key resource item = key resource) {es : List Endpoint} (hes : es ≠ []) (count : Nat)
    {place : Resource → Endpoint}
    (hplace : ∀ resource, (Ring.buildWith hash es count).ownerWith hash ((key resource).getD RoutingKey.empty) = some (place resource)) :
    (Ring.buildWith hash es count).PlacesResources hash a place := by
  have howner : ∀ resource item,
      (Ring.buildWith hash es count).ownerWith hash (a.keyOrEmpty resource item) = some (place resource) := by
    intro resource item
    rw [keyOrEmpty, ha, hplace]
  refine ⟨howner, fun batch => ⟨_, a.regroupOnWith_eq_partsBy hash hes count batch, Batch.keepsGroups_partsBy ?_ batch⟩⟩
  intro resource scope item
  rw [ownerWith, howner]
  rfl

/-- The key that the items of a resource are routed by under its identity. -/
def Resource.identityKey (r : Resource) : Option RoutingKey :=
  if r.attributes.isEmpty then none else some (RoutingKey.ofText r.identity)

/-- The key that the items of a resource are routed by under its service. -/
def Resource.serviceKey (r : Resource) : Option RoutingKey := r.serviceName.map RoutingKey.ofText

/-- Resources with the same attributes in whatever order have the same key. -/
theorem Resource.identityKey_congr {r s : Resource} (h : r.attributes.Perm s.attributes) : r.identityKey = s.identityKey := by
  have hempty : r.attributes.isEmpty = s.attributes.isEmpty := by
    rw [Bool.eq_iff_iff, List.isEmpty_iff, List.isEmpty_iff]
    exact ⟨fun hr => (hr ▸ h).nil_eq.symm, fun hs => (hs ▸ h).eq_nil⟩
  rw [identityKey, identityKey, hempty, identity_congr h]

/-- On every ring with members a resource has one place, whatever batch it comes in, where its groups of metrics go whole: one place by
its attributes in whatever order, and one by the name of its service, which its spans share with its metrics. -/
theorem resources_kept_whole (hash : ByteArray → UInt64) {es : List Endpoint} (hes : es ≠ []) (count : Nat) :
    (∃ place, (Ring.buildWith hash es count).PlacesResources hash (Adapter.metrics .resource) place ∧
      ∀ r s : Resource, r.attributes.Perm s.attributes → place r = place s) ∧
    ∃ place, (Ring.buildWith hash es count).PlacesResources hash (Adapter.metrics .service) place ∧
      (Ring.buildWith hash es count).PlacesResources hash (Adapter.traces .service) place ∧
      ∀ r s : Resource, r.serviceName = s.serviceName → place r = place s := by
  have howned : ∀ key : Resource → Option RoutingKey, ∃ place : Resource → Endpoint, ∀ resource,
      (Ring.buildWith hash es count).ownerWith hash ((key resource).getD RoutingKey.empty) = some (place resource) := by
    intro key
    choose place hplace using fun resource => Ring.exists_ownerWith_buildWith hash hes count ((key resource).getD RoutingKey.empty)
    exact ⟨place, hplace⟩
  obtain ⟨home, hhome⟩ := howned Resource.identityKey
  obtain ⟨post, hpost⟩ := howned Resource.serviceKey
  refine ⟨⟨home, Adapter.placesResources hash _ (fun _ _ => rfl) hes count hhome, fun r s h => ?_⟩,
    post, Adapter.placesResources hash _ (fun _ _ => rfl) hes count hpost,
    Adapter.placesResources hash _ (fun _ _ => rfl) hes count hpost, fun r s h => ?_⟩
  · have hkey := Resource.identityKey_congr h
    rw [← Option.some_inj, ← hhome r, ← hhome s, hkey]
  · have hkey : r.serviceKey = s.serviceKey := by rw [Resource.serviceKey, Resource.serviceKey, h]
    rw [← Option.some_inj, ← hpost r, ← hpost s, hkey]

/-- A batch with a resource group for every resource that is named, and in it a scope for every list of items. -/
def Batch.ofResources (groups : List (Resource × List (List α))) : Batch α :=
  ⟨groups.map (fun g => ⟨g.1, "", g.2.map (fun items => ⟨Scope.empty, "", items⟩)⟩)⟩

/-- The resources of a batch, each with what its scopes hold, told by labels of the items. -/
def Batch.resources (label : α → String) (b : Batch α) : List (Resource × List (List String)) :=
  b.resourceGroups.map (fun rg => (rg.resource, rg.scopeGroups.map (fun sg => sg.items.map label)))

/-- A metric without points. -/
def metricNamed (name : String) : Metric := Metric.gauge name []

/-- Two resources of one service, with a resource of no service between them and one without items after them. -/
def assortedMetrics : Batch Metric := Batch.ofResources [
  (Resource.forService "proxy-worker", [[metricNamed "requests"], [], [metricNamed "latency", metricNamed "errors"]]),
  (Resource.empty, [[metricNamed "uptime"]]),
  (⟨[⟨"host", .text "h1"⟩, ⟨Resource.serviceNameKey, .text "proxy-worker"⟩], 0⟩, [[metricNamed "memory"]]),
  (Resource.forService "proxy-worker", [[]])]

set_option synthInstance.maxSize 1024 in
/-- The metrics of one service go to its place as the groups that they came in, without the scope that held nothing, and those of no
service go elsewhere. -/
theorem resources_kept_whole_assorted : ([⟨"a"⟩, ⟨"b"⟩] : List Endpoint) ≠ [] ∧
    ((Adapter.metrics .service).regroupOnWith firstByte (Ring.buildWith firstByte [⟨"a"⟩, ⟨"b"⟩] 1) assortedMetrics).map
        (List.map (fun p => (p.1, p.2.resources Metric.name))) =
      some [
        (⟨"b"⟩, [(Resource.forService "proxy-worker", [["requests"], ["latency", "errors"]]),
          (⟨[⟨"host", .text "h1"⟩, ⟨Resource.serviceNameKey, .text "proxy-worker"⟩], 0⟩, [["memory"]])]),
        (⟨"a"⟩, [(Resource.empty, [["uptime"]])])] ∧
    (∃ place, (Ring.buildWith firstByte [⟨"a"⟩, ⟨"b"⟩] 1).PlacesResources firstByte (Adapter.metrics .resource) place ∧
      ∀ r s : Resource, r.attributes.Perm s.attributes → place r = place s) ∧
    ∃ place, (Ring.buildWith firstByte [⟨"a"⟩, ⟨"b"⟩] 1).PlacesResources firstByte (Adapter.metrics .service) place ∧
      (Ring.buildWith firstByte [⟨"a"⟩, ⟨"b"⟩] 1).PlacesResources firstByte (Adapter.traces .service) place ∧
      ∀ r s : Resource, r.serviceName = s.serviceName → place r = place s := by
  have hmembers : ([⟨"a"⟩, ⟨"b"⟩] : List Endpoint) ≠ [] := by decide
  refine ⟨hmembers, ?_, resources_kept_whole firstByte hmembers 1⟩
  rw [Ring.buildWith_firstByte]
  decide +kernel

end TelemetryRouter
