import TelemetryRouter.Proofs.Partition
import TelemetryRouter.Proofs.RingOwner
import TelemetryRouter.Routing.Adapter

/-!
# Cutting a batch by a choice

A route without memory is a choice: it answers every item by what the item and its resource and scope are. The parts that a choice
cuts a batch into are told by the choice alone (`Adapter.regroup_eq_partsBy`): the part of an endpoint has the items that it is chosen
for, and no empty groups. A part is therefore cut into itself again (`Batch.partsBy_part`). The owners of the keys on the ring of a
list are such a choice (`Adapter.regroupOnWith_eq_partsBy`).
-/

namespace TelemetryRouter

variable {α : Type}

/-- The only element of a list that repeats it is its only first occurrence. -/
theorem eraseDups_eq_singleton {κ : Type} [DecidableEq κ] {l : List κ} {a : κ} (hne : l ≠ []) (h : ∀ x ∈ l, x = a) :
    l.eraseDups = [a] := by
  cases l with
  | nil => exact absurd rfl hne
  | cons x l =>
    obtain rfl : x = a := h x List.mem_cons_self
    have hnone : l.filter (fun y => !y == x) = [] := by
      rw [List.filter_eq_nil_iff]
      intro y hy
      simp [h y (List.mem_cons_of_mem x hy)]
    rw [List.eraseDups_cons, hnone, List.eraseDups_nil]

/-! ## Parts of one answer -/

/-- Whether every group of a batch holds something. -/
def Batch.IsCompact (b : Batch α) : Prop :=
  ∀ rg ∈ b.resourceGroups, rg.scopeGroups ≠ [] ∧ ∀ sg ∈ rg.scopeGroups, sg.items ≠ []

theorem Batch.isCompact_part (e : Endpoint) (b : Batch (Endpoint × α)) : (b.part e).IsCompact := by
  intro rg hrg
  obtain ⟨hrg, hscopes⟩ := List.mem_filter.1 hrg
  obtain ⟨source, _, rfl⟩ := List.mem_map.1 hrg
  refine ⟨by simpa using hscopes, fun sg hsg => ?_⟩
  obtain ⟨_, hitems⟩ := List.mem_filter.1 hsg
  simpa using hitems

/-- Where one endpoint is answered for all items, its part of a scope group is the group. -/
theorem ScopeGroup.part_of_named {e : Endpoint} {sg : ScopeGroup (Endpoint × α)} (h : ∀ x ∈ sg.named, x = e) :
    sg.part e = sg.unanswered := by
  have hall : sg.items.filter (fun p => p.1 = e) = sg.items := by
    rw [List.filter_eq_self]
    intro p hp
    exact decide_eq_true (h p.1 (List.mem_map_of_mem hp))
  rw [ScopeGroup.part, ScopeGroup.unanswered, hall]

/-- A resource group without those of its scope groups that hold nothing. -/
def ResourceGroup.compact (rg : ResourceGroup α) : ResourceGroup α :=
  { rg with scopeGroups := rg.scopeGroups.filter (fun sg => !sg.items.isEmpty) }

/-- Where one endpoint is answered for all items, its part of a resource group is the group without empty scope groups. -/
theorem ResourceGroup.part_eq_compact {e : Endpoint} {rg : ResourceGroup (Endpoint × α)} (h : ∀ x ∈ rg.named, x = e) :
    rg.part e = rg.unanswered.compact := by
  have hparts : rg.scopeGroups.map (ScopeGroup.part e) = rg.unanswered.scopeGroups := by
    refine List.map_congr_left (fun sg hsg => ScopeGroup.part_of_named (fun x hx => h x ?_))
    exact List.mem_flatMap.2 ⟨sg, hsg, hx⟩
  rw [ResourceGroup.part, hparts]
  rfl

/-- Where one endpoint is answered for all items, its part of a resource group without empty scope groups is the group. -/
theorem ResourceGroup.part_of_named {e : Endpoint} {rg : ResourceGroup (Endpoint × α)} (h : ∀ x ∈ rg.named, x = e)
    (hfull : ∀ sg ∈ rg.unanswered.scopeGroups, sg.items ≠ []) : rg.part e = rg.unanswered := by
  rw [part_eq_compact h, compact, List.filter_eq_self.2 (fun sg hsg => by simpa using hfull sg hsg)]

/-- Where one endpoint is answered for all items, its part of a batch without empty groups is the batch. -/
theorem Batch.part_of_named {e : Endpoint} {b : Batch (Endpoint × α)} (h : ∀ x ∈ b.named, x = e)
    (hcompact : b.unanswered.IsCompact) : b.part e = b.unanswered := by
  have hparts : b.resourceGroups.map (ResourceGroup.part e) = b.unanswered.resourceGroups := by
    refine List.map_congr_left (fun rg hrg => ResourceGroup.part_of_named (fun x hx => h x ?_) ?_)
    · exact List.mem_flatMap.2 ⟨rg, hrg, hx⟩
    · exact (hcompact rg.unanswered (List.mem_map_of_mem hrg)).2
  rw [Batch.part, hparts, List.filter_eq_self.2 (fun rg hrg => by simpa using (hcompact rg hrg).1)]

/-! ## Parts by a choice -/

/-- A route without memory answers every item on its own. -/
theorem answers_of_choice (choose : Resource → Scope → α → Endpoint) (xs : List (Resource × Scope × α)) :
    (Route.answers (fun (_ : Unit) resource scope item => (choose resource scope item, ())) () xs).1 =
      xs.map (fun x => choose x.1 x.2.1 x.2.2) := by
  induction xs with
  | nil => rfl
  | cons x xs ih => simp [Route.answers, ih]

namespace Batch

variable (choose : Resource → Scope → α → Endpoint)

/-- What is chosen for the items of a batch, in order. -/
def choices (b : Batch α) : List Endpoint := b.items.map (fun x => choose x.1 x.2.1 x.2.2)

/-- The part of a batch for an endpoint by a choice. -/
def partFor (e : Endpoint) (b : Batch α) : Batch α := (b.answered (b.choices choose)).part e

/-- The parts of a batch by a choice, each with its endpoint, in the order in which the endpoints are first chosen. -/
def partsBy (b : Batch α) : List (Endpoint × Batch α) := (b.choices choose).eraseDups.map (fun e => (e, b.partFor choose e))

variable {choose}

theorem length_choices (b : Batch α) : (b.choices choose).length = b.items.length := List.length_map _

/-- The items of a part are those that its endpoint is chosen for. -/
theorem items_partFor (b : Batch α) (e : Endpoint) :
    (b.partFor choose e).items = b.items.filter (fun x => choose x.1 x.2.1 x.2.2 = e) := by
  have hzip : b.items.zip (b.choices choose) = b.items.map (fun x => (x, choose x.1 x.2.1 x.2.2)) :=
    List.map_prod_left_eq_zip.symm
  rw [partFor, items_part_answered, hzip, List.filter_map, List.map_map]
  exact List.map_id _

/-- An endpoint has a part exactly when it is chosen for an item. -/
theorem mem_partsBy {b : Batch α} {p : Endpoint × Batch α} :
    p ∈ b.partsBy choose ↔ p.1 ∈ b.choices choose ∧ p.2 = b.partFor choose p.1 := by
  rw [partsBy, List.mem_map]
  constructor
  · rintro ⟨e, he, rfl⟩
    exact ⟨List.mem_eraseDups.1 he, rfl⟩
  · rintro ⟨he, hp⟩
    exact ⟨p.1, List.mem_eraseDups.2 he, Prod.ext rfl hp.symm⟩

theorem partsBy_of_isEmpty {b : Batch α} (h : b.isEmpty = true) : b.partsBy choose = [] := by
  have hitems : b.items = [] := by
    rw [← List.length_eq_zero_iff, ← b.itemCount_eq_length_items]
    exact of_decide_eq_true h
  rw [partsBy, choices, hitems]
  rfl

theorem eq_of_mem_choices_partFor {b : Batch α} {e x : Endpoint} (hx : x ∈ (b.partFor choose e).choices choose) : x = e := by
  obtain ⟨item, hitem, rfl⟩ := List.mem_map.1 hx
  rw [items_partFor, List.mem_filter] at hitem
  exact of_decide_eq_true hitem.2

theorem partsBy_part {b : Batch α} {p : Endpoint × Batch α} (hp : p ∈ b.partsBy choose) : p.2.partsBy choose = [p] := by
  obtain ⟨hchosen, hpart⟩ := mem_partsBy.1 hp
  have hone : ∀ x ∈ p.2.choices choose, x = p.1 := fun x hx => eq_of_mem_choices_partFor (hpart ▸ hx)
  have hsome : p.2.choices choose ≠ [] := by
    obtain ⟨item, hitem, heq⟩ := List.mem_map.1 hchosen
    have hmem : item ∈ p.2.items := by
      rw [hpart, items_partFor, List.mem_filter]
      exact ⟨hitem, decide_eq_true heq⟩
    exact List.ne_nil_of_mem (List.mem_map_of_mem hmem)
  have hlength : (p.2.choices choose).length = p.2.items.length := p.2.length_choices
  have hself : p.2.partFor choose p.1 = p.2 := by
    have hunanswered := p.2.unanswered_answered hlength
    rw [partFor, part_of_named, hunanswered]
    · rwa [named_answered p.2 hlength]
    · rw [hunanswered, hpart]
      exact isCompact_part p.1 _
  rw [partsBy, eraseDups_eq_singleton hsome hone, List.map_singleton, hself]

end Batch

/-! ## Cutting by the owners of keys -/

theorem Ring.exists_ownerWith_buildWith (hash : ByteArray → UInt64) {es : List Endpoint} (hes : es ≠ []) (n : Nat) (key : RoutingKey) :
    ∃ e, (Ring.buildWith hash es n).ownerWith hash key = some e := by
  refine Option.ne_none_iff_exists'.1 (fun hnone => hes ?_)
  exact (Ring.positions_eq_nil_iff hash es n).1 ((Ring.ownerAt_eq_none_iff _ _).1 hnone)

namespace Adapter

/-- Splitting by a choice gives the parts by the choice. -/
theorem regroup_eq_partsBy (a : Adapter α) (choose : Resource → Scope → α → Endpoint) (b : Batch α) :
    a.regroup choose b = b.partsBy choose := by
  show (b.partitionBy (fun (_ : Unit) resource scope item => (choose resource scope item, ())) ()).1 = _
  rw [Batch.partitionBy_eq, Batch.toList_split, answers_of_choice]
  show ((b.answered (b.choices choose)).named.eraseDups.map _) = _
  rw [b.named_answered b.length_choices]
  rfl

/-- The owner of the key of an item under a hash, on a ring that owns every key. -/
def ownerWith (hash : ByteArray → UInt64) (a : Adapter α) (ring : Ring) : Resource → Scope → α → Endpoint :=
  fun resource _ item => (ring.ownerWith hash (a.keyOrEmpty resource item)).getD default

/-- On the ring of a list with members every item goes to the owner of its key; the owner of the empty key stands in for none. -/
theorem regroupOnWith_eq_partsBy (hash : ByteArray → UInt64) (a : Adapter α) {es : List Endpoint} (hes : es ≠ []) (n : Nat)
    (b : Batch α) : a.regroupOnWith hash (Ring.buildWith hash es n) b =
      some (b.partsBy (a.ownerWith hash (Ring.buildWith hash es n))) := by
  have howned := Ring.exists_ownerWith_buildWith hash hes n
  obtain ⟨fallback, hfallback⟩ := howned RoutingKey.empty
  have hchoice : (fun resource (_ : Scope) item =>
      ((Ring.buildWith hash es n).ownerWith hash (a.keyOrEmpty resource item)).getD fallback) =
        a.ownerWith hash (Ring.buildWith hash es n) := by
    funext resource scope item
    obtain ⟨e, he⟩ := howned (a.keyOrEmpty resource item)
    rw [ownerWith, he]
    rfl
  rw [regroupOnWith, hfallback, Option.map_some, hchoice, regroup_eq_partsBy]

end Adapter

/-! ## A ring that can be read -/

/-- The hash that puts keys and labels where their first byte tells. -/
def firstByte (bytes : ByteArray) : UInt64 := (bytes[0]?.getD 0).toUInt64

theorem Ring.buildWith_firstByte : Ring.buildWith firstByte [⟨"a"⟩, ⟨"b"⟩] 1 =
    ⟨[⟨"a"⟩, ⟨"b"⟩], 1, [(97, ⟨"a"⟩), (98, ⟨"b"⟩)]⟩ := by
  have hmembers : Endpoint.normalize [⟨"a"⟩, ⟨"b"⟩] = [⟨"a"⟩, ⟨"b"⟩] := by
    rw [Endpoint.normalize, List.mergeSort_of_pairwise (by decide)]
    rfl
  have hclaims : claims firstByte [⟨"a"⟩, ⟨"b"⟩] 1 = [(97, ⟨"a"⟩), (98, ⟨"b"⟩)] := by decide +kernel
  have hsettle : settle [(97, ⟨"a"⟩), (98, ⟨"b"⟩)] = [(97, ⟨"a"⟩), (98, ⟨"b"⟩)] := by decide +kernel
  show Ring.mk (Endpoint.normalize _) 1 (settle ((claims firstByte (Endpoint.normalize _) 1).mergeSort _)) = _
  rw [hmembers, hclaims, List.mergeSort_of_pairwise (by decide), hsettle]

/-- A batch with one resource group and one scope for every list of items. -/
def Batch.ofGroups (groups : List (List α)) : Batch α :=
  ⟨groups.map (fun items => ⟨Resource.empty, "", [⟨Scope.empty, "", items⟩]⟩)⟩

end TelemetryRouter
