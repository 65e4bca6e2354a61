import TelemetryRouter.Proofs.OrderedGroups

/-!
# Splitting keeps every item in its place

The reference for a split is told without maps. A route run over the items of a batch in order gives one answer for each
(`Route.answers`); the answers are put beside the items (`Batch.answered`); and the part of an endpoint is what a filter for its
answers leaves, less the groups that are left without items (`Batch.part`). `partitionBy_eq_parts` says that the split is exactly
the parts of the answered endpoints in the order of their first answers.
-/

namespace TelemetryRouter

variable {σ α β γ : Type}

/-! ## The reference -/

/-- The answers of a route to items in order, and its memory after the last of them. -/
def Route.answers (route : Route σ α) : σ → List (Resource × Scope × α) → List Endpoint × σ
  | s, [] => ([], s)
  | s, (resource, scope, x) :: rest =>
    let call := route s resource scope x
    let later := Route.answers route call.2 rest
    (call.1 :: later.1, later.2)

/-- A route that also remembers the calls it got, in order. -/
def Route.recorded (route : Route σ α) : Route (σ × List (Resource × Scope × α)) α := fun s resource scope x =>
  let call := route s.1 resource scope x
  (call.1, call.2, s.2 ++ [(resource, scope, x)])

/-- The items of a scope group of a resource, each with its resource and scope. -/
def ScopeGroup.placed (resource : Resource) (sg : ScopeGroup α) : List (Resource × Scope × α) :=
  sg.items.map (fun x => (resource, sg.scope, x))

/-- The items of a resource group, each with its resource and scope. -/
def ResourceGroup.placed (rg : ResourceGroup α) : List (Resource × Scope × α) :=
  rg.scopeGroups.flatMap (ScopeGroup.placed rg.resource)

/-- Puts answers beside the items of a scope group, in order. -/
def ScopeGroup.answered (sg : ScopeGroup α) (es : List Endpoint) : ScopeGroup (Endpoint × α) :=
  ⟨sg.scope, sg.schemaUrl, es.zip sg.items⟩

/-- Deals the answers of a list out to scope groups, to each as many as it has items. -/
def ScopeGroup.answeredAll : List (ScopeGroup α) → List Endpoint → List (ScopeGroup (Endpoint × α))
  | [], _ => []
  | sg :: rest, es => sg.answered (es.take sg.items.length) :: ScopeGroup.answeredAll rest (es.drop sg.items.length)

/-- Puts answers beside the items of a resource group, in order. -/
def ResourceGroup.answered (rg : ResourceGroup α) (es : List Endpoint) : ResourceGroup (Endpoint × α) :=
  ⟨rg.resource, rg.schemaUrl, ScopeGroup.answeredAll rg.scopeGroups es⟩

/-- Deals the answers of a list out to resource groups, to each as many as it has items. -/
def ResourceGroup.answeredAll : List (ResourceGroup α) → List Endpoint → List (ResourceGroup (Endpoint × α))
  | [], _ => []
  | rg :: rest, es => rg.answered (es.take rg.placed.length) :: ResourceGroup.answeredAll rest (es.drop rg.placed.length)

/-- Puts answers beside the items of a batch, in order. -/
def Batch.answered (b : Batch α) (es : List Endpoint) : Batch (Endpoint × α) := ⟨ResourceGroup.answeredAll b.resourceGroups es⟩

/-- A scope group without the answers. -/
def ScopeGroup.unanswered (sg : ScopeGroup (Endpoint × α)) : ScopeGroup α := ⟨sg.scope, sg.schemaUrl, sg.items.map Prod.snd⟩

/-- A resource group without the answers. -/
def ResourceGroup.unanswered (rg : ResourceGroup (Endpoint × α)) : ResourceGroup α :=
  ⟨rg.resource, rg.schemaUrl, rg.scopeGroups.map ScopeGroup.unanswered⟩

/-- A batch without the answers. -/
def Batch.unanswered (b : Batch (Endpoint × α)) : Batch α := ⟨b.resourceGroups.map ResourceGroup.unanswered⟩

/-- The items of a scope group that an endpoint was answered for. -/
def ScopeGroup.part (e : Endpoint) (sg : ScopeGroup (Endpoint × α)) : ScopeGroup α :=
  ⟨sg.scope, sg.schemaUrl, (sg.items.filter (fun p => p.1 = e)).map Prod.snd⟩

/-- The part of an endpoint of a resource group: scope groups left without items are dropped. -/
def ResourceGroup.part (e : Endpoint) (rg : ResourceGroup (Endpoint × α)) : ResourceGroup α :=
  ⟨rg.resource, rg.schemaUrl, (rg.scopeGroups.map (ScopeGroup.part e)).filter (fun sg => !sg.items.isEmpty)⟩

/-- The part of an endpoint of a batch: resource groups left without scope groups are dropped. -/
def Batch.part (e : Endpoint) (b : Batch (Endpoint × α)) : Batch α :=
  ⟨(b.resourceGroups.map (ResourceGroup.part e)).filter (fun rg => !rg.scopeGroups.isEmpty)⟩

/-! ## Calls of the route -/

theorem length_answers (route : Route σ α) (s : σ) (xs : List (Resource × Scope × α)) :
    (Route.answers route s xs).1.length = xs.length := by
  induction xs generalizing s with
  | nil => rfl
  | cons x xs ih => simp [Route.answers, ih]

/-- The later of two sequences of items is answered with the memory that the earlier one left. -/
theorem answers_append (route : Route σ α) (s : σ) (xs ys : List (Resource × Scope × α)) :
    Route.answers route s (xs ++ ys) =
      ((Route.answers route s xs).1 ++ (Route.answers route (Route.answers route s xs).2 ys).1,
        (Route.answers route (Route.answers route s xs).2 ys).2) := by
  induction xs generalizing s with
  | nil => rfl
  | cons x xs ih => simp [Route.answers, ih]

/-- A route that remembers its calls gives the same answers, and remembers exactly the items in order. -/
theorem answers_recorded (route : Route σ α) (s : σ) (before xs : List (Resource × Scope × α)) :
    Route.answers route.recorded (s, before) xs =
      ((Route.answers route s xs).1, (Route.answers route s xs).2, before ++ xs) := by
  induction xs generalizing s before with
  | nil => simp [Route.answers]
  | cons x xs ih => simp [Route.answers, Route.recorded, ih]

/-! ## The parts of a scope group -/

/-- The endpoints answered for items, in order. -/
def ScopeGroup.named (sg : ScopeGroup (Endpoint × α)) : List Endpoint := sg.items.map Prod.fst

/-- The map of the parts of a scope group. -/
def ScopeGroup.split (sg : ScopeGroup (Endpoint × α)) : OrderedGroups (ScopeGroup α) :=
  OrderedGroups.updates Prod.fst ⟨sg.scope, sg.schemaUrl, []⟩ (fun p part => { part with items := part.items ++ [p.2] })
    sg.items .empty

/-- Splitting a scope group is splitting its answered items. -/
theorem ScopeGroup.partition_eq (route : Route σ α) (resource : Resource) (sg : ScopeGroup α) (s : σ) :
    sg.partition route resource s =
      ((sg.answered (route.answers s (sg.placed resource)).1).split, (route.answers s (sg.placed resource)).2) := by
  obtain ⟨scope, url, items⟩ := sg
  simp only [ScopeGroup.partition, ScopeGroup.answered, ScopeGroup.split, ScopeGroup.placed]
  generalize (OrderedGroups.empty : OrderedGroups (ScopeGroup α)) = g
  induction items generalizing g s with
  | nil => rfl
  | cons x items ih =>
    rw [List.foldl_cons, ih]
    rfl

/-- The parts of a scope group: one for every endpoint answered, in the order of the first answers. -/
theorem ScopeGroup.toList_split (sg : ScopeGroup (Endpoint × α)) :
    sg.split.toList = sg.named.eraseDups.map (fun e => (e, sg.part e)) := by
  have hadd : ∀ (ps : List (Endpoint × α)) (g : ScopeGroup α),
      ps.foldl (fun v p => { v with items := v.items ++ [p.2] }) g = { g with items := g.items ++ ps.map Prod.snd } := by
    intro ps
    induction ps with
    | nil => simp
    | cons p ps ih =>
      intro g
      rw [List.foldl_cons, ih]
      simp
  rw [ScopeGroup.split, OrderedGroups.toList_updates]
  simp only [hadd]
  rfl

/-- The part of an endpoint has items exactly when the endpoint was answered. -/
theorem ScopeGroup.items_part_ne_nil (e : Endpoint) (sg : ScopeGroup (Endpoint × α)) :
    (sg.part e).items.isEmpty = false ↔ e ∈ sg.named := by
  rw [← Bool.not_eq_true, List.isEmpty_iff]
  simp only [ScopeGroup.part, ScopeGroup.named, List.map_eq_nil_iff, List.filter_eq_nil_iff, decide_eq_true_eq, List.mem_map]
  push Not
  rfl

/-! ## The parts of a resource group -/

/-- The endpoints answered for the items of a resource group, in order. -/
def ResourceGroup.named (rg : ResourceGroup (Endpoint × α)) : List Endpoint := rg.scopeGroups.flatMap ScopeGroup.named

/-- The map of the parts of a resource group. -/
def ResourceGroup.split (rg : ResourceGroup (Endpoint × α)) : OrderedGroups (ResourceGroup α) :=
  OrderedGroups.updates Prod.fst ⟨rg.resource, rg.schemaUrl, []⟩
    (fun p part => { part with scopeGroups := part.scopeGroups ++ [p.2] })
    (rg.scopeGroups.flatMap (fun sg => sg.split.toList)) .empty

/-- Splitting a resource group is splitting its answered scope groups. -/
theorem ResourceGroup.partition_eq (route : Route σ α) (rg : ResourceGroup α) (s : σ) :
    rg.partition route s = ((rg.answered (route.answers s rg.placed).1).split, (route.answers s rg.placed).2) := by
  obtain ⟨resource, url, sgs⟩ := rg
  simp only [ResourceGroup.partition, ResourceGroup.answered, ResourceGroup.split, ResourceGroup.placed]
  generalize (OrderedGroups.empty : OrderedGroups (ResourceGroup α)) = g
  induction sgs generalizing g s with
  | nil => rfl
  | cons sg sgs ih =>
    have hlen : (route.answers s (sg.placed resource)).1.length = sg.items.length := by
      rw [length_answers, ScopeGroup.placed, List.length_map]
    rw [List.foldl_cons, sg.partition_eq, ih, List.flatMap_cons, answers_append]
    simp only [ScopeGroup.answeredAll, List.flatMap_cons, OrderedGroups.updates, List.foldl_append, List.take_left' hlen,
      List.drop_left' hlen]

/-- The parts of a resource group: one for every endpoint answered, in the order of the first answers. -/
theorem ResourceGroup.toList_split (rg : ResourceGroup (Endpoint × α)) :
    rg.split.toList = rg.named.eraseDups.map (fun e => (e, rg.part e)) := by
  have hadd : ∀ (ps : List (ScopeGroup α)) (g : ResourceGroup α),
      ps.foldl (fun v p => { v with scopeGroups := v.scopeGroups ++ [p] }) g =
        { g with scopeGroups := g.scopeGroups ++ ps } := by
    intro ps
    induction ps with
    | nil => simp
    | cons p ps ih =>
      intro g
      rw [List.foldl_cons, ih]
      simp
  have hpart : ∀ e, (rg.scopeGroups.filter (fun sg => e ∈ sg.named)).map (ScopeGroup.part e) =
      (rg.scopeGroups.map (ScopeGroup.part e)).filter (fun sg => !sg.items.isEmpty) := by
    intro e
    rw [List.filter_map]
    congr 1
    apply List.filter_congr
    intro sg _
    rw [Bool.eq_iff_iff, decide_eq_true_iff, ← sg.items_part_ne_nil e, Function.comp_apply, Bool.not_eq_true']
  simp only [ResourceGroup.split, ScopeGroup.toList_split]
  rw [OrderedGroups.toList_updates_parts ScopeGroup.named ScopeGroup.part _
    (fun (v : ResourceGroup α) p => { v with scopeGroups := v.scopeGroups ++ [p] })]
  simp only [hadd, hpart]
  rfl

/-- The part of an endpoint has scope groups exactly when the endpoint was answered. -/
theorem ResourceGroup.scopeGroups_part_ne_nil (e : Endpoint) (rg : ResourceGroup (Endpoint × α)) :
    (rg.part e).scopeGroups.isEmpty = false ↔ e ∈ rg.named := by
  rw [← Bool.not_eq_true, List.isEmpty_iff]
  simp only [ResourceGroup.part, List.filter_eq_nil_iff, List.mem_map, forall_exists_index, and_imp,
    forall_apply_eq_imp_iff₂, Bool.not_eq_true', ScopeGroup.items_part_ne_nil, ResourceGroup.named, List.mem_flatMap]
  push Not
  rfl

/-! ## The parts of a batch -/

/-- The endpoints answered for the items of a batch, in order. -/
def Batch.named (b : Batch (Endpoint × α)) : List Endpoint := b.resourceGroups.flatMap ResourceGroup.named

/-- The map of the parts of a batch. -/
def Batch.split (b : Batch (Endpoint × α)) : OrderedGroups (Batch α) :=
  OrderedGroups.updates Prod.fst Batch.empty (fun p part => ⟨part.resourceGroups ++ [p.2]⟩)
    (b.resourceGroups.flatMap (fun rg => rg.split.toList)) .empty

theorem Batch.items_eq_flatMap_placed (b : Batch α) : b.items = b.resourceGroups.flatMap ResourceGroup.placed := rfl

/-- Splitting a batch is splitting its answered resource groups. -/
theorem Batch.partitionBy_eq (route : Route σ α) (s : σ) (b : Batch α) :
    b.partitionBy route s = ((b.answered (route.answers s b.items).1).split.toList, (route.answers s b.items).2) := by
  obtain ⟨rgs⟩ := b
  simp only [Batch.partitionBy, Batch.answered, Batch.split, Batch.items_eq_flatMap_placed]
  generalize (OrderedGroups.empty : OrderedGroups (Batch α)) = g
  induction rgs generalizing g s with
  | nil => rfl
  | cons rg rgs ih =>
    have hlen := length_answers route s rg.placed
    simp only [List.foldl_cons, rg.partition_eq]
    rw [ih, List.flatMap_cons, answers_append]
    simp only [ResourceGroup.answeredAll, List.flatMap_cons, OrderedGroups.updates, List.foldl_append, List.take_left' hlen,
      List.drop_left' hlen]

/-- The parts of a batch: one for every endpoint answered, in the order of the first answers. -/
theorem Batch.toList_split (b : Batch (Endpoint × α)) :
    b.split.toList = b.named.eraseDups.map (fun e => (e, b.part e)) := by
  have hadd : ∀ (ps : List (ResourceGroup α)) (g : Batch α),
      ps.foldl (fun v p => ⟨v.resourceGroups ++ [p]⟩) g = ⟨g.resourceGroups ++ ps⟩ := by
    intro ps
    induction ps with
    | nil => simp
    | cons p ps ih =>
      intro g
      rw [List.foldl_cons, ih]
      simp
  have hpart : ∀ e, (b.resourceGroups.filter (fun rg => e ∈ rg.named)).map (ResourceGroup.part e) =
      (b.resourceGroups.map (ResourceGroup.part e)).filter (fun rg => !rg.scopeGroups.isEmpty) := by
    intro e
    rw [List.filter_map]
    congr 1
    apply List.filter_congr
    intro rg _
    rw [Bool.eq_iff_iff, decide_eq_true_iff, ← rg.scopeGroups_part_ne_nil e, Function.comp_apply, Bool.not_eq_true']
  simp only [Batch.split, ResourceGroup.toList_split]
  rw [OrderedGroups.toList_updates_parts ResourceGroup.named ResourceGroup.part _
    (fun (v : Batch α) p => ⟨v.resourceGroups ++ [p]⟩)]
  simp only [hadd, hpart]
  rfl

/-! ## The items of parts and of answered batches -/

/-- An item and an answer for it, as an answered batch holds them. -/
def withAnswer (p : (Resource × Scope × α) × Endpoint) : Resource × Scope × Endpoint × α := (p.1.1, p.1.2.1, p.2, p.1.2.2)

/-- An item of an answered batch without its answer. -/
def withoutAnswer (p : Resource × Scope × Endpoint × α) : Resource × Scope × α := (p.1, p.2.1, p.2.2.2)

/-- Pairing two sequences in turn with a list pairs the first with the beginning of the list and the second with the rest. -/
theorem zip_append_left (xs ys : List β) (es : List γ) :
    (xs ++ ys).zip es = xs.zip (es.take xs.length) ++ ys.zip (es.drop xs.length) := by
  induction xs generalizing es with
  | nil => simp
  | cons x xs ih =>
    cases es with
    | nil => simp
    | cons e es => simp [ih]

/-- The items of an answered scope group are its items, each with its answer. -/
theorem ScopeGroup.placed_answered (resource : Resource) (sg : ScopeGroup α) (es : List Endpoint) :
    (sg.answered es).placed resource = ((sg.placed resource).zip es).map withAnswer := by
  obtain ⟨scope, url, items⟩ := sg
  simp only [ScopeGroup.placed, ScopeGroup.answered]
  induction items generalizing es with
  | nil => simp
  | cons x items ih =>
    cases es with
    | nil => simp
    | cons e es => simpa [withAnswer] using ih es

/-- The items of an answered resource group are its items, each with its answer. -/
theorem ResourceGroup.placed_answered (rg : ResourceGroup α) (es : List Endpoint) :
    (rg.answered es).placed = (rg.placed.zip es).map withAnswer := by
  obtain ⟨resource, url, sgs⟩ := rg
  simp only [ResourceGroup.placed, ResourceGroup.answered]
  induction sgs generalizing es with
  | nil => simp [ScopeGroup.answeredAll]
  | cons sg sgs ih =>
    have hlen : (sg.placed resource).length = sg.items.length := by rw [ScopeGroup.placed, List.length_map]
    rw [ScopeGroup.answeredAll, List.flatMap_cons, List.flatMap_cons, zip_append_left, List.map_append, ih,
      sg.placed_answered, hlen]

/-- The items of an answered batch are its items, each with its answer. -/
theorem Batch.items_answered (b : Batch α) (es : List Endpoint) : (b.answered es).items = (b.items.zip es).map withAnswer := by
  obtain ⟨rgs⟩ := b
  simp only [Batch.items_eq_flatMap_placed, Batch.answered]
  induction rgs generalizing es with
  | nil => simp [ResourceGroup.answeredAll]
  | cons rg rgs ih =>
    rw [ResourceGroup.answeredAll, List.flatMap_cons, List.flatMap_cons, zip_append_left, List.map_append, ih,
      rg.placed_answered]

theorem flatMap_filter (p : β → Bool) (f : β → List γ) (gs : List β) (h : ∀ g ∈ gs, p g = false → f g = []) :
    (gs.filter p).flatMap f = gs.flatMap f := by
  induction gs with
  | nil => rfl
  | cons g gs ih =>
    have ih := ih (fun x hx => h x (List.mem_cons_of_mem g hx))
    cases hp : p g with
    | true => rw [List.filter_cons_of_pos hp, List.flatMap_cons, List.flatMap_cons, ih]
    | false => rw [List.filter_cons_of_neg (by simp [hp]), List.flatMap_cons, h g List.mem_cons_self hp, ih, List.nil_append]

/-- The items of a part of a scope group are the items answered for the endpoint. -/
theorem ScopeGroup.placed_part (e : Endpoint) (resource : Resource) (sg : ScopeGroup (Endpoint × α)) :
    (sg.part e).placed resource = ((sg.placed resource).filter (fun p => p.2.2.1 = e)).map withoutAnswer := by
  simp [ScopeGroup.placed, ScopeGroup.part, List.filter_map, Function.comp_def, withoutAnswer]

/-- The items of a part of a resource group are the items answered for the endpoint. -/
theorem ResourceGroup.placed_part (e : Endpoint) (rg : ResourceGroup (Endpoint × α)) :
    (rg.part e).placed = (rg.placed.filter (fun p => p.2.2.1 = e)).map withoutAnswer := by
  simp only [ResourceGroup.placed, ResourceGroup.part]
  rw [flatMap_filter, List.flatMap_map, List.filter_flatMap, List.map_flatMap]
  · simp only [ScopeGroup.placed_part]
  · intro sg _ hsg
    simpa [ScopeGroup.placed] using hsg

/-- The items of a part of a batch are the items answered for the endpoint. -/
theorem Batch.items_part (e : Endpoint) (b : Batch (Endpoint × α)) :
    (b.part e).items = (b.items.filter (fun p => p.2.2.1 = e)).map withoutAnswer := by
  simp only [Batch.items_eq_flatMap_placed, Batch.part]
  rw [flatMap_filter, List.flatMap_map, List.filter_flatMap, List.map_flatMap]
  · simp only [ResourceGroup.placed_part]
  · intro rg _ hrg
    have hnil : rg.scopeGroups = [] := by simpa using hrg
    simp [ResourceGroup.placed, hnil]

theorem Batch.named_eq_map_items (b : Batch (Endpoint × α)) : b.named = b.items.map (fun p => p.2.2.1) := by
  simp only [Batch.named, Batch.items, List.map_flatMap, List.map_map]
  rfl

/-- The items of the part of an endpoint are the items of the batch that it was answered for, in order. -/
theorem Batch.items_part_answered (b : Batch α) (es : List Endpoint) (e : Endpoint) :
    ((b.answered es).part e).items = ((b.items.zip es).filter (fun p => p.2 = e)).map Prod.fst := by
  rw [Batch.items_part, Batch.items_answered, List.filter_map, List.map_map]
  rfl

/-- With one answer for every item the answers of an answered batch are these. -/
theorem Batch.named_answered (b : Batch α) {es : List Endpoint} (h : es.length = b.items.length) : (b.answered es).named = es := by
  rw [Batch.named_eq_map_items, Batch.items_answered, List.map_map]
  exact List.map_snd_zip (by omega)

/-- With one answer for every item, an answered scope group is the group with its answers and nothing else. -/
theorem ScopeGroup.unanswered_answered (sg : ScopeGroup α) {es : List Endpoint} (h : es.length = sg.items.length) :
    (sg.answered es).unanswered = sg := by
  have hzip : (es.zip sg.items).map Prod.snd = sg.items := List.map_snd_zip (by omega)
  rw [ScopeGroup.unanswered, ScopeGroup.answered, hzip]

/-- With one answer for every item, an answered resource group is the group with its answers and nothing else. -/
theorem ResourceGroup.unanswered_answered (rg : ResourceGroup α) {es : List Endpoint} (h : es.length = rg.placed.length) :
    (rg.answered es).unanswered = rg := by
  obtain ⟨resource, url, sgs⟩ := rg
  simp only [ResourceGroup.unanswered, ResourceGroup.answered, ResourceGroup.placed, ResourceGroup.mk.injEq, true_and] at h ⊢
  induction sgs generalizing es with
  | nil => rfl
  | cons sg sgs ih =>
    have hlen : (sg.placed resource).length = sg.items.length := by rw [ScopeGroup.placed, List.length_map]
    rw [List.flatMap_cons, List.length_append, hlen] at h
    rw [ScopeGroup.answeredAll, List.map_cons, sg.unanswered_answered (by rw [List.length_take]; omega),
      ih (by rw [List.length_drop]; omega)]

/-- With one answer for every item, an answered batch is the batch with its answers and nothing else. -/
theorem Batch.unanswered_answered (b : Batch α) {es : List Endpoint} (h : es.length = b.items.length) :
    (b.answered es).unanswered = b := by
  obtain ⟨rgs⟩ := b
  simp only [Batch.unanswered, Batch.answered, Batch.items_eq_flatMap_placed, Batch.mk.injEq] at h ⊢
  induction rgs generalizing es with
  | nil => rfl
  | cons rg rgs ih =>
    rw [List.flatMap_cons, List.length_append] at h
    rw [ResourceGroup.answeredAll, List.map_cons, rg.unanswered_answered (by rw [List.length_take]; omega),
      ih (by rw [List.length_drop]; omega)]

/-! ## Nothing is lost -/

/-- Sorted into distinct classes that cover them, the elements of a list are rearranged. -/
theorem perm_flatMap_filter (key : β → Endpoint) (ks : List Endpoint) (hk : ks.Nodup) (xs : List β)
    (h : ∀ x ∈ xs, key x ∈ ks) : (ks.flatMap (fun k => xs.filter (fun x => key x = k))).Perm xs := by
  induction ks generalizing xs with
  | nil =>
    cases xs with
    | nil => exact List.Perm.nil
    | cons x xs => exact absurd (h x List.mem_cons_self) List.not_mem_nil
  | cons k ks ih =>
    obtain ⟨hnot, hks⟩ := List.nodup_cons.1 hk
    have hrest : ks.flatMap (fun j => xs.filter (fun x => key x = j)) =
        ks.flatMap (fun j => (xs.filter (fun x => !decide (key x = k))).filter (fun x => key x = j)) := by
      apply List.flatMap_congr
      intro j hj
      rw [List.filter_filter]
      apply List.filter_congr
      intro x _
      by_cases hx : key x = j
      · have hne : key x ≠ k := fun hxk => hnot (hxk ▸ hx ▸ hj)
        rw [decide_eq_false hne, Bool.not_false, Bool.and_true]
      · simp [hx]
    rw [List.flatMap_cons, hrest]
    refine List.Perm.trans ?_ (List.filter_append_perm (fun x => decide (key x = k)) xs)
    apply List.Perm.append_left
    apply ih hks
    intro x hx
    obtain ⟨hmem, hne⟩ := List.mem_filter.1 hx
    rcases List.mem_cons.1 (h x hmem) with he | hin
    · simp [he] at hne
    · exact hin

/-- The parts of all answered endpoints hold the items of the batch, rearranged. -/
theorem Batch.perm_items_parts (b : Batch α) {es : List Endpoint} (h : es.length = b.items.length) :
    (es.eraseDups.flatMap (fun e => ((b.answered es).part e).items)).Perm b.items := by
  have hzip : (b.items.zip es).map Prod.fst = b.items := List.map_fst_zip (by omega)
  have hperm : (es.eraseDups.flatMap (fun e => (b.items.zip es).filter (fun p => p.2 = e))).Perm (b.items.zip es) :=
    perm_flatMap_filter Prod.snd _ (nodup_eraseDups _) _ (fun p hp => List.mem_eraseDups.2 (List.of_mem_zip hp).2)
  have hmap := hperm.map Prod.fst
  rw [hzip, List.map_flatMap] at hmap
  simpa only [Batch.items_part_answered] using hmap

/-! ## The split -/

/-- A split asks the route once for every item, in order, each with its resource and scope, and gives exactly the parts of the
answered endpoints in the order of their first answers. The answered batch is the batch itself with one answer beside each item;
the part of an endpoint has the items answered for it, in order and in place; and the parts together have every item once. -/
theorem partitionBy_eq_parts (route : Route σ α) (s : σ) (b : Batch α) :
    let answers := (route.answers s b.items).1
    let parts := (b.partitionBy route s).1
    parts = answers.eraseDups.map (fun e => (e, (b.answered answers).part e)) ∧
      b.partitionBy route.recorded (s, []) = (parts, (route.answers s b.items).2, b.items) ∧
      (b.partitionBy route s).2 = (route.answers s b.items).2 ∧
      (b.answered answers).unanswered = b ∧
      (b.answered answers).items = (b.items.zip answers).map withAnswer ∧ answers.length = b.items.length ∧
      (∀ p ∈ parts, p.2.items = ((b.items.zip answers).filter (fun q => q.2 = p.1)).map Prod.fst) ∧
      (parts.flatMap (fun p => p.2.items)).Perm b.items := by
  intro answers parts
  have hlen : answers.length = b.items.length := length_answers route s b.items
  have hparts : parts = answers.eraseDups.map (fun e => (e, (b.answered answers).part e)) := by
    show (b.partitionBy route s).1 = _
    rw [Batch.partitionBy_eq, Batch.toList_split, b.named_answered hlen]
  refine ⟨hparts, ?_, by rw [Batch.partitionBy_eq], b.unanswered_answered hlen, b.items_answered answers, hlen, ?_, ?_⟩
  · rw [Batch.partitionBy_eq, answers_recorded, List.nil_append]
    show (_, _) = ((b.partitionBy route s).1, _)
    rw [Batch.partitionBy_eq]
  · intro p hp
    rw [hparts] at hp
    obtain ⟨e, _, rfl⟩ := List.mem_map.1 hp
    exact b.items_part_answered answers e
  · rw [hparts, List.flatMap_map]
    exact b.perm_items_parts hlen

end TelemetryRouter
