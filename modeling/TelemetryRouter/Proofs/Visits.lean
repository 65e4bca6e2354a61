import TelemetryRouter.Proofs.OrderedGroups

/-!
# Visits to the entries of a map

An update of a map has two halves: the entry of the endpoint is found, or made where there is none (`entry`), and then its value is
changed at the place that this has given (`changeAt`). Here the default of a new entry is not a value but something that makes one and may
act on a memory while it does, so that it can be told whether a default was asked for. `insertionOrdered_visits` says what any sequence of
visits leaves: a map whose index and entries agree, in the order of the first visits, and of which the next visit changes one value.
-/

namespace TelemetryRouter

namespace OrderedGroups

variable {σ β : Type}

/-! ## The two halves of an update -/

/-- The entry of an endpoint: its place, the map that it is in, and the memory of what makes defaults. -/
structure Found (σ β : Type) where
  place : Nat
  map : OrderedGroups β
  memory : σ

/-- Finds the entry of an endpoint. Where there is none, one is made at the last place, and only then a default is asked for. -/
def entry (g : OrderedGroups β) (e : Endpoint) (default : σ → β × σ) (memory : σ) : Found σ β :=
  match g.position? e with
  | some i => ⟨i, g, memory⟩
  | none =>
    let (d, memory) := default memory
    ⟨g.groups.length, ⟨(e, g.groups.length) :: g.index, g.groups ++ [(e, d)]⟩, memory⟩

/-- Changes the value at a place. -/
def changeAt (g : OrderedGroups β) (i : Nat) (change : β → β) : OrderedGroups β :=
  { g with groups := g.groups.modify i (fun p => (p.1, change p.2)) }

/-- The value of an endpoint: what stands at the place that the index gives for it. -/
def value? (g : OrderedGroups β) (e : Endpoint) : Option β :=
  (g.position? e).bind (fun i => (g.groups[i]?).map Prod.snd)

/-- A visit to the entry of an endpoint: what makes the default, and what is done to the value at the place of the entry. -/
structure Visit (σ β : Type) where
  endpoint : Endpoint
  default : σ → β × σ
  change : β → β

/-- What a visit leaves of a map and a memory. -/
def visit (state : OrderedGroups β × σ) (v : Visit σ β) : OrderedGroups β × σ :=
  let found := state.1.entry v.endpoint v.default state.2
  (found.map.changeAt found.place v.change, found.memory)

/-- What a sequence of visits leaves, from the map without entries. -/
def visits (vs : List (Visit σ β)) (memory : σ) : OrderedGroups β × σ := vs.foldl visit (empty, memory)

theorem visits_concat (vs : List (Visit σ β)) (v : Visit σ β) (memory : σ) :
    visits (vs ++ [v]) memory = visit (visits vs memory) v := by
  simp [visits]

/-- A visit updates the map, from what the default would make. Only where the endpoint has no place yet is the memory that of the
default. -/
theorem visit_eq (g : OrderedGroups β) (memory : σ) (v : Visit σ β) :
    visit (g, memory) v = (g.update v.endpoint (v.default memory).1 v.change,
      if (g.position? v.endpoint).isSome then memory else (v.default memory).2) := by
  simp only [visit, entry, update, changeAt]
  cases g.position? v.endpoint with
  | some i => rfl
  | none =>
    dsimp only
    rw [List.modify_eq_take_cons_drop (by simp)]
    simp

/-! ## Entries and values -/

/-- In an indexed map the place of an endpoint is where its entry stands. -/
theorem Indexed.position?_eq_some_iff {g : OrderedGroups β} (h : g.Indexed) (e : Endpoint) (i : Nat) :
    g.position? e = some i ↔ ∃ x, g.groups[i]? = some (e, x) := by
  rw [h e i, keys, List.getElem?_map, Option.map_eq_some_iff]
  constructor
  · rintro ⟨⟨_, x⟩, hp, rfl⟩
    exact ⟨x, hp⟩
  · rintro ⟨x, hp⟩
    exact ⟨(e, x), hp, rfl⟩

/-- In an indexed map the entry that is found or made is that of the endpoint. -/
theorem Indexed.getElem?_entry {g : OrderedGroups β} (h : g.Indexed) (e : Endpoint) (default : σ → β × σ) (memory : σ) :
    ∃ x, (g.entry e default memory).map.groups[(g.entry e default memory).place]? = some (e, x) := by
  unfold entry
  cases hp : g.position? e with
  | some i => exact (h.position?_eq_some_iff e i).1 hp
  | none => exact ⟨(default memory).1, List.getElem?_concat_length⟩

/-- In an indexed map an endpoint of the map has a place, and its entry stands there. -/
theorem Indexed.exists_position? {g : OrderedGroups β} (h : g.Indexed) {e : Endpoint} (he : e ∈ g.keys) :
    ∃ i x, g.position? e = some i ∧ g.groups[i]? = some (e, x) := by
  obtain ⟨i, hi⟩ := List.mem_iff_getElem?.1 he
  have hplace := (h e i).2 hi
  obtain ⟨x, hx⟩ := (h.position?_eq_some_iff e i).1 hplace
  exact ⟨i, x, hplace, hx⟩

/-- In an indexed map the value of an endpoint is the one that its entry has. -/
theorem Indexed.value?_eq_some_iff {g : OrderedGroups β} (h : g.Indexed) (e : Endpoint) (x : β) :
    g.value? e = some x ↔ (e, x) ∈ g.toList := by
  simp only [value?, Option.bind_eq_some_iff, Option.map_eq_some_iff, toList, List.mem_iff_getElem?]
  constructor
  · rintro ⟨i, hi, p, hp, rfl⟩
    obtain ⟨y, hy⟩ := (h.position?_eq_some_iff e i).1 hi
    obtain rfl : p = (e, y) := Option.some.inj (hp.symm.trans hy)
    exact ⟨i, hy⟩
  · rintro ⟨i, hp⟩
    exact ⟨i, (h.position?_eq_some_iff e i).2 ⟨x, hp⟩, (e, x), hp, rfl⟩

/-- An update of a known endpoint changes its value, whatever the default. -/
theorem Indexed.value?_update_of_mem {g : OrderedGroups β} (h : g.Indexed) {e : Endpoint} {x : β} (hx : g.value? e = some x) (d : β)
    (change : β → β) : (g.update e d change).value? e = some (change x) := by
  have hmem := (h.value?_eq_some_iff e x).1 hx
  have hkey : e ∈ g.keys := List.mem_map.2 ⟨(e, x), hmem, rfl⟩
  rw [(h.update e d change).value?_eq_some_iff, h.toList_update, if_pos hkey]
  exact List.mem_map.2 ⟨(e, x), hmem, if_pos rfl⟩

theorem Indexed.value?_update_of_not_mem {g : OrderedGroups β} (h : g.Indexed) {e : Endpoint} (he : e ∉ g.keys) (d : β)
    (change : β → β) : (g.update e d change).value? e = some (change d) := by
  rw [(h.update e d change).value?_eq_some_iff, h.toList_update, if_neg he]
  exact List.mem_append_right _ (List.mem_singleton_self _)

/-- An update leaves the values of all other endpoints. -/
theorem Indexed.value?_update_of_ne {g : OrderedGroups β} (h : g.Indexed) {e e' : Endpoint} (hne : e' ≠ e) (d : β)
    (change : β → β) : (g.update e d change).value? e' = g.value? e' := by
  apply Option.ext
  intro x
  rw [(h.update e d change).value?_eq_some_iff, h.value?_eq_some_iff, h.toList_update]
  split
  · constructor
    · intro hmem
      obtain ⟨p, hp, heq⟩ := List.mem_map.1 hmem
      split at heq
      · next hpe => exact absurd ((congrArg Prod.fst heq).symm.trans hpe) hne
      · exact heq ▸ hp
    · intro hmem
      exact List.mem_map.2 ⟨(e', x), hmem, if_neg hne⟩
  · rw [List.mem_append, List.mem_singleton, or_iff_left]
    exact fun heq => hne (congrArg Prod.fst heq)

/-! ## Sequences of visits -/

theorem indexed_visits (vs : List (Visit σ β)) (memory : σ) : (visits vs memory).1.Indexed := by
  induction vs using List.reverseRec with
  | nil => exact indexed_empty
  | append_singleton vs v ih =>
    rw [visits_concat, visit_eq]
    exact ih.update _ _ _

/-- The endpoints of a map in order are those visited, each at its first visit. -/
theorem keys_visits (vs : List (Visit σ β)) (memory : σ) : (visits vs memory).1.keys = (vs.map Visit.endpoint).eraseDups := by
  induction vs using List.reverseRec with
  | nil => rfl
  | append_singleton vs v ih =>
    rw [visits_concat, visit_eq, (indexed_visits vs memory).keys_update, ih, List.map_append, List.map_singleton, eraseDups_concat]
    simp only [List.mem_eraseDups]

theorem mem_keys_visits (vs : List (Visit σ β)) (memory : σ) (e : Endpoint) :
    e ∈ (visits vs memory).1.keys ↔ e ∈ vs.map Visit.endpoint := by
  rw [keys_visits, List.mem_eraseDups]

/-- What holds of the map that a sequence of visits leaves, and of the next visit to it. -/
structure InsertionOrdered (vs : List (Visit σ β)) (memory : σ) : Prop where
  /-- The index gives every endpoint visited so far a place. It is within the entries, and the entry there is the only one of the
  endpoint. -/
  indexed : ∀ e ∈ vs.map Visit.endpoint, ∃ i x, (visits vs memory).1.position? e = some i ∧
    (visits vs memory).1.groups[i]? = some (e, x) ∧ ∀ j y, (visits vs memory).1.groups[j]? = some (e, y) → j = i
  unvisited : ∀ e ∉ vs.map Visit.endpoint, (visits vs memory).1.position? e = none
  distinct : ((visits vs memory).1.toList.map Prod.fst).Nodup
  ordered : (visits vs memory).1.toList.map Prod.fst = (vs.map Visit.endpoint).eraseDups
  listed : ∀ e x, (e, x) ∈ (visits vs memory).1.toList ↔ (visits vs memory).1.value? e = some x
  /-- The place at which the next visit looks up its entry is within the entries, and the entry there is that of the endpoint. -/
  inRange : ∀ v : Visit σ β, let found := (visits vs memory).1.entry v.endpoint v.default (visits vs memory).2
    ∃ x, found.map.groups[found.place]? = some (v.endpoint, x)
  /-- The first visit to an endpoint asks for its default once, and changes what this makes. -/
  first : ∀ v : Visit σ β, v.endpoint ∉ vs.map Visit.endpoint →
    (visits (vs ++ [v]) memory).1.value? v.endpoint = some (v.change (v.default (visits vs memory).2).1) ∧
      (visits (vs ++ [v]) memory).2 = (v.default (visits vs memory).2).2
  /-- Every later visit changes the value that is there and asks for no default. -/
  again : ∀ v : Visit σ β, v.endpoint ∈ vs.map Visit.endpoint → ∃ x, (visits vs memory).1.value? v.endpoint = some x ∧
    (visits (vs ++ [v]) memory).1.value? v.endpoint = some (v.change x) ∧ (visits (vs ++ [v]) memory).2 = (visits vs memory).2
  others : ∀ (v : Visit σ β), ∀ e ≠ v.endpoint, (visits (vs ++ [v]) memory).1.value? e = (visits vs memory).1.value? e
  /-- Where the default is a value, a visit is an update. -/
  updates : ∀ (e : Endpoint) (d : β) (change : β → β), visits (vs ++ [⟨e, fun m => (d, m), change⟩]) memory =
    ((visits vs memory).1.update e d change, (visits vs memory).2)

/-- Whatever endpoints are visited in whatever order, what makes the defaults and what is done to the values, the map is an
insertion-ordered one: its index and its entries agree, an endpoint has one entry from its first visit on, and the next visit changes the
value of its own endpoint and no other. -/
theorem insertionOrdered_visits (vs : List (Visit σ β)) (memory : σ) : InsertionOrdered vs memory where
  indexed := fun e he => by
    have hindexed := indexed_visits vs memory
    obtain ⟨i, x, hplace, hx⟩ := hindexed.exists_position? ((mem_keys_visits vs memory e).2 he)
    refine ⟨i, x, hplace, hx, fun j y hy => ?_⟩
    have hother := (hindexed.position?_eq_some_iff e j).2 ⟨y, hy⟩
    exact Option.some.inj (hother.symm.trans hplace)
  unvisited := fun e he => ((indexed_visits vs memory).position?_eq_none_iff e).2 (mt (mem_keys_visits vs memory e).1 he)
  distinct := (indexed_visits vs memory).nodup_keys
  ordered := keys_visits vs memory
  listed := fun e x => ((indexed_visits vs memory).value?_eq_some_iff e x).symm
  inRange := fun v => (indexed_visits vs memory).getElem?_entry v.endpoint v.default _
  first := fun v hv => by
    have hnew := mt (mem_keys_visits vs memory v.endpoint).1 hv
    have hplace := ((indexed_visits vs memory).position?_eq_none_iff v.endpoint).2 hnew
    rw [visits_concat, visit_eq, hplace]
    exact ⟨(indexed_visits vs memory).value?_update_of_not_mem hnew _ _, rfl⟩
  again := fun v hv => by
    have hindexed := indexed_visits vs memory
    obtain ⟨i, x, hplace, hx⟩ := hindexed.exists_position? ((mem_keys_visits vs memory v.endpoint).2 hv)
    have hvalue := (hindexed.value?_eq_some_iff v.endpoint x).2 (List.mem_of_getElem? hx)
    rw [visits_concat, visit_eq, hplace]
    exact ⟨x, hvalue, hindexed.value?_update_of_mem hvalue _ _, rfl⟩
  others := fun v e hne => by
    rw [visits_concat, visit_eq]
    exact (indexed_visits vs memory).value?_update_of_ne hne _ _
  updates := fun e d change => by
    rw [visits_concat, visit_eq, ite_self]

/-- Of three visits, the third to an endpoint that the first has met, two ask for their defaults. -/
example :
    let v : String → Visit Nat Nat := fun address => ⟨⟨address⟩, fun n => (10 * n, n + 1), (· + 1)⟩
    let after := visits [v "b", v "a", v "b"] 1
    after.1.toList = [(⟨"b"⟩, 12), (⟨"a"⟩, 21)] ∧ after.2 = 3 := by decide

end OrderedGroups

end TelemetryRouter
