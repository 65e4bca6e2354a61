import Mathlib.Data.List.Induction
import Mathlib.Data.List.Nodup
import TelemetryRouter.Telemetry.Partition

/-!
# Maps that remember the order of first use

`Indexed` says that the index of a map and its entries agree; every update keeps it. Under it an update changes the value of one
endpoint and nothing else, and a sequence of updates leaves the endpoints in the order of their first update, each with the
changes that were made for it (`toList_foldl_update`).
-/

namespace TelemetryRouter

/-! ## First occurrences -/

section FirstOccurrences

variable {κ γ : Type} [DecidableEq κ]

/-- One more element is a first occurrence when it did not occur before. -/
theorem eraseDups_concat (l : List κ) (a : κ) :
    (l ++ [a]).eraseDups = if a ∈ l then l.eraseDups else l.eraseDups ++ [a] := by
  rw [List.eraseDups_append, List.removeAll]
  by_cases ha : a ∈ l
  · rw [if_pos ha, List.filter_cons_of_neg (by simpa using ha)]
    simp
  · rw [if_neg ha, List.filter_cons_of_pos (by simpa using ha)]
    simp [List.eraseDups_cons]

theorem nodup_eraseDups (l : List κ) : l.eraseDups.Nodup := by
  induction l using List.reverseRec with
  | nil => exact List.nodup_nil
  | append_singleton l a ih =>
    rw [eraseDups_concat]
    split
    · exact ih
    · rename_i ha
      exact List.concat_eq_append ▸ ih.concat (mt List.mem_eraseDups.1 ha)

theorem filter_eraseDups (l : List κ) (a : κ) : l.eraseDups.filter (fun x => x = a) = if a ∈ l then [a] else [] := by
  rw [List.filter_eq, (nodup_eraseDups l).count]
  simp only [List.mem_eraseDups]
  split <;> rfl

/-- Where nothing occurs twice every occurrence is the first. -/
theorem eraseDups_of_nodup {l : List κ} (h : l.Nodup) : l.eraseDups = l := by
  induction l using List.reverseRec with
  | nil => rfl
  | append_singleton l a ih =>
    obtain ⟨hl, -, hd⟩ := List.nodup_append.1 h
    rw [eraseDups_concat, if_neg (fun ha => hd a ha a (by simp) rfl), ih hl]

theorem eraseDups_filter (p : κ → Bool) (l : List κ) : (l.filter p).eraseDups = l.eraseDups.filter p := by
  induction l using List.reverseRec with
  | nil => rfl
  | append_singleton l a ih =>
    rw [List.filter_append, eraseDups_concat]
    by_cases hp : p a = true
    · rw [List.filter_cons_of_pos hp, List.filter_nil, eraseDups_concat, ih]
      by_cases ha : a ∈ l
      · simp [ha, hp]
      · simp [ha, hp]
    · rw [List.filter_cons_of_neg hp, List.filter_nil, List.append_nil, ih]
      split
      · rfl
      · simp [hp]

/-- The first occurrences over groups are those of the first occurrences within each group. -/
theorem eraseDups_flatMap_eraseDups (f : γ → List κ) (gs : List γ) :
    (gs.flatMap (fun g => (f g).eraseDups)).eraseDups = (gs.flatMap f).eraseDups := by
  induction gs with
  | nil => rfl
  | cons g gs ih =>
    rw [List.flatMap_cons, List.flatMap_cons, List.eraseDups_append, List.eraseDups_append,
      eraseDups_of_nodup (nodup_eraseDups _)]
    simp only [List.removeAll]
    rw [eraseDups_filter, eraseDups_filter, ih]
    congr 1
    apply List.filter_congr
    intro b _
    simp

end FirstOccurrences

/-! ## Updates -/

namespace OrderedGroups

variable {β γ : Type}

/-- The endpoints of a map in order of first use. -/
def keys (g : OrderedGroups β) : List Endpoint := g.groups.map Prod.fst

/-- The index gives every endpoint its place among the entries, and gives no other places. -/
def Indexed (g : OrderedGroups β) : Prop := ∀ (e : Endpoint) (i : Nat), g.position? e = some i ↔ g.keys[i]? = some e

theorem indexed_empty : (empty : OrderedGroups β).Indexed := by
  intro e i
  simp [position?, keys, empty]

/-- An endpoint without a place has no entry, and the other way round. -/
theorem Indexed.position?_eq_none_iff {g : OrderedGroups β} (h : g.Indexed) (e : Endpoint) :
    g.position? e = none ↔ e ∉ g.keys := by
  rw [List.mem_iff_getElem?]
  constructor
  · rintro hn ⟨i, hi⟩
    rw [(h e i).2 hi] at hn
    nomatch hn
  · intro hn
    cases hp : g.position? e with
    | none => rfl
    | some i => exact absurd ⟨i, (h e i).1 hp⟩ hn

theorem Indexed.nodup_keys {g : OrderedGroups β} (h : g.Indexed) : g.keys.Nodup := by
  rw [List.nodup_iff_getElem?_ne_getElem?]
  intro i j hij hj heq
  obtain ⟨e, he⟩ : ∃ e, g.keys[j]? = some e := ⟨_, List.getElem?_eq_getElem hj⟩
  have hi := (h e i).2 (heq.trans he)
  have hj := (h e j).2 he
  rw [hi] at hj
  exact absurd (Option.some.inj hj) (by omega)

/-- What an update does to the entries: a known endpoint keeps its place and gets the changed value, a new one comes last and
starts from the default. -/
theorem Indexed.toList_update {g : OrderedGroups β} (h : g.Indexed) (e : Endpoint) (d : β) (change : β → β) :
    (g.update e d change).toList =
      if e ∈ g.keys then g.toList.map (fun p => if p.1 = e then (p.1, change p.2) else p) else g.toList ++ [(e, change d)] := by
  unfold update
  cases hp : g.position? e with
  | none =>
    rw [if_neg ((h.position?_eq_none_iff e).1 hp)]
    rfl
  | some i =>
    have hi := (h e i).1 hp
    rw [if_pos (List.mem_of_getElem? hi)]
    apply List.ext_getElem?
    intro j
    simp only [toList, List.getElem?_modify, List.getElem?_map]
    cases hj : g.groups[j]? with
    | none => simp
    | some p =>
      have hk : g.keys[j]? = some p.1 := by simp [keys, hj]
      have hij : i = j ↔ p.1 = e := by
        constructor
        · rintro rfl
          exact Option.some.inj (hk.symm.trans hi)
        · rintro rfl
          exact Option.some.inj (hp.symm.trans ((h p.1 j).2 hk))
      by_cases hpe : p.1 = e
      · simp [hij.2 hpe, hpe]
      · simp [mt hij.1 hpe, hpe]

theorem Indexed.keys_update {g : OrderedGroups β} (h : g.Indexed) (e : Endpoint) (d : β) (change : β → β) :
    (g.update e d change).keys = if e ∈ g.keys then g.keys else g.keys ++ [e] := by
  have ht := congrArg (List.map Prod.fst) (h.toList_update e d change)
  have hf : (Prod.fst ∘ fun p : Endpoint × β => if p.1 = e then (p.1, change p.2) else p) = Prod.fst := by
    funext p
    simp only [Function.comp_apply]
    split <;> rfl
  rw [show (g.update e d change).keys = (g.update e d change).toList.map Prod.fst from rfl, ht]
  split
  · rw [List.map_map, hf]
    rfl
  · rw [List.map_append]
    rfl

theorem Indexed.update {g : OrderedGroups β} (h : g.Indexed) (e : Endpoint) (d : β) (change : β → β) :
    (g.update e d change).Indexed := by
  intro x i
  rw [h.keys_update]
  unfold OrderedGroups.update
  cases hp : g.position? e with
  | some j =>
    rw [if_pos (List.mem_of_getElem? ((h e j).1 hp))]
    dsimp only
    exact h x i
  | none =>
    have hn := (h.position?_eq_none_iff e).1 hp
    have hl : g.groups.length = g.keys.length := by simp [keys]
    rw [if_neg hn]
    dsimp only
    rw [position?, List.lookup_cons, hl]
    by_cases hx : x = e
    · subst hx
      simp only [beq_self_eq_true, Option.some.injEq]
      constructor
      · rintro rfl
        simp
      · intro hi
        rcases Nat.lt_trichotomy i g.keys.length with hlt | heq | hgt
        · rw [List.getElem?_append_left hlt] at hi
          exact absurd (List.mem_of_getElem? hi) hn
        · exact heq.symm
        · rw [List.getElem?_eq_none (by simp; omega)] at hi
          cases hi
    · have hxe : (x == e) = false := by simpa using hx
      simp only [hxe]
      refine (h x i).trans ?_
      by_cases hlt : i < g.keys.length
      · rw [List.getElem?_append_left hlt]
      · have hnone : g.keys[i]? = none := List.getElem?_eq_none (by omega)
        rw [hnone, List.getElem?_append_right (by omega)]
        cases hi : i - g.keys.length with
        | zero => simpa using Ne.symm hx
        | succ n => simp

/-! ## Sequences of updates -/

/-- One update for every element of a list, each with the same default. -/
def updates (key : γ → Endpoint) (d : β) (change : γ → β → β) (xs : List γ) (g : OrderedGroups β) : OrderedGroups β :=
  xs.foldl (fun g x => g.update (key x) d (change x)) g

theorem Indexed.updates {g : OrderedGroups β} (h : g.Indexed) (key : γ → Endpoint) (d : β) (change : γ → β → β)
    (xs : List γ) : (updates key d change xs g).Indexed := by
  induction xs generalizing g with
  | nil => exact h
  | cons x xs ih => exact ih (h.update _ _ _)

/-- What a sequence of updates leaves: every endpoint once, in the order of the first updates, with the default as its own
updates have changed it. -/
theorem toList_updates (key : γ → Endpoint) (d : β) (change : γ → β → β) (xs : List γ) :
    (updates key d change xs empty).toList =
      (xs.map key).eraseDups.map (fun e => (e, (xs.filter (fun x => key x = e)).foldl (fun v x => change x v) d)) := by
  induction xs using List.reverseRec with
  | nil => rfl
  | append_singleton xs x ih =>
    have hstep : updates key d change (xs ++ [x]) empty = (updates key d change xs empty).update (key x) d (change x) := by
      simp [updates]
    have hkeys : (updates key d change xs empty).keys = (xs.map key).eraseDups := by
      rw [show (updates key d change xs empty).keys = (updates key d change xs empty).toList.map Prod.fst from rfl, ih]
      simp [Function.comp_def]
    rw [hstep, (indexed_empty.updates key d change xs).toList_update, hkeys, ih, List.map_append, List.map_singleton,
      eraseDups_concat]
    by_cases hx : key x ∈ xs.map key
    · rw [if_pos (List.mem_eraseDups.2 hx), if_pos hx, List.map_map]
      apply List.map_congr_left
      intro e _
      by_cases hxe : key x = e
      · simp [List.filter_append, hxe]
      · simp [List.filter_append, hxe, Ne.symm hxe]
    · rw [if_neg (mt List.mem_eraseDups.1 hx), if_neg hx, List.map_append]
      congr 1
      · apply List.map_congr_left
        intro e hmem
        have hne : key x ≠ e := fun h => hx (h ▸ List.mem_eraseDups.1 hmem)
        simp [List.filter_append, hne]
      · have hnone : xs.filter (fun y => key y = key x) = [] := by
          rw [List.filter_eq_nil_iff]
          intro y hy hk
          exact hx (of_decide_eq_true hk ▸ List.mem_map_of_mem hy)
        simp [List.filter_append, hnone]

/-- Among parts taken of one group for every endpoint it names, an endpoint has the one part that it should, if it is named. -/
theorem filter_parts {δ : Type} (named : γ → List Endpoint) (part : Endpoint → γ → δ) (e : Endpoint) (gs : List γ) :
    (gs.flatMap (fun g => (named g).eraseDups.map (fun e => (e, part e g)))).filter (fun p => p.1 = e) =
      (gs.filter (fun g => e ∈ named g)).map (fun g => (e, part e g)) := by
  induction gs with
  | nil => rfl
  | cons g gs ih =>
    rw [List.flatMap_cons, List.filter_append, ih, List.filter_map, List.filter_cons]
    simp only [Function.comp_def, filter_eraseDups]
    by_cases he : e ∈ named g
    · simp [he]
    · simp [he]

/-- A sequence of updates that takes the parts of several groups in turn, from each group one part for every endpoint it names:
every endpoint named by any group gets its parts of all groups that name it, in the order of the groups. -/
theorem toList_updates_parts {δ : Type} (named : γ → List Endpoint) (part : Endpoint → γ → δ) (d : β) (add : β → δ → β)
    (gs : List γ) :
    (updates Prod.fst d (fun p v => add v p.2) (gs.flatMap (fun g => (named g).eraseDups.map (fun e => (e, part e g))))
        empty).toList =
      (gs.flatMap named).eraseDups.map
        (fun e => (e, ((gs.filter (fun g => e ∈ named g)).map (part e)).foldl add d)) := by
  have hkeys : (gs.flatMap (fun g => (named g).eraseDups.map (fun e => (e, part e g)))).map Prod.fst =
      gs.flatMap (fun g => (named g).eraseDups) := by
    rw [List.map_flatMap]
    simp [Function.comp_def]
  rw [toList_updates, hkeys, eraseDups_flatMap_eraseDups]
  apply List.map_congr_left
  intro e _
  rw [filter_parts, List.foldl_map, List.foldl_map]

end OrderedGroups

end TelemetryRouter
