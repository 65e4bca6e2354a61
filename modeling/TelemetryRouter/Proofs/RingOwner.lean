import TelemetryRouter.Proofs.ByteOrder
import TelemetryRouter.Ring

/-!
# Who owns a position of the ring

A position belongs to the member one of whose labels lies nearest to it in the direction of the ring, and of several members with
a label at that place to the first in order (`ownerAt_eq_some_iff`). The ring is a sorted list of settled claims and its owner is
found by a search with a wrap at the end; this says what they amount to, for every hash, and collisions of labels included. The
search therefore finds what trying all labels of all members would find (`owner_eq_some_iff_shortest`), and what a change of the fleet
moves follows from it too (`owner_eq_or_changed`).
-/

namespace TelemetryRouter

namespace Ring

/-! ## Claims -/

/-- A place is claimed by every member that has a label there. -/
theorem mem_claims (hash : ByteArray → UInt64) (es : List Endpoint) (n : Nat) (x : UInt64) (e : Endpoint) :
    (x, e) ∈ claims hash es n ↔ e ∈ es ∧ ∃ i < n, hash (label e i).toUTF8 = x := by
  simp only [claims, List.mem_flatMap, List.mem_map, List.mem_range, Prod.mk.injEq]
  constructor
  · rintro ⟨a, ha, i, hi, hx, rfl⟩
    exact ⟨ha, i, hi, hx⟩
  · rintro ⟨he, i, hi, hx⟩
    exact ⟨e, he, i, hi, hx, rfl⟩

theorem pairwise_claims (hash : ByteArray → UInt64) {es : List Endpoint} (n : Nat)
    (h : es.Pairwise (fun a b => a.le b = true ∧ a ≠ b)) : (claims hash es n).Pairwise (fun p q => p.2.le q.2 = true) := by
  rw [claims, List.pairwise_flatMap]
  constructor
  · intro e _
    rw [List.pairwise_map]
    exact List.Pairwise.imp (fun _ => e.refl_le) (List.pairwise_lt_range (n := n))
  · refine h.imp ?_
    intro a b hab p hp q hq
    obtain ⟨i, _, rfl⟩ := List.mem_map.1 hp
    obtain ⟨j, _, rfl⟩ := List.mem_map.1 hq
    exact hab.1

/-! ## Settling -/

/-- The order of claims by their places. -/
def placeLe (p q : UInt64 × Endpoint) : Bool := p.1 ≤ q.1

theorem trans_placeLe (p q r : UInt64 × Endpoint) (hpq : placeLe p q = true) (hqr : placeLe q r = true) :
    placeLe p r = true := by
  simp only [placeLe, decide_eq_true_eq] at *
  exact UInt64.le_trans hpq hqr

theorem total_placeLe (p q : UInt64 × Endpoint) : (placeLe p q || placeLe q p) = true := by
  simp only [placeLe, Bool.or_eq_true, decide_eq_true_eq]
  exact UInt64.le_total p.1 q.1

/-- Sorting by place keeps the claims of one place in their order. -/
theorem filter_mergeSort_placeLe (ps : List (UInt64 × Endpoint)) (x : UInt64) :
    (ps.mergeSort placeLe).filter (fun p => p.1 = x) = ps.filter (fun p => p.1 = x) := by
  have hequal : (ps.filter (fun p => p.1 = x)).Pairwise (fun p q => placeLe p q = true) := by
    rw [List.pairwise_filter]
    refine List.Pairwise.imp ?_ (List.pairwise_of_forall (fun _ _ => trivial) : ps.Pairwise (fun _ _ => True))
    intro p q _ hp hq
    rw [placeLe, of_decide_eq_true hp, of_decide_eq_true hq]
    exact decide_eq_true (UInt64.le_refl x)
  have hsub := (List.sublist_mergeSort trans_placeLe total_placeLe hequal List.filter_sublist).filter
    (fun p => decide (p.1 = x))
  rw [List.filter_filter] at hsub
  simp only [Bool.and_self] at hsub
  refine (hsub.eq_of_length ?_).symm
  exact ((List.mergeSort_perm ps _).filter _).length_eq.symm

/-- Claims behind one that is followed by a claim of another place are all of later places. -/
theorem lt_of_ne_next {p q r : UInt64 × Endpoint} {rest : List (UInt64 × Endpoint)}
    (h : (p :: q :: rest).Pairwise (fun p q => placeLe p q = true)) (hpq : ¬p.1 = q.1) (hr : r ∈ q :: rest) : p.1 < r.1 := by
  obtain ⟨hp, hq⟩ := List.pairwise_cons.1 h
  have hle : p.1 ≤ q.1 := of_decide_eq_true (hp q List.mem_cons_self)
  have hqr : q.1 ≤ r.1 := by
    rcases List.mem_cons.1 hr with rfl | hin
    · exact UInt64.le_refl _
    · exact of_decide_eq_true ((List.pairwise_cons.1 hq).1 r hin)
  exact UInt64.lt_of_lt_of_le (UInt64.lt_of_le_of_ne hle hpq) hqr

/-- Of claims in the order of their places, settling keeps the first claim of each place. -/
theorem mem_settle (ps : List (UInt64 × Endpoint)) (h : ps.Pairwise (fun p q => placeLe p q = true)) (x : UInt64)
    (e : Endpoint) : (x, e) ∈ settle ps ↔ ps.find? (fun p => p.1 = x) = some (x, e) := by
  fun_induction settle ps with
  | case1 => simp
  | case2 p =>
    by_cases hx : p.1 = x
    · simp [hx, eq_comm]
    · have hne : (x, e) ≠ p := fun he => hx (congrArg Prod.fst he).symm
      simp [hx, hne]
  | case3 p q rest hpq ih =>
    have hsub : (p :: rest).Sublist (p :: q :: rest) := (List.sublist_cons_self q rest).cons_cons p
    rw [ih (h.sublist hsub)]
    by_cases hx : p.1 = x
    · simp [hx]
    · simp [hx, hpq ▸ hx]
  | case4 p q rest hpq ih =>
    rw [List.mem_cons, ih (List.pairwise_cons.1 h).2]
    by_cases hx : p.1 = x
    · subst hx
      have hnone : (q :: rest).find? (fun r => r.1 = p.1) ≠ some (p.1, e) := by
        intro hf
        have hlt := lt_of_ne_next h hpq (List.mem_of_find?_eq_some hf)
        exact absurd hlt (UInt64.lt_irrefl _)
      have hsome : (p :: q :: rest).find? (fun r => r.1 = p.1) = some p := List.find?_cons_of_pos (decide_eq_true rfl)
      rw [hsome, Option.some.injEq, eq_comm]
      exact or_iff_left hnone
    · have hne : (x, e) ≠ p := fun he => hx (congrArg Prod.fst he).symm
      have hskip : (p :: q :: rest).find? (fun r => r.1 = x) = (q :: rest).find? (fun r => r.1 = x) :=
        List.find?_cons_of_neg (by simpa using hx)
      rw [hskip]
      exact or_iff_right hne

theorem pairwise_settle (ps : List (UInt64 × Endpoint)) (h : ps.Pairwise (fun p q => placeLe p q = true)) :
    (settle ps).Pairwise (fun p q => p.1 < q.1) := by
  fun_induction settle ps with
  | case1 => exact List.Pairwise.nil
  | case2 p => exact List.pairwise_singleton _ p
  | case3 p q rest _ ih => exact ih (h.sublist ((List.sublist_cons_self q rest).cons_cons p))
  | case4 p q rest hpq ih =>
    have hrest := (List.pairwise_cons.1 h).2
    refine List.pairwise_cons.2 ⟨?_, ih hrest⟩
    intro r hr
    exact lt_of_ne_next h hpq (List.mem_of_find?_eq_some ((mem_settle _ hrest r.1 r.2).1 hr))

/-! ## Positions -/

variable (hash : ByteArray → UInt64) (es : List Endpoint) (n : Nat)

theorem positions_buildWith :
    (buildWith hash es n).positions = settle ((claims hash (Endpoint.normalize es) (max n 1)).mergeSort placeLe) := rfl

theorem pairwise_positions : (buildWith hash es n).positions.Pairwise (fun p q => p.1 < q.1) := by
  rw [positions_buildWith]
  exact pairwise_settle _ (List.pairwise_mergeSort trans_placeLe total_placeLe _)

theorem mem_positions_iff_find? (x : UInt64) (e : Endpoint) :
    (x, e) ∈ (buildWith hash es n).positions ↔
      (claims hash (Endpoint.normalize es) (max n 1)).find? (fun p => p.1 = x) = some (x, e) := by
  have hsorted := List.pairwise_mergeSort trans_placeLe total_placeLe (claims hash (Endpoint.normalize es) (max n 1))
  rw [positions_buildWith, mem_settle _ hsorted, ← List.head?_filter, filter_mergeSort_placeLe, List.head?_filter]

theorem exists_position {x : UInt64} {a : Endpoint} (h : (x, a) ∈ claims hash (Endpoint.normalize es) (max n 1)) :
    ∃ e, (x, e) ∈ (buildWith hash es n).positions := by
  have hsome : ((claims hash (Endpoint.normalize es) (max n 1)).find? (fun p => p.1 = x)).isSome = true :=
    List.find?_isSome.2 ⟨(x, a), h, decide_eq_true rfl⟩
  obtain ⟨⟨y, e⟩, hp⟩ := Option.isSome_iff_exists.1 hsome
  obtain rfl : y = x := by simpa using List.find?_some hp
  exact ⟨e, (mem_positions_iff_find? hash es n y e).2 hp⟩

/-- A position is held by the first in order of the members that have a label there. -/
theorem mem_positions_iff (x : UInt64) (e : Endpoint) :
    (x, e) ∈ (buildWith hash es n).positions ↔
      (x, e) ∈ claims hash (Endpoint.normalize es) (max n 1) ∧
        ∀ a, (x, a) ∈ claims hash (Endpoint.normalize es) (max n 1) → e.le a = true := by
  rw [mem_positions_iff_find?]
  have hclaims := pairwise_claims hash (max n 1) (Endpoint.pairwise_normalize es)
  generalize claims hash (Endpoint.normalize es) (max n 1) = ps at hclaims
  induction ps with
  | nil => simp
  | cons p ps ih =>
    obtain ⟨hp, hps⟩ := List.pairwise_cons.1 hclaims
    rw [List.find?_cons]
    by_cases hx : p.1 = x
    · obtain ⟨y, b⟩ := p
      obtain rfl : y = x := hx
      simp only [decide_true, Option.some.injEq, Prod.mk.injEq, true_and, List.mem_cons]
      constructor
      · rintro rfl
        refine ⟨Or.inl rfl, ?_⟩
        rintro a (rfl | ha)
        · exact a.refl_le
        · exact hp (y, a) ha
      · rintro ⟨he, hall⟩
        rcases he with rfl | he
        · rfl
        · exact Endpoint.antisymm_le (hp (y, e) he) (hall b (Or.inl rfl))
    · have hne : ∀ a, (x, a) ≠ p := fun a he => hx (congrArg Prod.fst he).symm
      simp only [hx, decide_false, List.mem_cons, hne, false_or]
      exact ih hps

/-! ## Owners -/

/-- The way from a position to a label of an endpoint, in the direction of the ring and past its end if need be. -/
def way (hash : ByteArray → UInt64) (k : UInt64) (e : Endpoint) (i : Nat) : UInt64 := hash (label e i).toUTF8 - k

/-- The member of a list that is nearest to a position: the way to one of its labels is the shortest there is, and no other
member with as short a way comes before it. -/
def Nearest (hash : ByteArray → UInt64) (es : List Endpoint) (n : Nat) (k : UInt64) (e : Endpoint) : Prop :=
  e ∈ es ∧ ∃ i < n, ∀ a ∈ es, ∀ j < n, way hash k e i < way hash k a j ∨ way hash k e i = way hash k a j ∧ e.le a = true

theorem Nearest.unique {hash : ByteArray → UInt64} {es fs : List Endpoint} {n : Nat} {k : UInt64} {e f : Endpoint}
    (he : Nearest hash es n k e) (hf : Nearest hash fs n k f) (hef : e ∈ fs) (hfe : f ∈ es) : e = f := by
  obtain ⟨-, i, hi, hmin⟩ := he
  obtain ⟨-, j, hj, hmin'⟩ := hf
  rcases hmin f hfe j hj with hlt | ⟨heq, hle⟩
  · rcases hmin' e hef i hi with hlt' | ⟨heq', -⟩
    · exact absurd (UInt64.lt_trans hlt hlt') (UInt64.lt_irrefl _)
    · exact absurd hlt (heq' ▸ UInt64.lt_irrefl _)
  · rcases hmin' e hef i hi with hlt' | ⟨-, hle'⟩
    · exact absurd hlt' (heq ▸ UInt64.lt_irrefl _)
    · exact Endpoint.antisymm_le hle hle'

/-- The nearest member stays the nearest in every smaller list that has it. -/
theorem Nearest.subset {hash : ByteArray → UInt64} {es fs : List Endpoint} {n : Nat} {k : UInt64} {e : Endpoint}
    (he : Nearest hash fs n k e) (hsub : es ⊆ fs) (hmem : e ∈ es) : Nearest hash es n k e := by
  obtain ⟨-, i, hi, hmin⟩ := he
  exact ⟨hmem, i, hi, fun a ha j hj => hmin a (hsub ha) j hj⟩

/-- Of two positions the way to the first is no longer when both lie on one side of the start and the first is lower, or when
only the second lies behind the end of the ring. -/
theorem way_le_way {k x y : UInt64} (h : k ≤ x ∧ (x ≤ y ∨ y < k) ∨ x ≤ y ∧ y < k) : x - k ≤ y - k := by
  simp only [UInt64.le_iff_toNat_le, UInt64.lt_iff_toNat_lt, UInt64.toNat_sub] at *
  have hk := k.toNat_lt
  have hx := x.toNat_lt
  have hy := y.toNat_lt
  omega

/-- Of positions in ascending order the search finds the one with the shortest way from a given position. -/
theorem ownerAt_shortest (ring : Ring) (h : ring.positions.Pairwise (fun p q => p.1 < q.1)) (k : UInt64) (e : Endpoint)
    (ho : ring.ownerAt k = some e) : ∃ x, (x, e) ∈ ring.positions ∧ ∀ q ∈ ring.positions, x - k ≤ q.1 - k := by
  unfold ownerAt at ho
  split at ho
  · rename_i p hp
    obtain rfl := Option.some.inj ho
    refine ⟨p.1, List.mem_of_find?_eq_some hp, ?_⟩
    obtain ⟨hk, before, after, hsplit, hbefore⟩ := List.find?_eq_some_iff_append.1 hp
    have hk : k ≤ p.1 := of_decide_eq_true hk
    intro q hq
    rw [hsplit, List.mem_append, List.mem_cons] at hq
    rcases hq with hq | rfl | hq
    · have hlt : q.1 < k := by simpa using hbefore q hq
      exact way_le_way (Or.inl ⟨hk, Or.inr hlt⟩)
    · exact UInt64.le_refl _
    · rw [hsplit] at h
      have hlt := (List.pairwise_cons.1 (List.pairwise_append.1 h).2.1).1 q hq
      exact way_le_way (Or.inl ⟨hk, Or.inl (UInt64.le_of_lt hlt)⟩)
  · rename_i hnone
    rw [List.find?_eq_none] at hnone
    have hbelow : ∀ q ∈ ring.positions, q.1 < k := fun q hq => by simpa using hnone q hq
    cases hpos : ring.positions with
    | nil => simp [hpos] at ho
    | cons p rest =>
      rw [hpos] at h ho hbelow
      obtain rfl : p.2 = e := by simpa using ho
      refine ⟨p.1, List.mem_cons_self, ?_⟩
      intro q hq
      rcases List.mem_cons.1 hq with rfl | hin
      · exact UInt64.le_refl _
      · exact way_le_way (Or.inr ⟨UInt64.le_of_lt ((List.pairwise_cons.1 h).1 q hin), hbelow q hq⟩)

theorem ownerAt_eq_none_iff (ring : Ring) (k : UInt64) : ring.ownerAt k = none ↔ ring.positions = [] := by
  unfold ownerAt
  split
  · rename_i p hp
    constructor
    · intro h
      nomatch h
    · intro h
      rw [h] at hp
      nomatch hp
  · rw [Option.map_eq_none_iff, List.head?_eq_none_iff]

theorem settle_ne_nil (ps : List (UInt64 × Endpoint)) (h : ps ≠ []) : settle ps ≠ [] := by
  fun_induction settle ps with
  | case1 => exact h
  | case2 p => exact h
  | case3 p q rest _ ih => exact ih (List.cons_ne_nil _ _)
  | case4 p q rest _ _ => exact List.cons_ne_nil _ _

/-- A ring has no positions exactly when it has no members. -/
theorem positions_eq_nil_iff : (buildWith hash es n).positions = [] ↔ es = [] := by
  rw [positions_buildWith]
  constructor
  · intro h
    by_contra hne
    obtain ⟨e, he⟩ := List.exists_mem_of_ne_nil es hne
    have hclaim : (hash (label e 0).toUTF8, e) ∈ claims hash (Endpoint.normalize es) (max n 1) :=
      (mem_claims _ _ _ _ _).2 ⟨(Endpoint.mem_normalize es e).2 he, 0, by omega, rfl⟩
    exact settle_ne_nil _ (List.ne_nil_of_mem (List.mem_mergeSort.2 hclaim)) h
  · rintro rfl
    simp [claims, Endpoint.normalize, Endpoint.collapse, settle]

/-- An owner is nearest to the position among the members. -/
theorem nearest_of_ownerAt {k : UInt64} {e : Endpoint} (h : (buildWith hash es n).ownerAt k = some e) :
    Nearest hash es (max n 1) k e := by
  obtain ⟨x, hx, hshort⟩ := ownerAt_shortest _ (pairwise_positions hash es n) k e h
  obtain ⟨hclaim, hfirst⟩ := (mem_positions_iff hash es n x e).1 hx
  obtain ⟨he, i, hi, rfl⟩ := (mem_claims _ _ _ _ _).1 hclaim
  refine ⟨(Endpoint.mem_normalize es e).1 he, i, hi, ?_⟩
  intro a ha j hj
  have hother : (hash (label a j).toUTF8, a) ∈ claims hash (Endpoint.normalize es) (max n 1) :=
    (mem_claims _ _ _ _ _).2 ⟨(Endpoint.mem_normalize es a).2 ha, j, hj, rfl⟩
  obtain ⟨b, hb⟩ := exists_position hash es n hother
  rcases UInt64.lt_or_eq_of_le (hshort _ hb) with hlt | heq
  · exact Or.inl hlt
  · have hplace : hash (label e i).toUTF8 = hash (label a j).toUTF8 := by simpa using heq
    exact Or.inr ⟨heq, hfirst a (hplace ▸ hother)⟩

/-- The owner of a position is the nearest of the members. -/
theorem ownerAt_eq_some_iff {k : UInt64} {e : Endpoint} :
    (buildWith hash es n).ownerAt k = some e ↔ Nearest hash es (max n 1) k e := by
  constructor
  · exact nearest_of_ownerAt hash es n
  · intro h
    cases ho : (buildWith hash es n).ownerAt k with
    | none =>
      rw [ownerAt_eq_none_iff, positions_eq_nil_iff] at ho
      exact absurd h.1 (ho ▸ List.not_mem_nil)
    | some a =>
      have ha := nearest_of_ownerAt hash es n ho
      rw [ha.unique h ha.1 h.1]

/-! ## Trying all labels -/

/-- How far a label of an endpoint lies behind a key on the ring of two to the sixty-fourth positions. -/
def distance (hash : ByteArray → UInt64) (key : RoutingKey) (e : Endpoint) (i : Nat) : Int :=
  ((hash (label e i).toUTF8).toNat - (hash key.toByteArray).toNat : Int) % UInt64.size

/-- The way to a label is as long as the label is distant. -/
theorem toNat_way (hash : ByteArray → UInt64) (key : RoutingKey) (e : Endpoint) (i : Nat) :
    ((way hash (hash key.toByteArray) e i).toNat : Int) = distance hash key e i := by
  have hlabel := (hash (label e i).toUTF8).toNat_lt
  have hkey := (hash key.toByteArray).toNat_lt
  have hsize : (UInt64.size : Int) = 18446744073709551616 := rfl
  rw [way, distance, UInt64.toNat_sub, hsize]
  omega

/-- The nearest member is the one with the least distance and, of those with that distance, the first in the order of bytes. -/
theorem nearest_iff (es : List Endpoint) (n : Nat) (key : RoutingKey) (e : Endpoint) :
    Nearest hash es n (hash key.toByteArray) e ↔ e ∈ es ∧ ∃ i < n, ∀ a ∈ es, ∀ j < n,
      distance hash key e i < distance hash key a j ∨ distance hash key e i = distance hash key a j ∧ e.bytes ≤ a.bytes := by
  simp only [Nearest, ← toNat_way, Int.ofNat_lt, Int.natCast_inj, UInt64.lt_iff_toNat_lt, ← UInt64.toNat_inj,
    Endpoint.bytes_le_bytes_iff]

/-- The owner of a key is what trying all labels of all members finds, for every hash: there is none exactly when there are no
endpoints, and otherwise it is the endpoint with the least distance from the key to one of its labels, the first in the order of
bytes among several. It therefore depends on the set of the endpoints alone. -/
theorem owner_eq_some_iff_shortest (hash : ByteArray → UInt64) (es : List Endpoint) (n : Nat) (key : RoutingKey) :
    ((buildWith hash es n).ownerWith hash key = none ↔ es = []) ∧
      (∀ e, (buildWith hash es n).ownerWith hash key = some e ↔ e ∈ es ∧ ∃ i < max n 1, ∀ a ∈ es, ∀ j < max n 1,
        distance hash key e i < distance hash key a j ∨
          distance hash key e i = distance hash key a j ∧ e.bytes ≤ a.bytes) ∧
      (∀ fs, (∀ e, e ∈ fs ↔ e ∈ es) →
        (buildWith hash fs n).ownerWith hash key = (buildWith hash es n).ownerWith hash key) := by
  refine ⟨?_, fun e => ?_, fun fs hfs => ?_⟩
  · rw [ownerWith, ownerAt_eq_none_iff, positions_eq_nil_iff]
  · rw [ownerWith, ownerAt_eq_some_iff, nearest_iff]
  · refine Option.ext (fun e => ?_)
    simp only [ownerWith, ownerAt_eq_some_iff, Nearest, hfs]

/-! ## Changes of the fleet -/

/-- A change of the fleet moves a key only from an endpoint that left or to one that came, for every hash, collisions included.
Of two fleets of which one holds the other, the owner in the larger one owns the key in the smaller one too if it is a member. -/
theorem owner_eq_or_changed (hash : ByteArray → UInt64) (es fs : List Endpoint) (n : Nat) (key : RoutingKey) :
    (∀ e f, (buildWith hash es n).ownerWith hash key = some e → (buildWith hash fs n).ownerWith hash key = some f →
        e ≠ f → e ∉ fs ∨ f ∉ es) ∧
      (es ⊆ fs → ∀ f, (buildWith hash fs n).ownerWith hash key = some f → f ∈ es →
        (buildWith hash es n).ownerWith hash key = some f) := by
  simp only [ownerWith, ownerAt_eq_some_iff]
  constructor
  · intro e f he hf hne
    by_contra hboth
    rw [not_or, not_not, not_not] at hboth
    exact hne (he.unique hf hboth.1 hboth.2)
  · intro hsub f hf hmem
    exact hf.subset hsub hmem

end Ring

end TelemetryRouter
