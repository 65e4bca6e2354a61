import TelemetryRouter.Proofs.ByteOrder
import TelemetryRouter.Ring

/-!
# Canonical lists of endpoints

Among the lists with given members there is one whose bytes strictly increase from each member to the next, and the normal form is that
list (`eq_normalize_iff`). A ring looks its members up by bisection of the normal form. In a list in order a bisection finds an endpoint
exactly if it stands between the bounds (`bisect_iff`), so a ring contains the members of the list that it was built from and no others
(`contains_buildWith_iff`).
-/

namespace TelemetryRouter

namespace Endpoint

/-! ## The one list in strict order -/

/-- The bytes of one endpoint are below those of another when it comes before the other and is not the same. -/
theorem bytes_lt_bytes_iff (a b : Endpoint) : a.bytes < b.bytes ↔ a.le b = true ∧ a ≠ b := by
  rw [← List.not_le, bytes_le_bytes_iff]
  constructor
  · intro hnot
    refine ⟨(Bool.or_eq_true_iff.1 (total_le a b)).resolve_right hnot, ?_⟩
    rintro rfl
    exact hnot (refl_le a)
  · rintro ⟨hle, hne⟩ hback
    exact hne (antisymm_le hle hback)

/-- A list stands in order, each member once, exactly if the bytes of each member are below those of all later ones. -/
theorem isNormal_iff_bytes (es : List Endpoint) : IsNormal es ↔ es.Pairwise (fun a b => a.bytes < b.bytes) := by
  simp only [IsNormal, bytes_lt_bytes_iff]

/-- The normal form of a list is the only list in strict order with its members. -/
theorem eq_normalize_iff (es l : List Endpoint) :
    l = normalize es ↔ l.Pairwise (fun a b => a.bytes < b.bytes) ∧ ∀ e, e ∈ l ↔ e ∈ es := by
  rw [← isNormal_iff_bytes]
  constructor
  · rintro rfl
    exact ⟨pairwise_normalize es, mem_normalize es⟩
  · rintro ⟨hnormal, hmem⟩
    exact hnormal.eq_of_mem_iff (pairwise_normalize es) (fun e => (hmem e).trans (mem_normalize es e).symm)

/-- Lists have one normal form exactly if they have the same members. -/
theorem normalize_eq_normalize_iff (es es' : List Endpoint) : normalize es = normalize es' ↔ ∀ e, e ∈ es ↔ e ∈ es' := by
  constructor
  · intro h e
    rw [← mem_normalize es, h, mem_normalize]
  · exact normalize_congr

/-- In a list in order an endpoint that comes before another one stands before it. -/
theorem IsNormal.index_lt {es : List Endpoint} (h : IsNormal es) {i j : Nat} {a b : Endpoint} (ha : es[i]? = some a)
    (hb : es[j]? = some b) (hab : a.le b = true) (hne : a ≠ b) : i < j := by
  rcases Nat.lt_trichotomy i j with hlt | rfl | hgt
  · exact hlt
  · exact absurd (Option.some.inj (ha.symm.trans hb)) hne
  · obtain ⟨hi, rfl⟩ := List.getElem?_eq_some_iff.1 ha
    obtain ⟨hj, rfl⟩ := List.getElem?_eq_some_iff.1 hb
    obtain ⟨hba, -⟩ := List.pairwise_iff_getElem.1 h j i hj hi hgt
    exact absurd (antisymm_le hab hba) hne

end Endpoint

namespace Ring

/-! ## Bisection -/

/-- In a list in order a bisection answers whether the endpoint stands between the bounds. -/
theorem bisect_iff {es : List Endpoint} (h : Endpoint.IsNormal es) (e : Endpoint) (lo hi : Nat) (hhi : hi ≤ es.length) :
    bisect es.toArray e lo hi = true ↔ ∃ i, lo ≤ i ∧ i < hi ∧ es[i]? = some e := by
  fun_induction bisect es.toArray e lo hi with
  | case1 lo hi hlt mid hnone =>
    rw [List.getElem?_toArray, List.getElem?_eq_none_iff] at hnone
    omega
  | case2 lo hi hlt mid hmid =>
    rw [List.getElem?_toArray] at hmid
    exact ⟨fun _ => ⟨mid, by omega, by omega, hmid⟩, fun _ => rfl⟩
  | case3 lo hi hlt mid m hmid hne hle ih =>
    rw [List.getElem?_toArray] at hmid
    rw [ih hhi]
    constructor
    · rintro ⟨i, hlo, hhi, hi⟩
      exact ⟨i, by omega, hhi, hi⟩
    · rintro ⟨i, hlo, hhi, hi⟩
      have hbehind : mid < i := h.index_lt hmid hi hle hne
      exact ⟨i, hbehind, hhi, hi⟩
  | case4 lo hi hlt mid m hmid hne hnle ih =>
    rw [List.getElem?_toArray] at hmid
    rw [ih (by omega)]
    constructor
    · rintro ⟨i, hlo, hhi, hi⟩
      exact ⟨i, hlo, by omega, hi⟩
    · rintro ⟨i, hlo, hhi, hi⟩
      have hle : e.le m = true := (Bool.or_eq_true_iff.1 (Endpoint.total_le m e)).resolve_left hnle
      have hbefore : i < mid := h.index_lt hi hmid hle (Ne.symm hne)
      exact ⟨i, hlo, hbefore, hi⟩
  | case5 lo hi hlt =>
    constructor
    · intro hfalse
      cases hfalse
    · rintro ⟨i, hlo, hhi, _⟩
      omega

/-- A ring whose members stand in order contains its members and no other endpoint. -/
theorem contains_iff_mem {ring : Ring} (h : Endpoint.IsNormal ring.endpoints) (e : Endpoint) :
    ring.contains e = true ↔ e ∈ ring.endpoints := by
  rw [contains, bisect_iff h e 0 ring.endpoints.length (Nat.le_refl _), List.mem_iff_getElem?]
  constructor
  · rintro ⟨i, _, _, hi⟩
    exact ⟨i, hi⟩
  · rintro ⟨i, hi⟩
    exact ⟨i, Nat.zero_le i, (List.getElem?_eq_some_iff.1 hi).1, hi⟩

/-- Under every hash a ring contains the members of the list that it was built from and no other endpoint. -/
theorem contains_buildWith_iff (hash : ByteArray → UInt64) (es : List Endpoint) (n : Nat) (e : Endpoint) :
    (buildWith hash es n).contains e = true ↔ e ∈ es := by
  have hnormal : Endpoint.IsNormal (buildWith hash es n).endpoints := Endpoint.pairwise_normalize es
  exact (contains_iff_mem hnormal e).trans (Endpoint.mem_normalize es e)

end Ring

/-- Normal forms are canonical. In the normal form of a list the bytes of each member are below those of all later ones, its members are
those of the list, and no other list is like that. Two lists have one normal form exactly if they have the same members, and a list in
normal form is left as it is. The ring of a list, whatever its number of labels, keeps the normal form, and its search in it finds exactly
the members of the list. -/
theorem Endpoint.normalize_canonical (es es' : List Endpoint) :
    (normalize es).Pairwise (fun a b => a.bytes < b.bytes) ∧ (∀ e, e ∈ normalize es ↔ e ∈ es) ∧
      (∀ l : List Endpoint, l.Pairwise (fun a b => a.bytes < b.bytes) → (∀ e, e ∈ l ↔ e ∈ es) → l = normalize es) ∧
      (normalize es = normalize es' ↔ ∀ e, e ∈ es ↔ e ∈ es') ∧
      normalize (normalize es) = normalize es ∧
      ∀ n, (Ring.build es n).endpoints = normalize es ∧ ∀ e, (Ring.build es n).contains e = true ↔ e ∈ es := by
  obtain ⟨hstrict, hmem⟩ := (eq_normalize_iff es (normalize es)).1 rfl
  refine ⟨hstrict, hmem, ?_, normalize_eq_normalize_iff es es', normalize_normalize es, fun n => ⟨rfl, fun e => ?_⟩⟩
  · intro l hl hsame
    exact (eq_normalize_iff es l).2 ⟨hl, hsame⟩
  · exact Ring.contains_buildWith_iff Sha256.position es n e

end TelemetryRouter
