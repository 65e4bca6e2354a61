import Mathlib.Data.String.Basic
import TelemetryRouter.Endpoint

/-!
# The normal form of a list of endpoints

Endpoints are ordered by their addresses, and the order is total. The normal form of a list has the members of the list
(`mem_normalize`), each of them below all later ones (`pairwise_normalize`), and depends on nothing else (`normalize_congr`).
-/

namespace TelemetryRouter

namespace Endpoint

/-! ## The order -/

theorem le_iff (a b : Endpoint) : a.le b = true ↔ a.address ≤ b.address := by
  simp only [le, Bool.not_eq_true', decide_eq_false_iff_not]
  exact not_lt

theorem trans_le (a b c : Endpoint) (hab : a.le b = true) (hbc : b.le c = true) : a.le c = true := by
  rw [le_iff] at *
  exact hab.trans hbc

theorem total_le (a b : Endpoint) : (a.le b || b.le a) = true := by
  rw [Bool.or_eq_true, le_iff, le_iff]
  exact le_total a.address b.address

theorem antisymm_le {a b : Endpoint} (hab : a.le b = true) (hba : b.le a = true) : a = b := by
  rw [le_iff] at *
  have haddress : a.address = b.address := le_antisymm hab hba
  cases a
  cases b
  exact congrArg Endpoint.mk haddress

theorem refl_le (a : Endpoint) : a.le a = true := by
  rw [le_iff]

/-! ## Dropping repetitions -/

theorem mem_collapse (es : List Endpoint) (e : Endpoint) : e ∈ collapse es ↔ e ∈ es := by
  fun_induction collapse es with
  | case1 => rfl
  | case2 => rfl
  | case3 b rest ih =>
    rw [ih]
    simp
  | case4 a b rest _ ih =>
    rw [List.mem_cons, ih, List.mem_cons (a := e) (b := a)]

/-- Of a sorted list, what is left after dropping repetitions has no two equal members. -/
theorem pairwise_collapse (es : List Endpoint) (h : es.Pairwise (fun a b => a.le b = true)) :
    (collapse es).Pairwise (fun a b => a.le b = true ∧ a ≠ b) := by
  fun_induction collapse es with
  | case1 => exact List.Pairwise.nil
  | case2 e => exact List.pairwise_singleton _ e
  | case3 b rest ih => exact ih (List.pairwise_cons.1 h).2
  | case4 a b rest hab ih =>
    obtain ⟨ha, hb⟩ := List.pairwise_cons.1 h
    refine List.pairwise_cons.2 ⟨?_, ih hb⟩
    intro c hc
    rw [mem_collapse] at hc
    refine ⟨ha c hc, ?_⟩
    rintro rfl
    have hba : b.le a = true := by
      rcases List.mem_cons.1 hc with he | hin
      · exact absurd he hab
      · exact (List.pairwise_cons.1 hb).1 a hin
    exact hab (antisymm_le (ha b List.mem_cons_self) hba)

/-! ## Lists in order -/

/-- Whether the members of a list stand in order, each once. -/
def IsNormal (es : List Endpoint) : Prop := es.Pairwise (fun a b => a.le b = true ∧ a ≠ b)

theorem IsNormal.eq_of_mem_iff {es es' : List Endpoint} (h : IsNormal es) (h' : IsNormal es') (hmem : ∀ e, e ∈ es ↔ e ∈ es') :
    es = es' :=
  have hperm : es.Perm es' := (List.perm_ext_iff_of_nodup (h.imp And.right) (h'.imp And.right)).2 hmem
  hperm.eq_of_pairwise (fun _ _ _ _ hab hba => antisymm_le hab.1 hba.1) h h'

theorem isNormal_sort {es : List Endpoint} (h : es.Nodup) : IsNormal (sort es) :=
  (List.pairwise_mergeSort trans_le total_le es).and ((List.mergeSort_perm es le).nodup_iff.2 h)

/-! ## The normal form -/

@[simp]
theorem mem_normalize (es : List Endpoint) (e : Endpoint) : e ∈ normalize es ↔ e ∈ es := by
  rw [normalize, mem_collapse, List.mem_mergeSort]

theorem pairwise_normalize (es : List Endpoint) : (normalize es).Pairwise (fun a b => a.le b = true ∧ a ≠ b) :=
  pairwise_collapse _ (List.pairwise_mergeSort trans_le total_le es)

theorem normalize_congr {es es' : List Endpoint} (h : ∀ e, e ∈ es ↔ e ∈ es') : normalize es = normalize es' :=
  IsNormal.eq_of_mem_iff (pairwise_normalize es) (pairwise_normalize es') (fun e => by rw [mem_normalize, mem_normalize, h])

theorem normalize_normalize (es : List Endpoint) : normalize (normalize es) = normalize es :=
  normalize_congr (mem_normalize es)

end Endpoint

end TelemetryRouter
