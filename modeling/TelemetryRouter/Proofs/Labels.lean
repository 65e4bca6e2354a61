import Mathlib.Data.Finset.Prod
import TelemetryRouter.Proofs.PortText
import TelemetryRouter.Proofs.RingOwner

/-!
# How many positions a ring has

An address may itself hold colons and end in a number, and still no two labels are equal (`label_inj`): the index of a label stands behind
its last colon, because a number is written without one, and a number is known by its text. A ring therefore has as many labels as its
members times the labels of each, and as many positions as these labels have hashes (`positionCount_eq_card_hashes`); it falls short of
the product only where two labels have one hash (`label_inj_and_positionCount`).
-/

namespace TelemetryRouter

namespace Ring

/-! ## Labels -/

theorem toList_toString (i : Nat) : (toString i).toList = Nat.toDigits 10 i := by simp

theorem toString_inj {i i' : Nat} (h : toString i = toString i') : i = i' := by
  have hdigits : Nat.toDigits 10 i = Nat.toDigits 10 i' := by rw [← toList_toString, h, toList_toString]
  rw [← Nat.ofDigitChars_toDigits (b := 10) (n := i) (by decide) (by decide), hdigits,
    Nat.ofDigitChars_toDigits (by decide) (by decide)]

theorem colon_not_mem_toString (i : Nat) : ':' ∉ (toString i).toList := by
  intro hcolon
  rw [toList_toString] at hcolon
  have hdigit : ':'.isDigit = true := Nat.isDigit_of_mem_toDigits (by decide) (by decide) hcolon
  exact absurd hdigit (by decide)

theorem splitLastColon_label (e : Endpoint) (i : Nat) :
    Endpoint.splitLastColon (label e i).toList = some (e.address.toList, (toString i).toList) := by
  have hchars : (label e i).toList = e.address.toList ++ ':' :: (toString i).toList := by simp [label]
  rw [hchars, Endpoint.splitLastColon_append (colon_not_mem_toString i)]

/-- Labels are equal only for one endpoint and one index. -/
theorem label_inj {e e' : Endpoint} {i i' : Nat} : label e i = label e' i' ↔ e = e' ∧ i = i' := by
  constructor
  · intro h
    have hsplit := splitLastColon_label e i
    rw [h, splitLastColon_label e' i', Option.some.injEq, Prod.mk.injEq, String.toList_inj, String.toList_inj] at hsplit
    obtain ⟨haddress, hindex⟩ := hsplit
    refine ⟨?_, (toString_inj hindex).symm⟩
    cases e
    cases e'
    exact congrArg Endpoint.mk haddress.symm
  · rintro ⟨rfl, rfl⟩
    rfl

/-- The labels that a ring of a list gives out: so many for each member, however often the list has it. -/
def labels (es : List Endpoint) (n : Nat) : Finset String :=
  (es.toFinset ×ˢ Finset.range (max n 1)).image (fun p => label p.1 p.2)

theorem mem_labels {es : List Endpoint} {n : Nat} {l : String} : l ∈ labels es n ↔ ∃ e ∈ es, ∃ i < max n 1, label e i = l := by
  simp only [labels, Finset.mem_image, Finset.mem_product, List.mem_toFinset, Finset.mem_range, Prod.exists]
  constructor
  · rintro ⟨e, i, ⟨he, hi⟩, hl⟩
    exact ⟨e, he, i, hi, hl⟩
  · rintro ⟨e, he, i, hi, hl⟩
    exact ⟨e, i, ⟨he, hi⟩, hl⟩

theorem card_labels (es : List Endpoint) (n : Nat) : (labels es n).card = es.toFinset.card * max n 1 := by
  have hinj : Function.Injective (fun p : Endpoint × Nat => label p.1 p.2) :=
    fun _ _ h => Prod.ext (label_inj.1 h).1 (label_inj.1 h).2
  rw [labels, Finset.card_image_of_injective _ hinj, Finset.card_product, Finset.card_range]

/-! ## Positions -/

variable (hash : ByteArray → UInt64) (es : List Endpoint) (n : Nat)

/-- The places of a ring are the hashes of its labels, each occupied once. -/
theorem toFinset_places :
    ((buildWith hash es n).positions.map Prod.fst).toFinset = (labels es n).image (fun l => hash l.toUTF8) := by
  ext x
  simp only [List.mem_toFinset, List.mem_map, Prod.exists, exists_and_right, exists_eq_right, Finset.mem_image, mem_labels]
  constructor
  · rintro ⟨e, hposition⟩
    have hclaim := ((mem_positions_iff hash es n x e).1 hposition).1
    obtain ⟨he, i, hi, hx⟩ := (mem_claims _ _ _ _ _).1 hclaim
    exact ⟨label e i, ⟨e, (Endpoint.mem_normalize es e).1 he, i, hi, rfl⟩, hx⟩
  · rintro ⟨_, ⟨e, he, i, hi, rfl⟩, hx⟩
    exact exists_position hash es n ((mem_claims _ _ _ _ e).2 ⟨(Endpoint.mem_normalize es e).2 he, i, hi, hx⟩)

/-- A ring has as many positions as its labels have hashes. -/
theorem positionCount_eq_card_hashes :
    (buildWith hash es n).positionCount = ((labels es n).image (fun l => hash l.toUTF8)).card := by
  have hnodup : ((buildWith hash es n).positions.map Prod.fst).Nodup :=
    List.pairwise_map.2 ((pairwise_positions hash es n).imp UInt64.ne_of_lt)
  rw [← toFinset_places, List.toFinset_card_of_nodup hnodup, List.length_map, positionCount]

/-- Labels never coincide, whatever colons and digits the addresses hold, so a ring gives out as many as its members times the labels of
each, a count of zero being taken as one. For every hash the ring has as many positions as these labels have hashes. Those are at most
that product, and exactly that many when no two labels have one hash. -/
theorem label_inj_and_positionCount :
    (∀ e e' i i', label e i = label e' i' ↔ e = e' ∧ i = i') ∧
      (labels es n).card = es.toFinset.card * max n 1 ∧
      (buildWith hash es n).positionCount = ((labels es n).image (fun l => hash l.toUTF8)).card ∧
      (buildWith hash es n).positionCount ≤ es.toFinset.card * max n 1 ∧
      ((buildWith hash es n).positionCount = es.toFinset.card * max n 1 ↔
        ∀ e ∈ es, ∀ i < max n 1, ∀ e' ∈ es, ∀ i' < max n 1,
          hash (label e i).toUTF8 = hash (label e' i').toUTF8 → e = e' ∧ i = i') := by
  refine ⟨fun _ _ _ _ => label_inj, card_labels es n, positionCount_eq_card_hashes hash es n, ?_, ?_⟩
  · rw [positionCount_eq_card_hashes, ← card_labels]
    exact Finset.card_image_le
  · rw [positionCount_eq_card_hashes, ← card_labels, Finset.card_image_iff]
    constructor
    · intro hinj e he i hi e' he' i' hi' hsame
      exact label_inj.1 (hinj (mem_labels.2 ⟨e, he, i, hi, rfl⟩) (mem_labels.2 ⟨e', he', i', hi', rfl⟩) hsame)
    · intro hall l hl l' hl' hsame
      obtain ⟨e, he, i, hi, rfl⟩ := mem_labels.1 hl
      obtain ⟨e', he', i', hi', rfl⟩ := mem_labels.1 hl'
      exact label_inj.2 (hall e he i hi e' he' i' hi' hsame)

end Ring

end TelemetryRouter
