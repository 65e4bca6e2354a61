import TelemetryRouter.Proofs.NormalForm

/-!
# The order of texts by their bytes

The code of a character is never the beginning of another's, and it comes before the codes of all later characters at the first byte
in which they differ. So texts are in the same order by their characters and by their bytes (`bytes_le_bytes_iff`).
-/

namespace TelemetryRouter

/-! ## Codes of characters -/

/-- Of two lists of bytes the one with the lower first byte comes first; behind equal first bytes the rests decide. -/
theorem cons_ofNat_lt_cons_ofNat_iff {m n : Nat} (hm : m < 256) (hn : n < 256) (s t : List UInt8) :
    UInt8.ofNat m :: s < UInt8.ofNat n :: t ↔ m < n ∨ m = n ∧ s < t := by
  rw [List.cons_lt_cons_iff, UInt8.lt_iff_toNat_lt, ← UInt8.toNat_inj, UInt8.toNat_ofNat_of_lt' hm, UInt8.toNat_ofNat_of_lt' hn]

/-- Numbers of up to twenty-four bits are in the order of their groups of six bits, the highest group first. -/
theorem sextets_lt {m n : Nat} (h : m < n) : m / 262144 < n / 262144 ∨ m / 262144 = n / 262144 ∧
    (m / 4096 % 64 < n / 4096 % 64 ∨ m / 4096 % 64 = n / 4096 % 64 ∧
      (m / 64 % 64 < n / 64 % 64 ∨ m / 64 % 64 = n / 64 % 64 ∧ m % 64 < n % 64)) := by
  have hsplit : ∀ a b : Nat, a < b → a / 64 < b / 64 ∨ a / 64 = b / 64 ∧ a % 64 < b % 64 := by omega
  have h4096 : ∀ a : Nat, a / 4096 = a / 64 / 64 := by omega
  have h262144 : ∀ a : Nat, a / 262144 = a / 64 / 64 / 64 := by omega
  rw [h262144, h262144, h4096, h4096]
  rcases hsplit _ _ h with h | ⟨heq, h⟩
  · rcases hsplit _ _ h with h | ⟨heq, h⟩
    · rcases hsplit _ _ h with h | ⟨heq, h⟩
      · exact .inl h
      · exact .inr ⟨heq, .inl h⟩
    · exact .inr ⟨by rw [heq], .inr ⟨by rw [heq], .inl h⟩⟩
  · exact .inr ⟨by rw [heq], .inr ⟨by rw [heq], .inr ⟨by rw [heq], h⟩⟩⟩

/-- The code of a character comes before that of a later one, whatever follows them. -/
theorem utf8EncodeChar_append_lt {c d : Char} (h : c < d) (s t : List UInt8) :
    String.utf8EncodeChar c ++ s < String.utf8EncodeChar d ++ t := by
  have hlt : c.val.toNat < d.val.toNat := h
  have hd : d.val.toNat < 0x110000 := by rcases d.valid with hd | hd <;> omega
  unfold String.utf8EncodeChar
  dsimp only
  generalize c.val.toNat = x at *
  generalize d.val.toNat = y at *
  -- Each of the codes has one of four sizes. Only where both have four bytes it takes all their groups of bits to see the order.
  split_ifs <;> simp (disch := omega) only [List.cons_append, List.nil_append, cons_ofNat_lt_cons_ofNat_iff]
  any_goals omega
  have hx : x / 262144 < 8 := by omega
  have hy : y / 262144 < 8 := by omega
  have hsextets := sextets_lt hlt
  rw [Nat.mod_eq_of_lt hx, Nat.mod_eq_of_lt hy]
  simp only [Nat.add_lt_add_iff_right, Nat.add_right_cancel_iff]
  tauto

/-! ## Texts -/

theorem toList_toUTF8 (text : String) : text.toUTF8.data.toList = text.toList.flatMap String.utf8EncodeChar := by
  rw [String.toUTF8_eq_toByteArray, ← String.utf8Encode_toList, List.utf8Encode, List.toList_data_toByteArray]

theorem flatMap_utf8EncodeChar_lt {cs ds : List Char} (h : cs < ds) :
    cs.flatMap String.utf8EncodeChar < ds.flatMap String.utf8EncodeChar := by
  induction h with
  | nil =>
    rename_i d ds
    rw [List.flatMap_nil, List.flatMap_cons]
    cases hd : String.utf8EncodeChar d with
    | nil => exact absurd (congrArg List.length hd) (by simpa using d.utf8Size_pos.ne')
    | cons x xs => exact List.nil_lt_cons x _
  | rel h =>
    rw [List.flatMap_cons, List.flatMap_cons]
    exact utf8EncodeChar_append_lt h _ _
  | cons h ih =>
    rw [List.flatMap_cons, List.flatMap_cons]
    exact List.append_left_lt ih

/-- Lists of characters are in the order of their codes. -/
theorem flatMap_utf8EncodeChar_lt_iff (cs ds : List Char) :
    cs.flatMap String.utf8EncodeChar < ds.flatMap String.utf8EncodeChar ↔ cs < ds := by
  refine ⟨fun h => ?_, flatMap_utf8EncodeChar_lt⟩
  rcases lt_trichotomy cs ds with hlt | rfl | hgt
  · exact hlt
  · exact absurd h (List.lt_irrefl _)
  · exact absurd h (List.lt_asymm (flatMap_utf8EncodeChar_lt hgt))

namespace Endpoint

/-- The bytes of an address. -/
def bytes (e : Endpoint) : List UInt8 := e.address.toUTF8.data.toList

theorem bytes_le_bytes_iff (a b : Endpoint) : a.bytes ≤ b.bytes ↔ a.le b = true := by
  rw [le_iff, ← not_lt, String.lt_iff_toList_lt, ← flatMap_utf8EncodeChar_lt_iff, ← toList_toUTF8, ← toList_toUTF8]
  exact Iff.rfl

end Endpoint

end TelemetryRouter
