import Mathlib.Data.List.Perm.Basic
import Mathlib.Data.String.Basic
import TelemetryRouter.Telemetry.Batch

/-!
# The identity of a resource

The identity is a canonical form of what the attributes of a resource say: two resources have one identity exactly when the
signatures of their attributes, that is name, letter of the kind and text, agree up to the order (`identity_eq_identity_iff`).
One direction is that sorting forgets the order. The other is that an identity can be read back: escaped text ends at the first
mark without a backslash (`unescape_escape_append`), so a part can be told from what follows it (`identityPart_append_inj`), and
a joined list of parts is the list of just those parts (`eq_of_intercalate_eq`).
-/

namespace TelemetryRouter

/-- What an identity tells of an attribute: its name, the letter for the kind of its value, and the text of its value. -/
def Attribute.signature (a : Attribute) : String × Char × String := (a.key, a.value.tag, a.value.display)

namespace Resource

/-! ## Escaped text -/

/-- Reads escaped text up to the first mark that no backslash stands before, and gives what it read and what is left. -/
def unescape : List Char → List Char × List Char
  | [] => ([], [])
  | '\\' :: c :: rest => (c :: (unescape rest).1, (unescape rest).2)
  | c :: rest => if c = '=' ∨ c = ';' then ([], c :: rest) else (c :: (unescape rest).1, (unescape rest).2)

/-- Text that nothing follows, or that starts with a bare mark. -/
def Halts : List Char → Prop
  | [] => True
  | c :: _ => c = '=' ∨ c = ';'

theorem halts_equals (rest : List Char) : Halts ('=' :: rest) := Or.inl rfl

theorem unescape_of_halts {rest : List Char} (h : Halts rest) : unescape rest = ([], rest) := by
  cases rest with
  | nil => rfl
  | cons c rest => obtain rfl | rfl : c = '=' ∨ c = ';' := h <;> rfl

theorem unescape_backslash (c : Char) (rest : List Char) :
    unescape ('\\' :: c :: rest) = (c :: (unescape rest).1, (unescape rest).2) := rfl

theorem unescape_cons {c : Char} (h : ¬ (c = '\\' ∨ c = '=' ∨ c = ';')) (rest : List Char) :
    unescape (c :: rest) = (c :: (unescape rest).1, (unescape rest).2) := by
  obtain ⟨hb, hm⟩ := not_or.1 h
  rw [unescape.eq_3 c rest (fun _ _ hc _ => hb hc), if_neg hm]

/-- Reading escaped text gives the text, and leaves what stands behind it. -/
theorem unescape_escape_append (text : List Char) {rest : List Char} (h : Halts rest) :
    unescape (escape text ++ rest) = (text, rest) := by
  induction text with
  | nil => exact unescape_of_halts h
  | cons c text ih =>
    rw [escape]
    split
    · rw [List.cons_append, List.cons_append, unescape_backslash, ih]
    · next hc => rw [List.cons_append, unescape_cons hc, ih]

/-- Escaped texts with something behind them that are equal have equal texts, and the same behind them. -/
theorem escape_append_inj {text text' rest rest' : List Char} (h : Halts rest) (h' : Halts rest')
    (heq : escape text ++ rest = escape text' ++ rest') : text = text' ∧ rest = rest' := by
  have hread := congrArg unescape heq
  rw [unescape_escape_append text h, unescape_escape_append text' h'] at hread
  exact Prod.mk.inj hread

/-! ## Parts -/

theorem toList_identityPart (a : Attribute) :
    (identityPart a).toList = escape a.key.toList ++ '=' :: a.value.tag :: ':' :: escape a.value.display.toList :=
  String.toList_ofList

/-- A part tells the signature of its attribute, whatever stands behind it. -/
theorem identityPart_append_inj {a b : Attribute} {rest rest' : List Char} (h : Halts rest) (h' : Halts rest')
    (heq : (identityPart a).toList ++ rest = (identityPart b).toList ++ rest') : a.signature = b.signature ∧ rest = rest' := by
  rw [toList_identityPart, toList_identityPart, List.append_assoc, List.append_assoc] at heq
  obtain ⟨hkey, hvalue⟩ := escape_append_inj (halts_equals _) (halts_equals _) heq
  obtain ⟨-, hvalue⟩ := List.cons.inj hvalue
  obtain ⟨htag, hvalue⟩ := List.cons.inj hvalue
  obtain ⟨-, hvalue⟩ := List.cons.inj hvalue
  obtain ⟨hdisplay, hrest⟩ := escape_append_inj h h' hvalue
  refine ⟨?_, hrest⟩
  rw [Attribute.signature, Attribute.signature, String.toList_injective hkey, htag, String.toList_injective hdisplay]

/-- Attributes with the same signatures have the same parts, each as often. -/
theorem perm_identityPart {attributes attributes' : List Attribute}
    (h : (attributes.map Attribute.signature).Perm (attributes'.map Attribute.signature)) :
    (attributes.map identityPart).Perm (attributes'.map identityPart) := by
  let part : String × Char × String → String := fun (key, tag, display) =>
    String.ofList (escape key.toList ++ '=' :: tag :: ':' :: escape display.toList)
  have hpart : identityPart = part ∘ Attribute.signature := rfl
  rw [hpart, ← List.map_map, ← List.map_map]
  exact h.map part

/-! ## Joined parts -/

/-- Parts with a semicolon before each of them. -/
def trail (attributes : List Attribute) : List Char := attributes.flatMap (fun a => ';' :: (identityPart a).toList)

theorem halts_trail (attributes : List Attribute) : Halts (trail attributes) := by
  cases attributes with
  | nil => exact trivial
  | cons a attributes => exact Or.inr rfl

/-- A trail tells the signatures of its attributes, in order. -/
theorem trail_inj {attributes attributes' : List Attribute} (h : trail attributes = trail attributes') :
    attributes.map Attribute.signature = attributes'.map Attribute.signature := by
  induction attributes generalizing attributes' with
  | nil =>
    cases attributes' with
    | nil => rfl
    | cons b attributes' => exact absurd h (List.cons_ne_nil _ _).symm
  | cons a attributes ih =>
    cases attributes' with
    | nil => exact absurd h (List.cons_ne_nil _ _)
    | cons b attributes' =>
      obtain ⟨hsignature, hrest⟩ :=
        identityPart_append_inj (halts_trail attributes) (halts_trail attributes') (List.cons.inj h).2
      rw [List.map_cons, List.map_cons, hsignature, ih hrest]

/-- Joined parts are the first part with the trail of the others. -/
theorem toList_intercalate_cons (a : Attribute) (attributes : List Attribute) :
    (String.intercalate ";" ((a :: attributes).map identityPart)).toList = (identityPart a).toList ++ trail attributes := by
  induction attributes generalizing a with
  | nil => simp [trail]
  | cons b attributes ih =>
    rw [List.map_cons, String.intercalate_cons_of_ne_nil (by simp), String.toList_append, String.toList_append, ih b,
      List.append_assoc]
    rfl

/-- Joined parts tell the signatures of their attributes, in order; no attributes are told from one with empty texts. -/
theorem signatures_of_intercalate_eq {attributes attributes' : List Attribute}
    (h : String.intercalate ";" (attributes.map identityPart) = String.intercalate ";" (attributes'.map identityPart)) :
    attributes.map Attribute.signature = attributes'.map Attribute.signature := by
  have hcons : ∀ (a : Attribute) (rest : List Attribute), String.intercalate ";" ((a :: rest).map identityPart) ≠ "" := by
    intro a rest hempty
    have hnil := congrArg String.toList hempty
    rw [toList_intercalate_cons, toList_identityPart] at hnil
    simp at hnil
  cases attributes with
  | nil =>
    cases attributes' with
    | nil => rfl
    | cons b rest' => exact absurd h.symm (hcons b rest')
  | cons a rest =>
    cases attributes' with
    | nil => exact absurd h (hcons a rest)
    | cons b rest' =>
      have hchars := congrArg String.toList h
      rw [toList_intercalate_cons, toList_intercalate_cons] at hchars
      exact trail_inj (congrArg (';' :: ·) hchars)

/-! ## Sorted parts -/

theorem textLe_iff (a b : String) : textLe a b = true ↔ a ≤ b := by
  simp only [textLe, Bool.not_eq_true', decide_eq_false_iff_not]
  exact not_lt

/-- Sorting texts gives the same for any order they come in. -/
theorem mergeSort_textLe_congr {parts parts' : List String} (h : parts.Perm parts') :
    parts.mergeSort textLe = parts'.mergeSort textLe := by
  have hsorted : ∀ l : List String, (l.mergeSort textLe).Pairwise (fun a b => textLe a b = true) := by
    refine fun l => List.pairwise_mergeSort ?_ ?_ l
    · intro a b c hab hbc
      rw [textLe_iff] at *
      exact hab.trans hbc
    · intro a b
      rw [Bool.or_eq_true, textLe_iff, textLe_iff]
      exact le_total a b
  have hperm : (parts.mergeSort textLe).Perm (parts'.mergeSort textLe) :=
    (List.mergeSort_perm parts textLe).trans (h.trans (List.mergeSort_perm parts' textLe).symm)
  refine hperm.eq_of_pairwise ?_ (hsorted parts) (hsorted parts')
  intro a b _ _ hab hba
  exact le_antisymm ((textLe_iff a b).1 hab) ((textLe_iff b a).1 hba)

/-- The attributes of a resource in the order of their parts. -/
def sorted (r : Resource) : List Attribute := r.attributes.mergeSort (fun a b => textLe (identityPart a) (identityPart b))

theorem identity_eq_intercalate (r : Resource) : r.identity = String.intercalate ";" (r.sorted.map identityPart) := by
  have hsort : r.sorted.map identityPart = (r.attributes.map identityPart).mergeSort textLe :=
    List.map_mergeSort (fun _ _ _ _ => rfl)
  rw [identity, hsort]

/-! ## The canonical form -/

/-- Two resources have one identity exactly when their attributes have the same signatures, each as often, in whatever order. -/
theorem identity_eq_identity_iff (r s : Resource) :
    r.identity = s.identity ↔ (r.attributes.map Attribute.signature).Perm (s.attributes.map Attribute.signature) := by
  constructor
  · intro h
    rw [identity_eq_intercalate, identity_eq_intercalate] at h
    have hr : (r.sorted.map Attribute.signature).Perm (r.attributes.map Attribute.signature) :=
      (List.mergeSort_perm r.attributes _).map _
    have hs : (s.sorted.map Attribute.signature).Perm (s.attributes.map Attribute.signature) :=
      (List.mergeSort_perm s.attributes _).map _
    rw [← signatures_of_intercalate_eq h] at hs
    exact hr.symm.trans hs
  · intro h
    rw [identity, identity]
    exact congrArg (String.intercalate ";") (mergeSort_textLe_congr (perm_identityPart h))

end Resource

end TelemetryRouter
