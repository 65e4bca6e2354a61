import Mathlib.Algebra.GroupWithZero.Nat
import TelemetryRouter.Duration.Text

/-!
# Durations are read back from their text

The text of a duration is a row of parts, each a number and a unit. A part adds to the sum what it amounts to
(`Readable.addItem_eq`), a row adds what its parts amount to (`reads_parts`), and the parts of a duration amount to the duration
(`sum_parts`). So every duration is read back (`read_print`). That nothing overflows on the way rests on every sum being at most the
duration itself.
-/

namespace TelemetryRouter.Duration

/-- What is left is read to a total, at whatever offset it stands. -/
def Reads (sum : Nat) (phase : Phase) (rest : List Char) (total : Nat) : Prop := ∀ offset, readFrom sum offset phase rest = .ok total

variable {sum total : Nat} {rest : List Char}

/-! ## Numbers -/

theorem word_eq_ok {n : Nat} (h : n < 18446744073709551616) : word n = .ok n := if_pos h

theorem digit?_digitChar {n : Nat} (h : n < 10) : digit? n.digitChar = some n := by
  have key : ∀ m : Fin 10, digit? (Nat.digitChar m) = some m.val := by decide
  exact key ⟨n, h⟩

/-- The digits of a number bring the reader to that number. -/
theorem reads_digits {n : Nat} (h : n < 18446744073709551616) (first : Bool) (since : Nat) (hrest : Reads sum (.whole n) rest total) :
    Reads sum (.between first since) (Nat.toDigits 10 n ++ rest) total := by
  induction n using Nat.strongRecOn generalizing rest with
  | ind n ih =>
    by_cases hn : n < 10
    · rw [Nat.toDigits_of_lt_base hn]
      intro offset
      rw [List.singleton_append, readFrom, digit?_digitChar hn]
      exact hrest _
    · rw [Nat.toDigits_of_base_le (by decide) (Nat.le_of_not_lt hn), List.append_assoc]
      refine ih (n / 10) (by omega) (by omega) (fun offset => ?_)
      have hword : word (10 * (n / 10) + n % 10) = .ok n := by
        rw [Nat.div_add_mod]
        exact word_eq_ok h
      rw [List.singleton_append, readFrom, digit?_digitChar (Nat.mod_lt n (by decide))]
      show (word (10 * (n / 10) + n % 10)).bind _ = _
      rw [hword]
      exact hrest _

/-! ## Units -/

theorem toNat_of_isUnitChar {c : Char} (h : isUnitChar c = true) :
    (97 ≤ c.toNat ∧ c.toNat ≤ 122) ∨ (65 ≤ c.toNat ∧ c.toNat ≤ 90) ∨ c.toNat = 181 := by
  simp only [isUnitChar, Bool.or_eq_true, Bool.and_eq_true, decide_eq_true_eq, beq_iff_eq] at h
  rcases h with (⟨ha, hz⟩ | ⟨hA, hZ⟩) | rfl
  · exact .inl ⟨ha, hz⟩
  · exact .inr (.inl ⟨hA, hZ⟩)
  · exact .inr (.inr rfl)

theorem digit?_of_isUnitChar {c : Char} (h : isUnitChar c = true) : digit? c = none := by
  have hcode := toNat_of_isUnitChar h
  rw [digit?, if_neg]
  rintro ⟨_, hle⟩
  have hnine : c.toNat ≤ 57 := hle
  omega

theorem isBlank_of_isUnitChar {c : Char} (h : isUnitChar c = true) : Blank.isBlank c = false := by
  have hcode := toNat_of_isUnitChar h
  rw [Blank.isBlank, List.any_eq_false]
  intro r hr
  rw [Bool.not_eq_true, Bool.and_eq_false_iff, decide_eq_false_iff_not, decide_eq_false_iff_not]
  simp only [Blank.ranges, List.mem_cons, List.not_mem_nil, or_false] at hr
  rcases hr with rfl | rfl | rfl | rfl | rfl | rfl | rfl | rfl | rfl | rfl <;> dsimp only <;> omega

theorem reads_letters {number : Nat} {fraction : Option Fraction} {name letters : List Char} (hletters : ∀ c ∈ letters, isUnitChar c = true)
    (hrest : Reads sum (.unit number fraction (letters.reverse ++ name)) rest total) :
    Reads sum (.unit number fraction name) (letters ++ rest) total := by
  induction letters generalizing name with
  | nil => exact hrest
  | cons c letters ih =>
    have hc : isUnitChar c = true := hletters c List.mem_cons_self
    have htail : Reads sum (.unit number fraction (c :: name)) (letters ++ rest) total := by
      refine ih (fun x hx => hletters x (List.mem_cons_of_mem c hx)) ?_
      rwa [List.reverse_cons, List.append_assoc] at hrest
    intro offset
    rw [List.cons_append, readFrom, digit?_of_isUnitChar hc]
    simp only [isBlank_of_isUnitChar hc, hc]
    exact htail _

/-- A unit brings the reader from its number to its end. -/
theorem reads_unit {number : Nat} {letters : List Char} (hne : letters ≠ []) (hletters : ∀ c ∈ letters, isUnitChar c = true)
    (hrest : Reads sum (.unit number none letters.reverse) rest total) :
    Reads sum (.whole number) (letters ++ rest) total := by
  obtain ⟨c, letters, rfl⟩ := List.exists_cons_of_ne_nil hne
  have hc : isUnitChar c = true := hletters c List.mem_cons_self
  have htail : Reads sum (.unit number none [c]) (letters ++ rest) total := by
    refine reads_letters (fun x hx => hletters x (List.mem_cons_of_mem c hx)) ?_
    rwa [List.reverse_cons] at hrest
  intro offset
  rw [List.cons_append, readFrom, digit?_of_isUnitChar hc]
  simp only [isBlank_of_isUnitChar hc, hc]
  exact htail _

/-! ## Parts -/

/-- The nanoseconds of one step of a unit. -/
def TimeUnit.nanoseconds (u : TimeUnit) : Nat := if u.inSeconds then u.scale * 1000000000 else u.scale

/-- The unit of a part as it is spelled. -/
def unitText (p : Nat × String × Bool) : String := p.2.1 ++ if p.2.2 && p.1 > 1 then "s" else ""

/-- What a part amounts to. -/
def amount (p : Nat × String × Bool) : Nat := p.1 * ((unit? p.2.1).map TimeUnit.nanoseconds).getD 0

/-- Whether a part is written so that it can be read: its unit is spelled in letters and known, in the plural as in the singular, and
the steps of the part fit. -/
structure Readable (p : Nat × String × Bool) : Prop where
  number : p.1 < 18446744073709551616
  letters : ∀ c ∈ (unitText p).toList, isUnitChar c = true
  unit : ∃ u, unit? (unitText p) = some u ∧ unit? p.2.1 = some u ∧ p.1 * u.scale < 18446744073709551616 ∧
    (u.inSeconds = false → p.1 * u.scale < 1000000000)

theorem toList_partText (p : Nat × String × Bool) : (partText p).toList = Nat.toDigits 10 p.1 ++ (unitText p).toList := by
  show ((Nat.repr p.1 ++ p.2.1) ++ _).toList = _
  rw [String.append_assoc, String.toList_append, Nat.toList_repr]
  rfl

/-- Steps of a unit are added if the result is a duration, and those of nanoseconds if they are fewer than a second. -/
theorem accumulate_eq {steps : Nat} {inSeconds : Bool} (hsmall : inSeconds = false → steps < 1000000000)
    (hbound : sum + (if inSeconds then steps * 1000000000 else steps) < 18446744073709551616 * 1000000000) :
    accumulate sum steps inSeconds = .ok (sum + if inSeconds then steps * 1000000000 else steps) := by
  -- By equations alone: unfolding would compute with the bounds in unary.
  cases inSeconds with
  | true =>
    simp only [if_true] at hbound
    simp only [accumulate, if_true, pure_bind, if_pos hbound]
    rfl
  | false =>
    simp only [Bool.false_eq_true, if_false] at hbound
    have hword : word (sum % 1000000000 + steps) = pure (sum % 1000000000 + steps) := by
      have hsteps := hsmall rfl
      exact word_eq_ok (by omega)
    simp only [accumulate, Bool.false_eq_true, if_false, hword, pure_bind, if_pos hbound]
    rfl

namespace Readable

variable {p : Nat × String × Bool} (h : Readable p)

include h

/-- A part adds to a sum what it amounts to, if the result is a duration. -/
theorem addItem_eq (hbound : sum + amount p < 18446744073709551616 * 1000000000) :
    addItem sum p.1 none (unitText p) = .ok (sum + amount p) := by
  obtain ⟨u, hspelled, hunit, hsteps, hsmall⟩ := h.unit
  have hamount : amount p = if u.inSeconds then p.1 * u.scale * 1000000000 else p.1 * u.scale := by
    rw [amount, hunit, Option.map_some, Option.getD_some, TimeUnit.nanoseconds]
    split
    · rw [Nat.mul_assoc]
    · rfl
  rw [hamount] at hbound ⊢
  rw [addItem, hspelled]
  show (word (p.1 * u.scale)).bind _ = _
  rw [word_eq_ok hsteps]
  show (accumulate sum (p.1 * u.scale) u.inSeconds).bind _ = _
  rw [accumulate_eq hsmall hbound]
  rfl

theorem unitText_ne_nil : (unitText p).toList ≠ [] := by
  obtain ⟨u, hspelled, _⟩ := h.unit
  intro hnil
  rw [String.toList_eq_nil_iff] at hnil
  rw [hnil] at hspelled
  cases hspelled

/-- The text of a part at the end adds what the part amounts to. -/
theorem reads_last (hbound : sum + amount p < 18446744073709551616 * 1000000000) (first : Bool) (since : Nat) :
    Reads sum (.between first since) (partText p).toList (sum + amount p) := by
  have hend : Reads sum (.unit p.1 none (unitText p).toList.reverse) [] (sum + amount p) := by
    intro offset
    rw [readFrom, List.reverse_reverse, String.ofList_toList]
    exact h.addItem_eq hbound
  rw [toList_partText]
  refine reads_digits h.number first since ?_
  rw [← List.append_nil (unitText p).toList]
  exact reads_unit h.unitText_ne_nil h.letters hend

/-- The text of a part before a space adds what the part amounts to, and the next part follows. -/
theorem reads_next (hbound : sum + amount p < 18446744073709551616 * 1000000000) (first : Bool) (since : Nat)
    (hrest : ∀ since, Reads (sum + amount p) (.between false since) rest total) :
    Reads sum (.between first since) ((partText p).toList ++ ' ' :: rest) total := by
  have hend : Reads sum (.unit p.1 none (unitText p).toList.reverse) (' ' :: rest) total := by
    intro offset
    rw [readFrom, List.reverse_reverse, String.ofList_toList]
    show (addItem sum p.1 none (unitText p)).bind _ = _
    rw [h.addItem_eq hbound]
    exact hrest _ _
  rw [toList_partText, List.append_assoc]
  exact reads_digits h.number first since (reads_unit h.unitText_ne_nil h.letters hend)

end Readable

/-- A row of parts adds what the parts amount to, if the result is a duration. -/
theorem reads_parts {ps : List (Nat × String × Bool)} (hne : ps ≠ []) (hps : ∀ p ∈ ps, Readable p)
    (hbound : sum + (ps.map amount).sum < 18446744073709551616 * 1000000000) (first : Bool) (since : Nat) :
    Reads sum (.between first since) (String.intercalate " " (ps.map partText)).toList (sum + (ps.map amount).sum) := by
  rw [String.toList_intercalate, List.map_map]
  induction ps generalizing sum first since with
  | nil => exact absurd rfl hne
  | cons p ps ih =>
    obtain ⟨hp, hps⟩ := List.forall_mem_cons.1 hps
    rw [List.map_cons, List.sum_cons] at hbound
    rw [List.map_cons, List.map_cons, List.sum_cons]
    cases ps with
    | nil =>
      rw [List.map_nil, List.sum_nil, Nat.add_zero] at hbound
      rw [List.map_nil, List.intercalate_singleton, List.map_nil, List.sum_nil, Nat.add_zero]
      exact hp.reads_last hbound first since
    | cons q ps =>
      have hfirst : sum + amount p < 18446744073709551616 * 1000000000 := by omega
      rw [← Nat.add_assoc] at hbound ⊢
      rw [List.map_cons, List.intercalate_cons_cons, List.append_assoc]
      refine hp.reads_next hfirst first since (fun since => ?_)
      exact ih (List.cons_ne_nil q ps) hps hbound false since

/-- A part of nothing amounts to nothing, so the parts with something in them amount to what all do. -/
theorem sum_filter_parts (ps : List (Nat × String × Bool)) :
    ((ps.filter (fun p => p.1 > 0)).map amount).sum = (ps.map amount).sum := by
  induction ps with
  | nil => rfl
  | cons p ps ih =>
    rw [List.map_cons, List.sum_cons, ← ih, List.filter_cons]
    split
    · rw [List.map_cons, List.sum_cons]
    · rename_i hzero
      have hnone : p.1 = 0 := by simpa using hzero
      rw [amount, hnone, Nat.zero_mul, Nat.zero_add]

/-! ## The parts of a duration -/

/-- A unit is spelled as it is, or in the plural if it has one. -/
theorem unitText_cases (n : Nat) (name : String) (plural : Bool) :
    unitText (n, name, plural) = name ∨ plural = true ∧ unitText (n, name, plural) = name ++ "s" := by
  rw [unitText]
  split
  · rename_i h
    exact .inr ⟨(Bool.and_eq_true_iff.1 h).1, rfl⟩
  · exact .inl String.append_empty

/-- A part with a unit of the table can be read if its steps fit. -/
theorem readable_of {n : Nat} {name : String} {plural : Bool} {u : TimeUnit} (hunit : unit? name = some u)
    (hplural : plural = true → unit? (name ++ "s") = some u) (hletters : name.toList.all isUnitChar = true) (hscale : 0 < u.scale)
    (hsteps : n * u.scale < 18446744073709551616) (hsmall : u.inSeconds = false → n * u.scale < 1000000000) :
    Readable (n, name, plural) := by
  have hnumber : n < 18446744073709551616 := Nat.lt_of_le_of_lt (Nat.le_mul_of_pos_right n hscale) hsteps
  rw [List.all_eq_true] at hletters
  rcases unitText_cases n name plural with hspelled | ⟨hp, hspelled⟩
  · refine ⟨hnumber, ?_, u, ?_, hunit, hsteps, hsmall⟩
    · rwa [hspelled]
    · rwa [hspelled]
  · refine ⟨hnumber, ?_, u, ?_, hunit, hsteps, hsmall⟩
    · intro c hc
      rw [hspelled, String.toList_append, List.mem_append] at hc
      rcases hc with hc | hc
      · exact hletters c hc
      · obtain rfl : c = 's' := List.mem_singleton.1 hc
        rfl
    · rw [hspelled]
      exact hplural hp

theorem seconds_lt (d : Duration) : d.seconds < 18446744073709551616 := Nat.div_lt_of_lt_mul (Nat.mul_comm _ _ ▸ d.bounded)

/-- There are fewer nanoseconds beyond the whole seconds than a second has. -/
theorem subsecond_lt (d : Duration) : d.subsecond < 1000000000 := Nat.mod_lt _ (by decide)

theorem readable_parts (d : Duration) : ∀ p ∈ d.parts, Readable p := by
  have hseconds := d.seconds_lt
  have hsubsecond := d.subsecond_lt
  simp only [parts, List.forall_mem_cons]
  refine ⟨?_, ?_, ?_, ?_, ?_, ?_, ?_, ?_, ?_, List.forall_mem_nil _⟩
  · exact readable_of rfl (fun _ => rfl) rfl (by decide) (by dsimp only; omega) nofun
  · exact readable_of rfl (fun _ => rfl) rfl (by decide) (by dsimp only; omega) nofun
  · exact readable_of rfl (fun _ => rfl) rfl (by decide) (by dsimp only; omega) nofun
  · exact readable_of rfl nofun rfl (by decide) (by dsimp only; omega) nofun
  · exact readable_of rfl nofun rfl (by decide) (by dsimp only; omega) nofun
  · exact readable_of rfl nofun rfl (by decide) (by dsimp only; omega) nofun
  · exact readable_of rfl nofun rfl (by decide) (by dsimp only; omega) (fun _ => by dsimp only; omega)
  · exact readable_of rfl nofun rfl (by decide) (by dsimp only; omega) (fun _ => by dsimp only; omega)
  · exact readable_of rfl nofun rfl (by decide) (by dsimp only; omega) (fun _ => by dsimp only; omega)

theorem amount_eq {name : String} {step : Nat} (hunit : (unit? name).map TimeUnit.nanoseconds = some step) (n : Nat) (plural : Bool) :
    amount (n, name, plural) = n * step := by
  rw [amount, hunit, Option.getD_some]

theorem sum_parts (d : Duration) : (d.parts.map amount).sum = d.nanoseconds := by
  have hwhole : d.nanoseconds = d.seconds * 1000000000 + d.subsecond := (Nat.div_add_mod' _ _).symm
  have hyear (n : Nat) (plural : Bool) : amount (n, "year", plural) = n * 31557600000000000 := amount_eq rfl n plural
  have hmonth (n : Nat) (plural : Bool) : amount (n, "month", plural) = n * 2630016000000000 := amount_eq rfl n plural
  have hday (n : Nat) (plural : Bool) : amount (n, "day", plural) = n * 86400000000000 := amount_eq rfl n plural
  have hhour (n : Nat) (plural : Bool) : amount (n, "h", plural) = n * 3600000000000 := amount_eq rfl n plural
  have hminute (n : Nat) (plural : Bool) : amount (n, "m", plural) = n * 60000000000 := amount_eq rfl n plural
  have hsecond (n : Nat) (plural : Bool) : amount (n, "s", plural) = n * 1000000000 := amount_eq rfl n plural
  have hmilli (n : Nat) (plural : Bool) : amount (n, "ms", plural) = n * 1000000 := amount_eq rfl n plural
  have hmicro (n : Nat) (plural : Bool) : amount (n, "us", plural) = n * 1000 := amount_eq rfl n plural
  have hnano (n : Nat) (plural : Bool) : amount (n, "ns", plural) = n * 1 := amount_eq rfl n plural
  -- The equations of the sum are not used by unfolding, which would compute with the products in unary.
  simp -implicitDefEqProofs only [parts, List.map_cons, List.map_nil, List.sum_cons, List.sum_nil, hyear, hmonth, hday, hhour, hminute,
    hsecond, hmilli, hmicro, hnano]
  omega

theorem read_print (d : Duration) : read d.print = .ok d := by
  rw [print]
  split
  · rename_i hzero
    obtain ⟨n, hn⟩ := d
    obtain rfl : n = 0 := by simpa [isZero] using hzero
    rfl
  · rename_i hzero
    have hne : d.parts.filter (fun p => p.1 > 0) ≠ [] := by
      intro hnil
      have hsum := d.sum_parts
      rw [← sum_filter_parts, hnil] at hsum
      exact hzero (by rw [isZero, ← hsum]; rfl)
    have hsum : ((d.parts.filter (fun p => p.1 > 0)).map amount).sum = d.nanoseconds := by rw [sum_filter_parts, sum_parts]
    have hbound : 0 + ((d.parts.filter (fun p => p.1 > 0)).map amount).sum < 18446744073709551616 * 1000000000 := by
      rw [hsum, Nat.zero_add]
      exact d.bounded
    have hreads := reads_parts hne (fun p hp => d.readable_parts p (List.mem_filter.1 hp).1) hbound true 0 0
    rw [hsum, Nat.zero_add] at hreads
    have hlone : String.intercalate " " ((d.parts.filter (fun p => p.1 > 0)).map partText) ≠ "0" := by
      intro hlone
      rw [hlone] at hreads
      cases hreads
    rw [read, if_neg hlone, hreads]
    simp only [ofNanoseconds?, dif_pos d.bounded]

end TelemetryRouter.Duration
