import Mathlib.Data.List.TakeWhile
import TelemetryRouter.Discovery.Address
import TelemetryRouter.Proofs.PortCompletion

/-!
# Texts of IP addresses

Each part of the reader of addresses takes a run of characters from the front, and what it takes has no bracket. So a text that is read as
an address of version 4 has no colon, and one of version 6 has several: it is a host alone (`IpAddress.isHost_of_read`). The text of every
address is read as that address (`IpAddress.read_text`), also when a run of zeros is shortened or the last groups are dotted.
-/

namespace TelemetryRouter

namespace IpAddress

/-! ## Digits -/

theorem digit?_digitChar {base n : Nat} (hbase : base ≤ 16) (h : n < base) : digit? base n.digitChar = some n := by
  have key : ∀ (b : Fin 17) (m : Fin 16), m.val < b.val → digit? b (Nat.digitChar m) = some m.val := by decide
  exact key ⟨base, Nat.lt_succ_of_le hbase⟩ ⟨n, Nat.lt_of_lt_of_le h hbase⟩ h

theorem digit?_separator {base : Nat} (hbase : base ≤ 16) {c : Char} (hc : c = ':' ∨ c = '.' ∨ c = '[') : digit? base c = none := by
  have key : ∀ b : Fin 17, digit? b ':' = none ∧ digit? b '.' = none ∧ digit? b '[' = none := by decide
  obtain ⟨hcolon, hdot, hbracket⟩ := key ⟨base, Nat.lt_succ_of_le hbase⟩
  rcases hc with rfl | rfl | rfl
  · exact hcolon
  · exact hdot
  · exact hbracket

/-- Whether no character separates the parts of an address. -/
def NoSeparator (cs : List Char) : Prop := ':' ∉ cs ∧ '.' ∉ cs ∧ '[' ∉ cs

theorem noSeparator_of_digits {base : Nat} (hbase : base ≤ 16) {cs : List Char} (h : ∀ c ∈ cs, (digit? base c).isSome = true) :
    NoSeparator cs := by
  have hnot : ∀ c, c = ':' ∨ c = '.' ∨ c = '[' → c ∉ cs := by
    intro c hc hmem
    have hsome := h c hmem
    rw [digit?_separator hbase hc] at hsome
    cases hsome
  exact ⟨hnot ':' (.inl rfl), hnot '.' (.inr (.inl rfl)), hnot '[' (.inr (.inr rfl))⟩

/-- The digits of a number in a base up to sixteen have values. -/
theorem isSome_digit?_of_mem_toDigits {base n : Nat} (hbase : base ≤ 16) (hlow : 1 < base) {c : Char} (hc : c ∈ Nat.toDigits base n) :
    (digit? base c).isSome = true := by
  induction n using Nat.strongRecOn with
  | ind n ih =>
    by_cases hn : n < base
    · rw [Nat.toDigits_of_lt_base hn, List.mem_singleton] at hc
      rw [hc, digit?_digitChar hbase hn]
      rfl
    · rw [Nat.toDigits_of_base_le hlow (Nat.le_of_not_lt hn), List.mem_append, List.mem_singleton] at hc
      rcases hc with hc | rfl
      · exact ih (n / base) (Nat.div_lt_self (by omega) hlow) hc
      · rw [digit?_digitChar hbase (Nat.mod_lt n (by omega))]
        rfl

theorem foldl_toDigits {base n : Nat} (hbase : base ≤ 16) (hlow : 1 < base) :
    (Nat.toDigits base n).foldl (fun n c => base * n + (digit? base c).getD 0) 0 = n := by
  induction n using Nat.strongRecOn with
  | ind n ih =>
    by_cases hn : n < base
    · rw [Nat.toDigits_of_lt_base hn, List.foldl_cons, List.foldl_nil, digit?_digitChar hbase hn, Option.getD_some]
      omega
    · rw [Nat.toDigits_of_base_le hlow (Nat.le_of_not_lt hn), List.foldl_append, ih (n / base) (Nat.div_lt_self (by omega) hlow),
        List.foldl_cons, List.foldl_nil, digit?_digitChar hbase (Nat.mod_lt n (by omega)), Option.getD_some]
      exact Nat.div_add_mod n base

/-- A number whose first digit is zero has no other digit. -/
theorem length_toDigits_of_zero {base n : Nat} (hbase : base ≤ 16) (hlow : 1 < base) (h : (Nat.toDigits base n).head? = some '0') :
    (Nat.toDigits base n).length = 1 := by
  suffices hzero : n = 0 by
    rw [hzero, Nat.toDigits_of_lt_base (by omega)]
    rfl
  induction n using Nat.strongRecOn with
  | ind n ih =>
    by_cases hn : n < base
    · rw [Nat.toDigits_of_lt_base hn, List.head?_cons] at h
      have hvalue := digit?_digitChar hbase hn
      have hzero : digit? base (Nat.digitChar 0) = some 0 := digit?_digitChar hbase (Nat.zero_lt_of_lt hlow)
      have hchar : Nat.digitChar 0 = '0' := by decide
      rw [Option.some.inj h, ← hchar, hzero] at hvalue
      exact (Option.some.inj hvalue).symm
    · rw [Nat.toDigits_of_base_le hlow (Nat.le_of_not_lt hn), List.head?_append_of_ne_nil _ Nat.toDigits_ne_nil] at h
      have hquotient := ih (n / base) (Nat.div_lt_self (by omega) hlow) h
      have := Nat.div_pos (Nat.le_of_not_lt hn) (Nat.zero_lt_of_lt hlow)
      omega

/-! ## Numbers -/

/-- A number that is read takes digits from the front, at least one. -/
theorem readNumber_eq_append {base width limit : Nat} {zeros : Bool} (hbase : base ≤ 16) {cs rest : List Char} {n : Nat}
    (h : readNumber base width limit zeros cs = some (n, rest)) : ∃ taken, cs = taken ++ rest ∧ NoSeparator taken := by
  unfold readNumber at h
  dsimp only at h
  split at h
  · cases h
  · split at h
    · cases h
    · obtain ⟨-, rfl⟩ := Prod.mk.inj (Option.some.inj h)
      refine ⟨_, (List.prefix_iff_eq_append.1 (List.takeWhile_prefix _)).symm, ?_⟩
      exact noSeparator_of_digits hbase (fun c => List.mem_takeWhile_imp)

theorem readNumber_eq_none {base width limit : Nat} {zeros : Bool} {cs : List Char}
    (h : ∀ c ∈ cs.head?, digit? base c = none) : readNumber base width limit zeros cs = none := by
  have hrun : cs.takeWhile (fun c => (digit? base c).isSome) = [] := by
    cases cs with
    | nil => rfl
    | cons c cs => rw [List.takeWhile_cons_of_neg (by simp [h c rfl])]
  unfold readNumber
  simp [hrun]

/-- The digits of a number are read as it, if no digit follows. -/
theorem readNumber_toDigits {base width limit n : Nat} {zeros : Bool} (hbase : base ≤ 16) (hlow : 1 < base) {rest : List Char}
    (hwidth : (Nat.toDigits base n).length ≤ width) (hlimit : n ≤ limit) (hrest : ∀ c ∈ rest.head?, digit? base c = none) :
    readNumber base width limit zeros (Nat.toDigits base n ++ rest) = some (n, rest) := by
  have hrun : (Nat.toDigits base n ++ rest).takeWhile (fun c => (digit? base c).isSome) = Nat.toDigits base n := by
    rw [List.takeWhile_append_of_pos (fun c hc => isSome_digit?_of_mem_toDigits hbase hlow hc)]
    cases rest with
    | nil => simp
    | cons c rest => rw [List.takeWhile_cons_of_neg (by simp [hrest c rfl]), List.append_nil]
  have hsize : ((Nat.toDigits base n).isEmpty || decide ((Nat.toDigits base n).length > width) || decide (n > limit)) = false := by
    have hne : Nat.toDigits base n ≠ [] := Nat.toDigits_ne_nil
    simp only [Bool.or_eq_false_iff, List.isEmpty_eq_false_iff, decide_eq_false_iff_not]
    exact ⟨⟨hne, Nat.not_lt_of_le hwidth⟩, Nat.not_lt_of_le hlimit⟩
  have hzeros : (!zeros && decide ((Nat.toDigits base n).length > 1) && decide ((Nat.toDigits base n).head? = some '0')) = false := by
    rw [Bool.and_eq_false_iff]
    by_cases hhead : (Nat.toDigits base n).head? = some '0'
    · left
      rw [length_toDigits_of_zero hbase hlow hhead]
      simp
    · exact .inr (decide_eq_false hhead)
  unfold readNumber
  dsimp only
  rw [hrun, foldl_toDigits hbase hlow, hsize, hzeros, if_neg Bool.false_ne_true, if_neg Bool.false_ne_true, List.drop_left]

/-! ## Addresses of version 4 -/

/-- Where no dot follows the first number, no address of version 4 is read. -/
theorem read4_eq_none {cs : List Char} (h : '.' ∉ cs) : read4 cs = none := by
  cases hfirst : readNumber 10 3 255 false cs with
  | none => simp [read4, hfirst]
  | some first =>
    obtain ⟨a, rest⟩ := first
    obtain ⟨taken, rfl, -⟩ := readNumber_eq_append (by decide) hfirst
    simp only [read4, hfirst, Option.bind_eq_bind, Option.bind_some]
    split
    · rename_i heq
      simp at h
    · rfl

theorem read4_eq_none_of_head {cs : List Char} (h : ∀ c ∈ cs.head?, digit? 10 c = none) : read4 cs = none := by
  simp [read4, readNumber_eq_none h]

/-- A number behind a dot takes a run of characters from the front. -/
theorem next4_eq_append {cs rest : List Char} {n : Nat}
    (h : (match cs with | '.' :: rest => readNumber 10 3 255 false rest | _ => none) = some (n, rest)) :
    ∃ taken, cs = '.' :: taken ++ rest ∧ NoSeparator taken := by
  split at h
  · obtain ⟨taken, rfl, htaken⟩ := readNumber_eq_append (by decide) h
    exact ⟨taken, rfl, htaken⟩
  · cases h

/-- An address of version 4 that is read takes a run of characters from the front, in which there are no colon and no bracket. -/
theorem read4_eq_append {cs rest : List Char} {numbers : Nat × Nat × Nat × Nat} (h : read4 cs = some (numbers, rest)) :
    ∃ taken, cs = taken ++ rest ∧ ':' ∉ taken ∧ '[' ∉ taken := by
  simp only [read4, Option.bind_eq_bind, Option.bind_eq_some_iff, Prod.exists] at h
  obtain ⟨a, cs₁, h₁, b, cs₂, h₂, c, cs₃, h₃, d, cs₄, h₄, heq⟩ := h
  obtain ⟨-, rfl⟩ := Prod.mk.inj (Option.some.inj heq)
  obtain ⟨taken₁, rfl, hcolon₁, -, hbracket₁⟩ := readNumber_eq_append (by decide) h₁
  obtain ⟨taken₂, rfl, hcolon₂, -, hbracket₂⟩ := next4_eq_append h₂
  obtain ⟨taken₃, rfl, hcolon₃, -, hbracket₃⟩ := next4_eq_append h₃
  obtain ⟨taken₄, rfl, hcolon₄, -, hbracket₄⟩ := next4_eq_append h₄
  refine ⟨taken₁ ++ '.' :: taken₂ ++ '.' :: taken₃ ++ '.' :: taken₄, by simp, ?_, ?_⟩
  · simp [hcolon₁, hcolon₂, hcolon₃, hcolon₄]
  · simp [hbracket₁, hbracket₂, hbracket₃, hbracket₄]

/-! ## Addresses of version 6 -/

/-- What a group is read from: the first from where it stands, any other from behind a colon. -/
def behindLead (first : Bool) (cs : List Char) : Option (List Char) :=
  if first then some cs
  else match cs with
    | ':' :: rest => some rest
    | _ => none

/-- A group that is not the first has a colon before it. -/
theorem behindLead_eq_append {first : Bool} {cs rest : List Char} (h : behindLead first cs = some rest) :
    ∃ lead, cs = lead ++ rest ∧ '[' ∉ lead ∧ 1 ≤ lead.count ':' + first.toNat := by
  cases first with
  | true => exact ⟨[], Option.some.inj h, List.not_mem_nil, by decide⟩
  | false =>
    unfold behindLead at h
    rw [if_neg Bool.false_ne_true] at h
    split at h
    · obtain rfl := Option.some.inj h
      exact ⟨[':'], rfl, by decide, by decide⟩
    · cases h

/-- Groups that are read take a run of characters from the front, in which there is no bracket. Every group but the first has a colon before
it, but two groups that are dotted have one for both. -/
theorem readGroups_eq_append {limit : Nat} {first : Bool} {cs rest : List Char} {gs : List UInt16} {dots : Bool}
    (h : readGroups limit first cs = (gs, rest, dots)) :
    ∃ taken, cs = taken ++ rest ∧ '[' ∉ taken ∧ gs.length ≤ taken.count ':' + first.toNat + dots.toNat := by
  have hnothing : ∀ {cs rest : List Char} {gs : List UInt16} {first dots : Bool}, ([], cs, false) = (gs, rest, dots) →
      ∃ taken, cs = taken ++ rest ∧ '[' ∉ taken ∧ gs.length ≤ taken.count ':' + first.toNat + dots.toNat := by
    intro cs rest gs first dots heq
    obtain ⟨rfl, rfl, rfl⟩ : [] = gs ∧ cs = rest ∧ false = dots := by simpa using heq
    exact ⟨[], rfl, List.not_mem_nil, Nat.zero_le _⟩
  fun_induction readGroups limit first cs generalizing gs rest dots with
  | case1 => exact hnothing h
  | case2 => exact hnothing h
  | case4 => exact hnothing h
  | case3 =>
    rename_i behind hlead a b c d rest' hread
    obtain ⟨rfl, rfl, rfl⟩ : _ = gs ∧ rest' = rest ∧ true = dots := by simpa using h
    obtain ⟨front, rfl, hfront, hcolon⟩ := behindLead_eq_append hlead
    have hread4 : read4 behind = some ((a, b, c, d), rest') := by
      split at hread
      · cases hread
      · exact hread
    obtain ⟨taken, rfl, -, htaken⟩ := read4_eq_append hread4
    refine ⟨front ++ taken, by simp, by simp [hfront, htaken], ?_⟩
    simp only [List.length_cons, List.length_nil, List.count_append, Bool.toNat_true]
    omega
  | case5 =>
    rename_i behind hlead _ g behind' hnumber more rest' dots' hmore ih
    obtain ⟨rfl, rfl, rfl⟩ : _ = gs ∧ rest' = rest ∧ dots' = dots := by simpa using h
    obtain ⟨front, rfl, hfront, hcolon⟩ := behindLead_eq_append hlead
    obtain ⟨digits, rfl, -, -, hdigits⟩ := readNumber_eq_append (by decide) hnumber
    obtain ⟨taken, rfl, htaken, hlength⟩ := ih hmore
    refine ⟨front ++ digits ++ taken, by simp, by simp [hfront, hdigits, htaken], ?_⟩
    simp only [List.length_cons, List.count_append, Bool.toNat_false] at hlength ⊢
    omega

/-- An address of version 6 that is read takes a run of characters from the front, in which there are several colons and no bracket. -/
theorem read6_eq_append {cs rest : List Char} {gs : List UInt16} (h : read6 cs = some (gs, rest)) (hgs : gs.length = 8) :
    ∃ taken, cs = taken ++ rest ∧ '[' ∉ taken ∧ 2 ≤ taken.count ':' := by
  unfold read6 at h
  rcases hhead : readGroups 8 true cs with ⟨head, rest₁, dots⟩
  obtain ⟨taken₁, rfl, hbracket₁, hcount⟩ := readGroups_eq_append hhead
  simp only [hhead] at h
  split at h
  · rename_i hlength
    obtain ⟨rfl, rfl⟩ := Prod.mk.inj (Option.some.inj h)
    have := Bool.toNat_le dots
    simp only [Bool.toNat_true] at hcount
    exact ⟨taken₁, rfl, hbracket₁, by omega⟩
  · split at h
    · cases h
    · split at h
      · rename_i rest₂
        rcases htail : readGroups (7 - head.length) true rest₂ with ⟨tail, rest₃, dots'⟩
        obtain ⟨taken₂, rfl, hbracket₂, -⟩ := readGroups_eq_append htail
        simp only [htail] at h
        obtain ⟨-, rfl⟩ := Prod.mk.inj (Option.some.inj h)
        refine ⟨taken₁ ++ ':' :: ':' :: taken₂, by simp, by simp [hbracket₁, hbracket₂], ?_⟩
        simp only [List.count_append, List.count_cons_self]
        omega
      · cases h

/-! ## Texts that are read -/

/-- A text that is read as an address of version 4 has no colon and no bracket. -/
theorem not_mem_of_read_v4 {s : String} {bytes : Vector UInt8 4} (h : read s = some (.v4 bytes)) :
    ':' ∉ s.toList ∧ '[' ∉ s.toList := by
  unfold read at h
  split at h
  · rename_i hread
    obtain ⟨taken, heq, hcolon, hbracket⟩ := read4_eq_append hread
    rw [heq, List.append_nil]
    exact ⟨hcolon, hbracket⟩
  · split at h
    · cases h
    · cases h

/-- A text that is read as an address of version 6 has several colons and no bracket. -/
theorem count_of_read_v6 {s : String} {groups : Vector UInt16 8} (h : read s = some (.v6 groups)) :
    2 ≤ s.toList.count ':' ∧ '[' ∉ s.toList := by
  unfold read at h
  split at h
  · cases h
  · split at h
    · rename_i hread
      obtain ⟨taken, heq, hbracket, hcount⟩ := read6_eq_append hread rfl
      rw [heq, List.append_nil]
      exact ⟨hcount, hbracket⟩
    · cases h

theorem isHost_of_read {s : String} {a : IpAddress} (h : read s = some a) : (Endpoint.mk s).IsHost := by
  have hunbracketed : '[' ∉ s.toList → s.toList.head? ≠ some '[' := fun hnot hhead => hnot (List.mem_of_mem_head? hhead)
  cases a with
  | v4 bytes =>
    obtain ⟨hcolon, hbracket⟩ := not_mem_of_read_v4 h
    exact ⟨hunbracketed hbracket, by simp [List.count_eq_zero.2 hcolon]⟩
  | v6 groups =>
    obtain ⟨hcount, hbracket⟩ := count_of_read_v6 h
    exact ⟨hunbracketed hbracket, by simp only; omega⟩

/-! ## Addresses of version 4 are read from their texts -/

theorem toList_dotted (a b c d : Nat) : (dotted [a, b, c, d]).toList =
    Nat.toDigits 10 a ++ '.' :: (Nat.toDigits 10 b ++ '.' :: (Nat.toDigits 10 c ++ '.' :: Nat.toDigits 10 d)) := by
  rw [dotted, String.toList_intercalate]
  simp [List.intercalate_cons_cons]

theorem read4_dotted {a b c d : Nat} (ha : a ≤ 255) (hb : b ≤ 255) (hc : c ≤ 255) (hd : d ≤ 255) :
    read4 (dotted [a, b, c, d]).toList = some ((a, b, c, d), []) := by
  have hnumber : ∀ n ≤ 255, ∀ rest : List Char, (∀ c ∈ rest.head?, digit? 10 c = none) →
      readNumber 10 3 255 false (Nat.toDigits 10 n ++ rest) = some (n, rest) := by
    intro n hn rest hrest
    have hwidth : (Nat.toDigits 10 n).length ≤ 3 := (Nat.length_toDigits_le_iff (by decide) (by decide)).2 (by omega)
    exact readNumber_toDigits (by decide) (by decide) hwidth hn hrest
  have hdot : ∀ (rest : List Char), ∀ c ∈ ('.' :: rest).head?, digit? 10 c = none := by
    rintro rest c hc
    obtain rfl := Option.some.inj hc
    decide
  have hlast := hnumber d hd [] (fun c hc => by cases hc)
  rw [List.append_nil] at hlast
  simp only [toList_dotted, read4, hnumber a ha _ (hdot _), hnumber b hb _ (hdot _), hnumber c hc _ (hdot _), hlast,
    Option.bind_eq_bind, Option.bind_some]
  rfl

/-! ## Addresses of version 6 are read from their texts -/

/-- The colon and the digits of each of some groups. -/
def trail (gs : List UInt16) : List Char := gs.flatMap (fun g => ':' :: Nat.toDigits 16 g.toNat)

/-- The characters of groups are those of the first, and a trail of the others. -/
theorem toList_groupsText_cons (g : UInt16) (gs : List UInt16) :
    (groupsText (g :: gs)).toList = Nat.toDigits 16 g.toNat ++ trail gs := by
  induction gs generalizing g with
  | nil => simp [groupsText, groupText, trail]
  | cons g' gs ih =>
    have hrest := ih g'
    simp only [groupsText, String.toList_intercalate, List.map_cons, List.intercalate_cons_cons, groupText, String.toList_ofList]
      at hrest ⊢
    rw [hrest]
    simp [trail]

theorem dot_not_mem_group (g : UInt16) : '.' ∉ Nat.toDigits 16 g.toNat :=
  (noSeparator_of_digits (by decide) (fun _ hc => isSome_digit?_of_mem_toDigits (by decide) (by decide) hc)).2.1

theorem dot_not_mem_trail (gs : List UInt16) : '.' ∉ trail gs := by
  simp [trail, dot_not_mem_group]

theorem dot_not_mem_groupsText (gs : List UInt16) : '.' ∉ (groupsText gs).toList := by
  cases gs with
  | nil => exact List.not_mem_nil
  | cons g gs => simp [toList_groupsText_cons, dot_not_mem_group, dot_not_mem_trail]

/-- A group is read from its digits, if a colon follows or nothing. -/
theorem readNumber_group (g : UInt16) {rest : List Char} (hrest : ∀ c ∈ rest.head?, c = ':') :
    readNumber 16 4 65535 true (Nat.toDigits 16 g.toNat ++ rest) = some (g.toNat, rest) := by
  have hlimit : g.toNat ≤ 65535 := Nat.le_of_lt_succ g.toNat_lt
  have hwidth : (Nat.toDigits 16 g.toNat).length ≤ 4 := (Nat.length_toDigits_le_iff (by decide) (by decide)).2 (by omega)
  exact readNumber_toDigits (by decide) (by decide) hwidth hlimit (fun c hc => digit?_separator (by decide) (.inl (hrest c hc)))

section Groups

variable {limit g : Nat} {first dots : Bool} {cs behind rest left : List Char} {more : List UInt16}

/-- The reader of groups stops where neither an address of version 4 nor a number stands. -/
theorem readGroups_of_none (hlead : behindLead first cs = some behind) (hread : read4 behind = none)
    (hnumber : readNumber 16 4 65535 true behind = none) : readGroups (limit + 1) first cs = ([], cs, false) := by
  unfold readGroups
  dsimp only
  split
  · rfl
  · rename_i behind' hbehind
    obtain rfl : behind = behind' := Option.some.inj (hlead.symm.trans hbehind)
    rw [hread, ite_self, hnumber]

/-- The reader of groups goes on behind a number, if no address of version 4 stands there. -/
theorem readGroups_of_some (hlead : behindLead first cs = some behind) (hread : read4 behind = none)
    (hnumber : readNumber 16 4 65535 true behind = some (g, rest)) (hmore : readGroups limit false rest = (more, left, dots)) :
    readGroups (limit + 1) first cs = (UInt16.ofNat g :: more, left, dots) := by
  unfold readGroups
  dsimp only
  split
  · rename_i hnone
    cases hlead.symm.trans hnone
  · rename_i behind' hbehind
    obtain rfl : behind = behind' := Option.some.inj (hlead.symm.trans hbehind)
    rw [hread, ite_self, hnumber]
    dsimp only
    rw [hmore]

end Groups

/-- Where the groups end: at the end of the text, or at the two colons of zeros that are left out. No dot follows. -/
structure EndsGroups (rest : List Char) : Prop where
  closes : rest = [] ∨ ∃ behind, rest = ':' :: ':' :: behind
  undotted : '.' ∉ rest

theorem EndsGroups.head {rest : List Char} (h : EndsGroups rest) (gs : List UInt16) : ∀ c ∈ (trail gs ++ rest).head?, c = ':' := by
  cases gs with
  | nil =>
    rcases h.closes with rfl | ⟨behind, rfl⟩
    · simp [trail]
    · simp [trail]
  | cons g gs => simp [trail]

/-- A trail of groups is read back, if the groups end there. -/
theorem readGroups_trail {limit : Nat} {gs : List UInt16} {rest : List Char} (hlimit : gs.length ≤ limit) (hrest : EndsGroups rest) :
    readGroups limit false (trail gs ++ rest) = (gs, rest, false) := by
  induction gs generalizing limit with
  | nil =>
    cases limit with
    | zero => rfl
    | succ limit =>
      obtain ⟨rfl | ⟨behind, rfl⟩, hdot⟩ := hrest
      · rfl
      · have hnumber : readNumber 16 4 65535 true (':' :: behind) = none := readNumber_eq_none (by simp [digit?_separator])
        rw [List.mem_cons, not_or] at hdot
        exact readGroups_of_none rfl (read4_eq_none hdot.2) hnumber
  | cons g gs ih =>
    obtain ⟨limit, rfl⟩ : ∃ l, limit = l + 1 := Nat.exists_eq_add_one.2 (Nat.lt_of_lt_of_le (Nat.succ_pos _) hlimit)
    have hdot : '.' ∉ Nat.toDigits 16 g.toNat ++ (trail gs ++ rest) := by
      simp [dot_not_mem_group, dot_not_mem_trail, hrest.undotted]
    have hchars : trail (g :: gs) ++ rest = ':' :: (Nat.toDigits 16 g.toNat ++ (trail gs ++ rest)) := by simp [trail]
    rw [hchars, readGroups_of_some rfl (read4_eq_none hdot) (readNumber_group g (hrest.head gs)) (ih (Nat.le_of_succ_le_succ hlimit)),
      UInt16.ofNat_toNat]

/-- Groups between colons are read back, if the groups end there. -/
theorem readGroups_groupsText {limit : Nat} {gs : List UInt16} {rest : List Char} (hlimit : gs.length ≤ limit) (hrest : EndsGroups rest) :
    readGroups limit true ((groupsText gs).toList ++ rest) = (gs, rest, false) := by
  cases limit with
  | zero =>
    obtain rfl := List.length_eq_zero_iff.1 (Nat.le_zero.1 hlimit)
    rfl
  | succ limit =>
    cases gs with
    | nil =>
      have hnumber : readNumber 16 4 65535 true rest = none :=
        readNumber_eq_none (fun c hc => digit?_separator (by decide) (.inl (hrest.head [] c hc)))
      exact readGroups_of_none rfl (read4_eq_none hrest.undotted) hnumber
    | cons g gs =>
      have hdot : '.' ∉ Nat.toDigits 16 g.toNat ++ (trail gs ++ rest) := by
        simp [dot_not_mem_group, dot_not_mem_trail, hrest.undotted]
      rw [toList_groupsText_cons, List.append_assoc, readGroups_of_some rfl (read4_eq_none hdot) (readNumber_group g (hrest.head gs))
        (readGroups_trail (Nat.le_of_succ_le_succ hlimit) hrest), UInt16.ofNat_toNat]

theorem eq_replicate_zeroRun (gs : List UInt16) : ∃ post, gs = List.replicate (zeroRun gs) 0 ++ post := by
  induction gs with
  | nil => exact ⟨[], rfl⟩
  | cons g gs ih =>
    rw [zeroRun]
    split
    · rename_i hzero
      obtain ⟨post, hpost⟩ := ih
      exact ⟨post, by rw [List.replicate_succ, List.cons_append, ← hpost, hzero]⟩
    · exact ⟨g :: gs, rfl⟩

/-- The run of zeros that is found stands where it is said to. -/
theorem eq_append_longestZeroRun {place start length : Nat} {gs : List UInt16} (h : longestZeroRun place gs = (start, length)) :
    ∃ pre post, gs = pre ++ List.replicate length 0 ++ post ∧ start = place + pre.length := by
  induction gs generalizing place with
  | nil =>
    obtain ⟨rfl, rfl⟩ := Prod.mk.inj h
    exact ⟨[], [], rfl, rfl⟩
  | cons g gs ih =>
    rw [longestZeroRun] at h
    split at h
    · obtain ⟨rfl, rfl⟩ := Prod.mk.inj h
      obtain ⟨post, hpost⟩ := eq_replicate_zeroRun (g :: gs)
      exact ⟨[], post, by rw [List.nil_append, ← hpost], rfl⟩
    · obtain ⟨pre, post, rfl, rfl⟩ := ih h
      exact ⟨g :: pre, post, rfl, by rw [List.length_cons]; omega⟩

theorem read6_groupsText {gs : List UInt16} (h : gs.length = 8) : read6 (groupsText gs).toList = some (gs, []) := by
  have hgroups : readGroups 8 true ((groupsText gs).toList ++ []) = (gs, [], false) :=
    readGroups_groupsText (Nat.le_of_eq h) ⟨.inl rfl, List.not_mem_nil⟩
  rw [List.append_nil] at hgroups
  rw [read6, hgroups]
  exact if_pos h

/-- Groups, two colons and more groups are read as an address with zeros between them. -/
theorem read6_of_zeros {cs behind rest : List Char} {head tail : List UInt16} {dots : Bool} (hlength : head.length < 8)
    (hhead : readGroups 8 true cs = (head, ':' :: ':' :: behind, false))
    (htail : readGroups (7 - head.length) true behind = (tail, rest, dots)) :
    read6 cs = some (head ++ List.replicate (8 - head.length - tail.length) 0 ++ tail, rest) := by
  rw [read6, hhead]
  dsimp only
  rw [if_neg (Nat.ne_of_lt hlength), if_neg Bool.false_ne_true]
  split
  · rename_i behind' heq
    obtain rfl : behind = behind' := by simpa using heq
    simp only [htail]
  · rename_i hnot
    exact absurd rfl (hnot behind)

/-- Groups with zeros left out between them are read back. -/
theorem read6_shortened {pre post : List UInt16} {length : Nat} (hsum : pre.length + length + post.length = 8) (hlength : 2 ≤ length) :
    read6 (groupsText pre ++ "::" ++ groupsText post).toList = some (pre ++ List.replicate length 0 ++ post, []) := by
  have hchars : (groupsText pre ++ "::" ++ groupsText post).toList = (groupsText pre).toList ++ ':' :: ':' :: (groupsText post).toList := by
    simp
  have hpre : readGroups 8 true ((groupsText pre).toList ++ ':' :: ':' :: (groupsText post).toList) =
      (pre, ':' :: ':' :: (groupsText post).toList, false) :=
    readGroups_groupsText (by omega) ⟨.inr ⟨_, rfl⟩, by simp [dot_not_mem_groupsText]⟩
  have hpost : readGroups (7 - pre.length) true ((groupsText post).toList ++ []) = (post, [], false) :=
    readGroups_groupsText (by omega) ⟨.inl rfl, List.not_mem_nil⟩
  rw [List.append_nil] at hpost
  have hleft : 8 - pre.length - post.length = length := by omega
  rw [hchars, read6_of_zeros (by omega) hpre hpost, hleft]

/-- The dotted text of an address of version 4 is read as two groups. -/
theorem readGroups_dotted {limit : Nat} (hi lo : UInt16) :
    readGroups (limit + 2) false (':' :: (dotted [hi.toNat / 256, hi.toNat % 256, lo.toNat / 256, lo.toNat % 256]).toList) =
      ([hi, lo], [], true) := by
  have hhi := hi.toNat_lt
  have hlo := lo.toNat_lt
  have hread : read4 (dotted [hi.toNat / 256, hi.toNat % 256, lo.toNat / 256, lo.toNat % 256]).toList = some (_, []) :=
    read4_dotted (by omega) (by omega) (by omega) (by omega)
  have hstep : ∀ (behind rest : List Char) (a b c d : Nat), read4 behind = some ((a, b, c, d), rest) →
      readGroups (limit + 2) false (':' :: behind) = ([UInt16.ofNat (256 * a + b), UInt16.ofNat (256 * c + d)], rest, true) := by
    intro behind rest a b c d h
    rw [readGroups]
    dsimp only
    rw [if_neg Bool.false_ne_true]
    dsimp only
    rw [if_neg (Nat.succ_ne_zero _), h]
  rw [hstep _ _ _ _ _ _ hread, Nat.div_add_mod, Nat.div_add_mod, UInt16.ofNat_toNat, UInt16.ofNat_toNat]

theorem toList_mapped (text : String) :
    ("::ffff:" ++ text).toList = ':' :: ':' :: (Nat.toDigits 16 (0xffff : UInt16).toNat ++ ':' :: text.toList) := by
  rw [String.toList_append]
  rfl

theorem readGroups_ones {limit : Nat} {rest left : List Char} {gs : List UInt16} {dots : Bool}
    (h : readGroups limit false (':' :: rest) = (gs, left, dots)) :
    readGroups (limit + 1) true (Nat.toDigits 16 (0xffff : UInt16).toNat ++ ':' :: rest) = (0xffff :: gs, left, dots) := by
  have hletters : ∀ c ∈ (Nat.toDigits 16 (0xffff : UInt16).toNat ++ ':' :: rest).head?, digit? 10 c = none := by
    rintro c hc
    obtain rfl := Option.some.inj (show some 'f' = some c from hc)
    decide
  exact readGroups_of_some rfl (read4_eq_none_of_head hletters) (readNumber_group (0xffff : UInt16) (by simp)) h

theorem readGroups_colon {limit : Nat} (rest : List Char) : readGroups (limit + 1) true (':' :: rest) = ([], ':' :: rest, false) := by
  have hcolon : ∀ (base : Nat), base ≤ 16 → ∀ c ∈ (':' :: rest).head?, digit? base c = none := by
    rintro base hbase c hc
    obtain rfl := Option.some.inj hc
    exact digit?_separator hbase (.inl rfl)
  exact readGroups_of_none rfl (read4_eq_none_of_head (hcolon 10 (by decide))) (readNumber_eq_none (hcolon 16 (by decide)))

/-- An address that stands for one of version 4 is read back. -/
theorem read6_mapped (hi lo : UInt16) :
    read6 ("::ffff:" ++ dotted [hi.toNat / 256, hi.toNat % 256, lo.toNat / 256, lo.toNat % 256]).toList =
      some ([0, 0, 0, 0, 0, 0xffff, hi, lo], []) := by
  rw [toList_mapped, read6_of_zeros (by decide) (readGroups_colon _) (readGroups_ones (readGroups_dotted hi lo))]
  rfl

/-- The text of the groups of an address is read back as them, and as no address of version 4. -/
theorem read_text6 {gs : List UInt16} (h : gs.length = 8) : read4 (text6 gs).toList = none ∧ read6 (text6 gs).toList = some (gs, []) := by
  unfold text6
  split
  · rename_i hi lo
    refine ⟨?_, read6_mapped hi lo⟩
    rw [toList_mapped]
    exact read4_eq_none_of_head (by simp [digit?_separator])
  · rcases hrun : longestZeroRun 0 gs with ⟨start, length⟩
    obtain ⟨pre, post, rfl, rfl⟩ := eq_append_longestZeroRun hrun
    dsimp only
    split
    · rename_i hlength
      have htake : (pre ++ List.replicate length 0 ++ post).take (0 + pre.length) = pre := by simp
      have hdrop : (pre ++ List.replicate length 0 ++ post).drop (0 + pre.length + length) = post := by
        have hfront : 0 + pre.length + length = (pre ++ List.replicate length (0 : UInt16)).length := by simp
        rw [hfront, List.drop_left]
      rw [htake, hdrop]
      refine ⟨read4_eq_none (by simp [dot_not_mem_groupsText]), read6_shortened ?_ hlength⟩
      simpa [Nat.add_assoc] using h
    · exact ⟨read4_eq_none (dot_not_mem_groupsText _), read6_groupsText h⟩

theorem read_text (a : IpAddress) : read a.text = some a := by
  cases a with
  | v4 bytes =>
    obtain ⟨⟨bytes⟩, hsize⟩ := bytes
    match bytes, hsize with
    | [a, b, c, d], _ =>
      have hread := read4_dotted (Nat.le_of_lt_succ a.toNat_lt) (Nat.le_of_lt_succ b.toNat_lt) (Nat.le_of_lt_succ c.toNat_lt)
        (Nat.le_of_lt_succ d.toNat_lt)
      show read (dotted [a.toNat, b.toNat, c.toNat, d.toNat]) = _
      simp only [read, hread, UInt8.ofNat_toNat]
  | v6 groups =>
    obtain ⟨⟨groups⟩, hsize⟩ := groups
    obtain ⟨hread4, hread6⟩ := read_text6 hsize
    match groups, hsize with
    | [a, b, c, d, e, f, g, h], _ =>
      show read (text6 [a, b, c, d, e, f, g, h]) = _
      simp only [read, hread4, hread6]

end IpAddress

end TelemetryRouter
