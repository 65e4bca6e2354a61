import Mathlib.Data.String.Basic
import TelemetryRouter.Balancer.Passes

/-!
# Addresses and their ports

An address tells a port when it ends in a colon and the text of a port number (`Endpoint.Tells`); the colon is the last one of the address,
because the text of a number has none (`splitLastColon_eq_some_iff`). `Endpoint.hasPort_iff` says which addresses count as having a port:
those with one colon that tell a port, and whatever starts with a bracket and has a colon right behind a closing one. The second rule
does not look at what stands behind the colon. So an address that is completed tells a port exactly if it does not come under the second
rule without telling one (`completed_tells_iff`).
-/

namespace TelemetryRouter

variable {α : Type}

/-! ## Texts of port numbers -/

namespace PortNumber

theorem digit?_digitChar {n : Nat} (h : n < 10) : digit? n.digitChar = some n := by
  have key : ∀ m : Fin 10, digit? (Nat.digitChar m) = some m.val := by decide
  exact key ⟨n, h⟩

/-- The digits of a number bring the reader to that number. -/
theorem readDigits_toDigits {n : Nat} (h : n ≤ 65535) (rest : List Char) :
    readDigits 0 (Nat.toDigits 10 n ++ rest) = readDigits n rest := by
  induction n using Nat.strongRecOn generalizing rest with
  | ind n ih =>
    by_cases hn : n < 10
    · rw [Nat.toDigits_of_lt_base hn, List.singleton_append, readDigits, digit?_digitChar hn]
      simp [h]
    · have hsum : 10 * (n / 10) + n % 10 = n := Nat.div_add_mod n 10
      rw [Nat.toDigits_of_base_le (by decide) (Nat.le_of_not_lt hn), List.append_assoc, ih (n / 10) (by omega) (by omega),
        List.singleton_append, readDigits, digit?_digitChar (Nat.mod_lt n (by decide))]
      simp only [hsum, if_pos h]

theorem readChars_toDigits {n : Nat} (h : n ≤ 65535) : readChars (Nat.toDigits 10 n) = .ok n := by
  have hread := readDigits_toDigits h []
  rw [List.append_nil] at hread
  have hdigits : ∀ c ∈ Nat.toDigits 10 n, c.isDigit = true := fun c hc => Nat.isDigit_of_mem_toDigits (by decide) (by decide) hc
  unfold readChars
  split
  · rename_i hnil
    exact absurd hnil Nat.toDigits_ne_nil
  · rename_i hplus
    rw [hplus] at hdigits
    exact absurd (hdigits '+' List.mem_cons_self) (by decide)
  · rename_i hplus
    rw [hplus] at hdigits
    exact absurd (hdigits '+' List.mem_cons_self) (by decide)
  · exact hread

theorem read_toString (port : UInt16) : read (toString port.toNat) = .ok port := by
  have htext : (toString port.toNat).toList = Nat.toDigits 10 port.toNat := by simp
  rw [read, htext, readChars_toDigits (Nat.le_of_lt_succ port.toNat_lt), Except.map, UInt16.ofNat_toNat]

theorem colon_not_mem_of_readDigits {acc n : Nat} {cs : List Char} (h : readDigits acc cs = .ok n) : ':' ∉ cs := by
  induction cs generalizing acc with
  | nil => exact List.not_mem_nil
  | cons c cs ih =>
    rw [readDigits] at h
    split at h
    · cases h
    · rename_i d hd
      split at h
      · rw [List.mem_cons, not_or]
        refine ⟨?_, ih h⟩
        rintro rfl
        have hnone : digit? ':' = none := by decide
        rw [hnone] at hd
        cases hd
      · cases h

theorem colon_not_mem_of_readChars {n : Nat} {cs : List Char} (h : readChars cs = .ok n) : ':' ∉ cs := by
  unfold readChars at h
  split at h
  · cases h
  · cases h
  · rw [List.mem_cons, not_or]
    exact ⟨by decide, colon_not_mem_of_readDigits h⟩
  · exact colon_not_mem_of_readDigits h

theorem isPort_iff (cs : List Char) : isPort cs = true ↔ ∃ n, readChars cs = .ok n := by
  unfold isPort
  split <;> simp [*]

end PortNumber

/-! ## The last colon -/

namespace Endpoint

theorem splitLastColon_eq_none_iff (cs : List Char) : splitLastColon cs = none ↔ ':' ∉ cs := by
  induction cs with
  | nil => simp [splitLastColon]
  | cons c cs ih =>
    rw [splitLastColon, List.mem_cons, not_or]
    split
    · rename_i host port hsplit
      simp only [hsplit, reduceCtorEq, false_iff] at ih ⊢
      exact fun h => ih h.2
    · rename_i hsplit
      by_cases hc : c = ':'
      · simp [hc]
      · simp [hc, Ne.symm hc, ih.1 hsplit]

/-- With no colon behind it, a colon is where the characters are split. -/
theorem splitLastColon_append {host port : List Char} (h : ':' ∉ port) : splitLastColon (host ++ ':' :: port) = some (host, port) := by
  induction host with
  | nil =>
    rw [List.nil_append, splitLastColon, (splitLastColon_eq_none_iff port).2 h]
    rfl
  | cons c host ih => rw [List.cons_append, splitLastColon, ih]

theorem eq_append_of_splitLastColon {cs host port : List Char} (h : splitLastColon cs = some (host, port)) :
    cs = host ++ ':' :: port ∧ ':' ∉ port := by
  induction cs generalizing host port with
  | nil => cases h
  | cons c cs ih =>
    rw [splitLastColon] at h
    split at h
    · rename_i host' port' hsplit
      obtain ⟨rfl, rfl⟩ := Prod.mk.inj (Option.some.inj h)
      obtain ⟨hcs, hport⟩ := ih hsplit
      exact ⟨by rw [hcs, List.cons_append], hport⟩
    · rename_i hsplit
      split at h
      · rename_i hcolon
        obtain ⟨rfl, rfl⟩ := Prod.mk.inj (Option.some.inj h)
        exact ⟨by rw [hcolon, List.nil_append], (splitLastColon_eq_none_iff cs).1 hsplit⟩
      · cases h

/-- A split at the last colon gives what stands before it and what stands behind it. -/
theorem splitLastColon_eq_some_iff {cs host port : List Char} :
    splitLastColon cs = some (host, port) ↔ cs = host ++ ':' :: port ∧ ':' ∉ port := by
  constructor
  · exact eq_append_of_splitLastColon
  · rintro ⟨rfl, hport⟩
    exact splitLastColon_append hport

/-- A closing bracket right before a colon is found wherever it stands. -/
theorem closesBeforeColon_append (host tail : List Char) : closesBeforeColon (host ++ ']' :: ':' :: tail) = true := by
  induction host with
  | nil => rfl
  | cons c host ih =>
    rw [List.cons_append]
    unfold closesBeforeColon
    split
    · rfl
    · rename_i heq
      rw [← (List.cons.inj heq).2]
      exact ih
    · rename_i heq
      cases heq

/-- The characters with a closing bracket right before a colon. -/
theorem closesBeforeColon_iff (cs : List Char) : closesBeforeColon cs = true ↔ ∃ host tail, cs = host ++ ']' :: ':' :: tail := by
  constructor
  · intro h
    fun_induction closesBeforeColon cs with
    | case1 tail => exact ⟨[], tail, rfl⟩
    | case2 c rest _ ih =>
      obtain ⟨host, tail, rfl⟩ := ih h
      exact ⟨c :: host, tail, rfl⟩
    | case3 => cases h
  · rintro ⟨host, tail, rfl⟩
    exact closesBeforeColon_append host tail

/-! ## Addresses that tell a port -/

/-- Whether an address ends in a colon and the text of a port. -/
def Tells (e : Endpoint) (port : UInt16) : Prop :=
  ∃ host text : String, e.address = host ++ ":" ++ text ∧ PortNumber.read text = .ok port

/-- Whether an address starts with a bracket and has a colon right behind a closing one. -/
def IsBracketed (e : Endpoint) : Prop := ∃ host tail : String, e.address = "[" ++ host ++ "]:" ++ tail

/-- An address tells a port exactly when a port number stands behind its last colon. -/
theorem exists_tells_iff (e : Endpoint) :
    (∃ port, e.Tells port) ↔ ∃ host text, splitLastColon e.address.toList = some (host, text) ∧ PortNumber.isPort text = true := by
  constructor
  · rintro ⟨port, host, text, haddress, hread⟩
    rw [PortNumber.read] at hread
    cases hchars : PortNumber.readChars text.toList with
    | error fault =>
      rw [hchars] at hread
      cases hread
    | ok n =>
      refine ⟨host.toList, text.toList, ?_, (PortNumber.isPort_iff _).2 ⟨n, hchars⟩⟩
      rw [splitLastColon_eq_some_iff]
      refine ⟨?_, PortNumber.colon_not_mem_of_readChars hchars⟩
      rw [haddress]
      simp
  · rintro ⟨host, text, hsplit, hport⟩
    obtain ⟨n, hn⟩ := (PortNumber.isPort_iff text).1 hport
    refine ⟨UInt16.ofNat n, String.ofList host, String.ofList text, ?_, ?_⟩
    · rw [← String.toList_inj, (splitLastColon_eq_some_iff.1 hsplit).1]
      simp
    · rw [PortNumber.read, String.toList_ofList, hn]
      rfl

theorem isBracketed_iff (e : Endpoint) :
    e.IsBracketed ↔ ∃ rest, e.address.toList = '[' :: rest ∧ closesBeforeColon rest = true := by
  constructor
  · rintro ⟨host, tail, haddress⟩
    refine ⟨host.toList ++ ']' :: ':' :: tail.toList, ?_, closesBeforeColon_append _ _⟩
    rw [haddress]
    simp
  · rintro ⟨rest, hchars, hcloses⟩
    obtain ⟨host, tail, rfl⟩ := (closesBeforeColon_iff rest).1 hcloses
    refine ⟨String.ofList host, String.ofList tail, ?_⟩
    rw [← String.toList_inj, hchars]
    simp

/-- An address counts as having a port if it is bracketed, whatever stands behind the bracket and the colon, or if it starts with no
bracket, has one colon, and tells a port. -/
theorem hasPort_iff (e : Endpoint) : e.hasPort = true ↔
    e.IsBracketed ∨ e.address.toList.head? ≠ some '[' ∧ e.address.toList.count ':' = 1 ∧ ∃ port, e.Tells port := by
  rw [isBracketed_iff, exists_tells_iff, hasPort]
  generalize e.address.toList = cs
  unfold charsHavePort
  split
  · simp
  · rename_i hbracket
    have hnone : ¬∃ rest, cs = '[' :: rest ∧ closesBeforeColon rest = true := fun ⟨rest, hcs, _⟩ => hbracket rest hcs
    have hhead : cs.head? ≠ some '[' := by
      intro h
      obtain ⟨rest, hcs⟩ := List.head?_eq_some_iff.1 h
      exact hbracket rest hcs
    rw [or_iff_right hnone, and_iff_right hhead]
    cases hsplit : splitLastColon cs with
    | none => simp
    | some parts =>
      obtain ⟨host, text⟩ := parts
      obtain ⟨hcs, htext⟩ := splitLastColon_eq_some_iff.1 hsplit
      have hcount : cs.count ':' = 1 ↔ ':' ∉ host := by
        rw [hcs, List.count_append, List.count_cons_self, List.count_eq_zero.2 htext, ← List.count_eq_zero]
        omega
      rw [hcount]
      simp

theorem tells_of_hasPort {e : Endpoint} (h : e.hasPort = true) (hbracketed : ¬e.IsBracketed) : ∃ port, e.Tells port :=
  ((e.hasPort_iff.1 h).resolve_left hbracketed).2.2

/-- An address that counts as having no port tells the port that it is completed with. -/
theorem tells_withDefaultPort {e : Endpoint} (h : e.hasPort = false) (port : UInt16) : (e.withDefaultPort port).Tells port := by
  rw [withDefaultPort, if_neg (Bool.eq_false_iff.1 h)]
  dsimp only
  split
  · refine ⟨"[" ++ e.address ++ "]", toString port.toNat, ?_, PortNumber.read_toString port⟩
    simp only [String.append_assoc]
  · refine ⟨e.address, toString port.toNat, ?_, PortNumber.read_toString port⟩
    simp only [String.append_assoc]

/-- An address that is completed tells a port exactly if it is not bracketed or tells one itself. What counts as having a port tells one
exactly under the same condition. An address that counts as having none tells the port that it is completed with, and an exporter is made
with the completed address. -/
theorem completed_tells_iff (e : Endpoint) (port : UInt16) :
    ((∃ p, (e.withDefaultPort port).Tells p) ↔ (e.IsBracketed → ∃ p, e.Tells p)) ∧
    ((e.hasPort = true → ∃ p, e.Tells p) ↔ (e.IsBracketed → ∃ p, e.Tells p)) ∧
    (e.hasPort = false → (e.withDefaultPort port).Tells port) ∧
    ∀ b : Balancer α, b.options.defaultPort = some port →
      ((∃ p, Tells ⟨b.addressFor e⟩ p) ↔ (e.IsBracketed → ∃ p, e.Tells p)) := by
  have hcompleted : (∃ p, (e.withDefaultPort port).Tells p) ↔ (e.IsBracketed → ∃ p, e.Tells p) := by
    cases hport : e.hasPort with
    | false =>
      have hnot : ¬e.IsBracketed := fun h => by
        rw [e.hasPort_iff.2 (.inl h)] at hport
        cases hport
      exact ⟨fun _ h => absurd h hnot, fun _ => ⟨port, tells_withDefaultPort hport port⟩⟩
    | true =>
      have hsame : e.withDefaultPort port = e := if_pos hport
      rw [hsame]
      refine ⟨fun h _ => h, fun h => ?_⟩
      by_cases hbracketed : e.IsBracketed
      · exact h hbracketed
      · exact tells_of_hasPort hport hbracketed
  refine ⟨hcompleted, ⟨fun h hbracketed => h (e.hasPort_iff.2 (.inl hbracketed)), fun h hport => ?_⟩,
    fun h => tells_withDefaultPort h port, fun b hb => ?_⟩
  · by_cases hbracketed : e.IsBracketed
    · exact h hbracketed
    · exact tells_of_hasPort hport hbracketed
  · have haddress : b.addressFor e = (e.withDefaultPort port).address := by rw [Balancer.addressFor, hb]
    rw [haddress]
    exact hcompleted

/-- An address in brackets with a name where the port should be counts as having a port and stays as it is, but tells none. -/
theorem not_tells_namedPort : (mk "[::1]:grpc").hasPort = true ∧ (mk "[::1]:grpc").withDefaultPort 4317 = mk "[::1]:grpc" ∧
    ¬∃ p, ((mk "[::1]:grpc").withDefaultPort 4317).Tells p := by
  have hport : (mk "[::1]:grpc").hasPort = true := by decide
  have hsame : (mk "[::1]:grpc").withDefaultPort 4317 = mk "[::1]:grpc" := if_pos hport
  have hsplit : splitLastColon (mk "[::1]:grpc").address.toList = some ("[::1]".toList, "grpc".toList) := by decide
  refine ⟨hport, hsame, ?_⟩
  rw [hsame, exists_tells_iff, hsplit]
  rintro ⟨host, text, heq, htext⟩
  obtain ⟨rfl, rfl⟩ := Prod.mk.inj (Option.some.inj heq)
  exact absurd htext (by decide)

end Endpoint

end TelemetryRouter
