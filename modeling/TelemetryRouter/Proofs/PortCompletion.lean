import TelemetryRouter.Proofs.PortText

/-!
# Completing addresses

An address that counts as having a port stays as it is when it is completed, and no other does (`Endpoint.withDefaultPort_eq_self_iff`). So
an address may be completed again without harm exactly if its completion counts as having a port, which fails only for a bracket that is
left open (`Endpoint.withDefaultPort_again_iff`). Hosts, which are addresses without a bracket in front and with no colon or several, are
never confused: the completed address tells host and port (`Endpoint.IsHost.withDefaultPort_inj`).
-/

namespace TelemetryRouter

theorem PortNumber.colon_not_mem_toString (port : UInt16) : ':' ∉ (toString port.toNat).toList := by
  have htext : (toString port.toNat).toList = Nat.toDigits 10 port.toNat := by simp
  rw [htext]
  exact colon_not_mem_of_readChars (readChars_toDigits (Nat.le_of_lt_succ port.toNat_lt))

namespace Endpoint

variable {e : Endpoint}

/-! ## The three shapes of a completed address -/

theorem withDefaultPort_of_hasPort (h : e.hasPort = true) (port : UInt16) : e.withDefaultPort port = e := if_pos h

/-- An address without a port that starts with no bracket and has colons is put between brackets. -/
theorem withDefaultPort_of_colons (h : e.hasPort = false) (hhead : e.address.toList.head? ≠ some '[') (hcolon : ':' ∈ e.address.toList)
    (port : UInt16) : e.withDefaultPort port = ⟨"[" ++ e.address ++ "]:" ++ toString port.toNat⟩ := by
  have hcontains : e.address.toList.contains ':' = true := List.contains_iff_mem.2 hcolon
  have hne : (e.address.toList.head? != some '[') = true := bne_iff_ne.2 hhead
  rw [withDefaultPort, if_neg (Bool.eq_false_iff.1 h)]
  dsimp only
  rw [hcontains, hne, Bool.and_self, if_pos rfl, ← String.append_assoc]
  congr 1
  rw [← String.toList_inj]
  simp

/-- Any other address without a port has the port put behind it. -/
theorem withDefaultPort_of_plain (h : e.hasPort = false) (hplain : e.address.toList.head? = some '[' ∨ ':' ∉ e.address.toList)
    (port : UInt16) : e.withDefaultPort port = ⟨e.address ++ ":" ++ toString port.toNat⟩ := by
  have hnot : (e.address.toList.contains ':' && e.address.toList.head? != some '[') = false := by
    rcases hplain with hhead | hcolon
    · simp [hhead]
    · simp [hcolon]
  rw [withDefaultPort, if_neg (Bool.eq_false_iff.1 h)]
  dsimp only
  rw [hnot, if_neg Bool.false_ne_true, ← String.append_assoc]

/-- An address stays as it is exactly when it counts as having a port. -/
theorem withDefaultPort_eq_self_iff (e : Endpoint) (port : UInt16) : e.withDefaultPort port = e ↔ e.hasPort = true := by
  refine ⟨fun hsame => ?_, fun h => withDefaultPort_of_hasPort h port⟩
  by_contra hnot
  have h : e.hasPort = false := Bool.eq_false_iff.2 hnot
  have hlength := congrArg (fun x : Endpoint => x.address.toList.length) hsame
  by_cases hplain : e.address.toList.head? = some '[' ∨ ':' ∉ e.address.toList
  · rw [withDefaultPort_of_plain h hplain] at hlength
    simp at hlength
  · rw [not_or, not_not] at hplain
    rw [withDefaultPort_of_colons h hplain.1 hplain.2] at hlength
    simp at hlength
    omega

/-! ## Completing an address again -/

/-- Behind a last colon nothing closes before a colon, so a bracket closes before one in the text in front, or right at its end. -/
theorem closesBeforeColon_append_colon {cs text : List Char} (h : ':' ∉ text) :
    closesBeforeColon (cs ++ ':' :: text) = true ↔ closesBeforeColon cs = true ∨ cs.getLast? = some ']' := by
  simp only [closesBeforeColon_iff]
  constructor
  · rintro ⟨host, tail, heq⟩
    rcases List.append_eq_append_iff.1 heq with ⟨mid, rfl, hmid⟩ | ⟨mid, rfl, hmid⟩
    · rcases mid with _ | ⟨c, mid⟩
      · cases hmid
      · refine absurd ?_ h
        rw [(List.cons.inj hmid).2]
        simp
    · rcases mid with _ | ⟨c, _ | ⟨c', mid⟩⟩
      · cases hmid
      · rw [← (List.cons.inj hmid).1]
        exact .inr List.getLast?_concat
      · obtain ⟨hc, hrest⟩ := List.cons.inj hmid
        obtain ⟨hc', -⟩ := List.cons.inj hrest
        exact .inl ⟨host, mid, by rw [← hc, ← hc']⟩
  · rintro (⟨host, tail, rfl⟩ | hlast)
    · exact ⟨host, tail ++ ':' :: text, by simp⟩
    · obtain ⟨host, rfl⟩ := List.getLast?_eq_some_iff.1 hlast
      exact ⟨host, text, by simp⟩

theorem exists_eq_bracket_append_iff (e : Endpoint) : (∃ rest, e.address = "[" ++ rest) ↔ e.address.toList.head? = some '[' := by
  rw [List.head?_eq_some_iff]
  constructor
  · rintro ⟨rest, heq⟩
    exact ⟨rest.toList, by rw [heq]; simp⟩
  · rintro ⟨cs, heq⟩
    exact ⟨String.ofList cs, by rw [← String.toList_inj, heq]; simp⟩

theorem exists_eq_append_bracket_iff (e : Endpoint) : (∃ host, e.address = host ++ "]") ↔ e.address.toList.getLast? = some ']' := by
  rw [List.getLast?_eq_some_iff]
  constructor
  · rintro ⟨host, heq⟩
    exact ⟨host.toList, by rw [heq]; simp⟩
  · rintro ⟨cs, heq⟩
    exact ⟨String.ofList cs, by rw [← String.toList_inj, heq]; simp⟩

/-- The addresses with a closing bracket right before a colon. -/
theorem exists_eq_append_closes_iff (e : Endpoint) :
    (∃ host tail, e.address = host ++ "]:" ++ tail) ↔ closesBeforeColon e.address.toList = true := by
  rw [closesBeforeColon_iff]
  constructor
  · rintro ⟨host, tail, heq⟩
    exact ⟨host.toList, tail.toList, by rw [heq]; simp⟩
  · rintro ⟨host, tail, heq⟩
    exact ⟨String.ofList host, String.ofList tail, by rw [← String.toList_inj, heq]; simp⟩

/-- An address that starts with a bracket counts as having a port exactly when a bracket in it closes before a colon. -/
theorem hasPort_of_bracket (h : e.address.toList.head? = some '[') : e.hasPort = closesBeforeColon e.address.toList := by
  obtain ⟨rest, hrest⟩ := List.head?_eq_some_iff.1 h
  rw [hasPort, hrest]
  rfl

/-- A completed address counts as having a port if it starts with no bracket. -/
theorem hasPort_withDefaultPort_of_head (hhead : e.address.toList.head? ≠ some '[') (port : UInt16) :
    (e.withDefaultPort port).hasPort = true := by
  cases hport : e.hasPort with
  | true => rwa [withDefaultPort_of_hasPort hport]
  | false =>
    by_cases hcolon : ':' ∈ e.address.toList
    · rw [withDefaultPort_of_colons hport hhead hcolon]
      exact (hasPort_iff _).2 (.inl ⟨e.address, toString port.toNat, rfl⟩)
    · have htells := tells_withDefaultPort hport port
      rw [withDefaultPort_of_plain hport (.inr hcolon)] at htells ⊢
      refine (hasPort_iff _).2 (.inr ⟨?_, ?_, port, htells⟩)
      · cases hchars : e.address.toList with
        | nil => simp [hchars]
        | cons c cs => simpa [hchars] using hhead
      · have hbefore := List.count_eq_zero.2 hcolon
        have hbehind := List.count_eq_zero.2 (PortNumber.colon_not_mem_toString port)
        simp only [String.toList_append, List.count_append, hbefore, hbehind]
        rfl

/-- A completed address counts as having a port, unless it starts with a bracket that is closed neither at its end nor before a colon. -/
theorem hasPort_withDefaultPort_iff (e : Endpoint) (port : UInt16) : (e.withDefaultPort port).hasPort = true ↔
    e.address.toList.head? ≠ some '[' ∨ e.address.toList.getLast? = some ']' ∨ closesBeforeColon e.address.toList = true := by
  by_cases hhead : e.address.toList.head? = some '['
  · rw [or_iff_right (not_not.2 hhead)]
    cases hport : e.hasPort with
    | true =>
      rw [withDefaultPort_of_hasPort hport, ← hasPort_of_bracket hhead, hport]
      simp
    | false =>
      have hchars : (⟨e.address ++ ":" ++ toString port.toNat⟩ : Endpoint).address.toList =
          e.address.toList ++ ':' :: (toString port.toNat).toList := by simp
      have hhead' : (⟨e.address ++ ":" ++ toString port.toNat⟩ : Endpoint).address.toList.head? = some '[' := by
        rw [hchars, List.head?_append, hhead, Option.some_or]
      rw [withDefaultPort_of_plain hport (.inl hhead), hasPort_of_bracket hhead', hchars,
        closesBeforeColon_append_colon (PortNumber.colon_not_mem_toString port), or_comm]
  · exact iff_of_true (hasPort_withDefaultPort_of_head hhead port) (.inl hhead)

/-- Completing an address with a port and then with any other is completing it once, exactly if the address does not start with a bracket,
ends in a closing one, or has a closing one right before a colon. -/
theorem withDefaultPort_again_iff (e : Endpoint) (p q : UInt16) :
    (e.withDefaultPort p).withDefaultPort q = e.withDefaultPort p ↔
      ¬(∃ rest, e.address = "[" ++ rest) ∨ (∃ host, e.address = host ++ "]") ∨ ∃ host tail, e.address = host ++ "]:" ++ tail := by
  rw [exists_eq_bracket_append_iff, exists_eq_append_bracket_iff, exists_eq_append_closes_iff, withDefaultPort_eq_self_iff,
    hasPort_withDefaultPort_iff]

/-- A bracket that is left open gets another port each time. -/
example : ((mk "[::1").withDefaultPort 1).withDefaultPort 2 = mk "[::1:1:2" := by decide

/-! ## Hosts -/

/-- Whether an address is a host alone: no bracket stands in front, and it has no colon or several. -/
structure IsHost (e : Endpoint) : Prop where
  unbracketed : e.address.toList.head? ≠ some '['
  colons : e.address.toList.count ':' ≠ 1

theorem IsHost.hasPort (h : e.IsHost) : e.hasPort = false := by
  rw [Bool.eq_false_iff, Ne, hasPort_iff]
  rintro (⟨host, tail, heq⟩ | ⟨-, hone, -⟩)
  · rw [String.append_assoc, String.append_assoc] at heq
    exact h.unbracketed ((exists_eq_bracket_append_iff e).1 ⟨_, heq⟩)
  · exact h.colons hone

/-- A host as it stands in front of a port: between brackets if it has colons. -/
def hostText (e : Endpoint) : String := if ':' ∈ e.address.toList then "[" ++ e.address ++ "]" else e.address

theorem IsHost.withDefaultPort_eq (h : e.IsHost) (port : UInt16) :
    e.withDefaultPort port = ⟨e.hostText ++ ":" ++ toString port.toNat⟩ := by
  by_cases hcolon : ':' ∈ e.address.toList
  · rw [withDefaultPort_of_colons h.hasPort h.unbracketed hcolon, hostText, if_pos hcolon]
    simp only [String.append_assoc]
    rfl
  · rw [withDefaultPort_of_plain h.hasPort (.inr hcolon), hostText, if_neg hcolon]

/-- Hosts that stand the same in front of a port are the same. -/
theorem IsHost.hostText_inj {a b : Endpoint} (ha : a.IsHost) (hb : b.IsHost) (h : a.hostText = b.hostText) : a = b := by
  suffices haddress : a.address = b.address by
    show Endpoint.mk a.address = Endpoint.mk b.address
    rw [haddress]
  unfold hostText at h
  split at h <;> split at h
  · rwa [String.append_left_inj, String.append_right_inj] at h
  · rw [String.append_assoc] at h
    exact absurd ((exists_eq_bracket_append_iff b).1 ⟨_, h.symm⟩) hb.unbracketed
  · rw [String.append_assoc] at h
    exact absurd ((exists_eq_bracket_append_iff a).1 ⟨_, h⟩) ha.unbracketed
  · exact h

theorem IsHost.withDefaultPort_inj {a b : Endpoint} (ha : a.IsHost) (hb : b.IsHost) {p q : UInt16}
    (h : a.withDefaultPort p = b.withDefaultPort q) : a = b ∧ p = q := by
  rw [ha.withDefaultPort_eq, hb.withDefaultPort_eq] at h
  have hsplit : ∀ (e : Endpoint) (port : UInt16), splitLastColon (e.hostText ++ ":" ++ toString port.toNat).toList =
      some (e.hostText.toList, (toString port.toNat).toList) := by
    intro e port
    rw [← splitLastColon_append (PortNumber.colon_not_mem_toString port)]
    simp
  have hparts := hsplit a p
  rw [Endpoint.mk.inj h, hsplit b q] at hparts
  obtain ⟨hhost, hport⟩ := Prod.mk.inj (Option.some.inj hparts)
  refine ⟨ha.hostText_inj hb (String.toList_inj.1 hhost.symm), ?_⟩
  have hread := PortNumber.read_toString p
  rw [← String.toList_inj.1 hport, PortNumber.read_toString q] at hread
  exact (Except.ok.inj hread).symm

end Endpoint

end TelemetryRouter
