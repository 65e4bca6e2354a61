import TelemetryRouter.Text.CaseTable

/-!
# Lower case

The lower case of a text by the Unicode standard's full mapping without a locale. Two characters need more than a table: the
capital I with a dot becomes two characters, and a capital sigma at the end of a word becomes a final sigma.
-/

namespace TelemetryRouter.Lowercase

open CaseTable

/-- Whether a code point lies in one of the ranges. -/
def inRanges (ranges : List (Nat × Nat)) (c : Char) : Bool := ranges.any (fun r => r.1 ≤ c.toNat && c.toNat ≤ r.2)

/-- The lower case of one character on its own. -/
def ofChar (c : Char) : List Char :=
  if c.toNat < 128 then [c.toLower]
  else if c.toNat = 0x130 then ['i', Char.ofNat 0x307]
  else match lowerRuns.find? (fun r => r.first ≤ c.toNat && c.toNat ≤ r.last && (c.toNat - r.first) % r.stride == 0) with
    | some r => [Char.ofNat ((c.toNat : Int) + r.shift).toNat]
    | none => [c]

/-- Whether a cased character follows, once the characters that words pass over are left out. -/
def meetsCased (cs : List Char) : Bool :=
  match cs.dropWhile (inRanges ignorable) with
  | c :: _ => inRanges cased c
  | [] => false

/-- The lower case of the rest of a text, `before` holding the characters already passed, nearest first. -/
def ofChars (before : List Char) : List Char → List Char
  | [] => []
  | c :: rest =>
    let lowered :=
      if c.toNat = 0x3a3 then
        [if meetsCased before && !meetsCased rest then Char.ofNat 0x3c2 else Char.ofNat 0x3c3]
      else ofChar c
    lowered ++ ofChars (c :: before) rest

/-- The lower case of a text. -/
def lowercase (s : String) : String := String.ofList (ofChars [] s.toList)

end TelemetryRouter.Lowercase
