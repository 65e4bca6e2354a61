import TelemetryRouter.Endpoint

/-!
# IP addresses

An address of version 4 is four bytes, one of version 6 eight groups of sixteen bits. The text of a version 6 address shortens its
longest run of two or more zero groups, the first of equal runs, to two colons; an address that stands for one of version 4 ends
with the dotted text of that.
-/

namespace TelemetryRouter

/-- An address of either version. -/
inductive IpAddress where
  | v4 (bytes : Vector UInt8 4)
  | v6 (groups : Vector UInt16 8)
  deriving DecidableEq, Repr

namespace IpAddress

/-- The address of so many bytes: four for version 4, sixteen for version 6. -/
def ofBytes? (bytes : List UInt8) : Option IpAddress :=
  match bytes with
  | [a, b, c, d] => some (.v4 #v[a, b, c, d])
  | [a0, a1, b0, b1, c0, c1, d0, d1, e0, e1, f0, f1, g0, g1, h0, h1] =>
    let join (hi lo : UInt8) : UInt16 := UInt16.ofNat (256 * hi.toNat + lo.toNat)
    some (.v6 #v[join a0 a1, join b0 b1, join c0 c1, join d0 d1, join e0 e1, join f0 f1, join g0 g1, join h0 h1])
  | _ => none

/-! ## Text -/

/-- Numbers in decimal, between dots. -/
def dotted (ns : List Nat) : String := String.intercalate "." (ns.map toString)

/-- A group in hexadecimal, without leading zeros. -/
def groupText (g : UInt16) : String := String.ofList (Nat.toDigits 16 g.toNat)

/-- Groups between colons. -/
def groupsText (gs : List UInt16) : String := String.intercalate ":" (gs.map groupText)

/-- The length of the run of zeros at the start. -/
def zeroRun : List UInt16 → Nat
  | [] => 0
  | g :: rest => if g = 0 then zeroRun rest + 1 else 0

/-- The first of the longest runs of zeros at or behind a place: where it starts and how long it is. -/
def longestZeroRun : Nat → List UInt16 → Nat × Nat
  | place, [] => (place, 0)
  | place, g :: rest =>
    let here := zeroRun (g :: rest)
    let later := longestZeroRun (place + 1) rest
    if here ≥ later.2 then (place, here) else later

/-- The text of the groups of an address of version 6. -/
def text6 (gs : List UInt16) : String :=
  match gs with
  | [0, 0, 0, 0, 0, 0xffff, hi, lo] =>
    "::ffff:" ++ dotted [hi.toNat / 256, hi.toNat % 256, lo.toNat / 256, lo.toNat % 256]
  | _ =>
    let (start, length) := longestZeroRun 0 gs
    if length ≥ 2 then groupsText (gs.take start) ++ "::" ++ groupsText (gs.drop (start + length)) else groupsText gs

/-- The text of an address. -/
def text : IpAddress → String
  | .v4 bytes => dotted (bytes.toList.map UInt8.toNat)
  | .v6 groups => text6 groups.toList

/-- The endpoint of an address: the bare address, or with a port, an address of version 6 between brackets then. -/
def endpoint (a : IpAddress) : Option UInt16 → Endpoint
  | none => ⟨a.text⟩
  | some port =>
    match a with
    | .v4 _ => ⟨a.text ++ ":" ++ toString port.toNat⟩
    | .v6 _ => ⟨"[" ++ a.text ++ "]:" ++ toString port.toNat⟩

/-! ## Reading -/

/-- The value of a digit in a base up to sixteen. -/
def digit? (base : Nat) (c : Char) : Option Nat :=
  let value :=
    if '0' ≤ c ∧ c ≤ '9' then c.toNat - 48
    else if 'a' ≤ c ∧ c ≤ 'f' then c.toNat - 87
    else if 'A' ≤ c ∧ c ≤ 'F' then c.toNat - 55
    else base
  if value < base then some value else none

/-- Reads a number of one to `width` digits and at most `limit`, taking every digit that follows. -/
def readNumber (base width limit : Nat) (leadingZeros : Bool) (cs : List Char) : Option (Nat × List Char) :=
  let run := cs.takeWhile (fun c => (digit? base c).isSome)
  let value := run.foldl (fun n c => base * n + (digit? base c).getD 0) 0
  if run.isEmpty || run.length > width || value > limit then none
  else if !leadingZeros && run.length > 1 && run.head? = some '0' then none
  else some (value, cs.drop run.length)

/-- Reads the four numbers of an address of version 4. -/
def read4 (cs : List Char) : Option ((Nat × Nat × Nat × Nat) × List Char) := do
  let next (cs : List Char) : Option (Nat × List Char) :=
    match cs with
    | '.' :: rest => readNumber 10 3 255 false rest
    | _ => none
  let (a, cs) ← readNumber 10 3 255 false cs
  let (b, cs) ← next cs
  let (c, cs) ← next cs
  let (d, cs) ← next cs
  pure ((a, b, c, d), cs)

/-- Reads up to `limit` groups between colons, the last two of which may be an address of version 4. The last result tells whether
they are. -/
def readGroups : Nat → Bool → List Char → List UInt16 × List Char × Bool
  | 0, _, cs => ([], cs, false)
  | limit + 1, first, cs =>
    let inner : Option (List Char) :=
      if first then some cs
      else match cs with
        | ':' :: rest => some rest
        | _ => none
    match inner with
    | none => ([], cs, false)
    | some rest =>
      match (if limit = 0 then none else read4 rest) with
      | some ((a, b, c, d), rest) => ([UInt16.ofNat (256 * a + b), UInt16.ofNat (256 * c + d)], rest, true)
      | none =>
        match readNumber 16 4 65535 true rest with
        | none => ([], cs, false)
        | some (g, rest) =>
          let (more, rest, dots) := readGroups limit false rest
          (UInt16.ofNat g :: more, rest, dots)

/-- Reads the groups of an address of version 6. -/
def read6 (cs : List Char) : Option (List UInt16 × List Char) :=
  let (head, rest, dots) := readGroups 8 true cs
  if head.length = 8 then some (head, rest)
  else if dots then none
  else
    match rest with
    | ':' :: ':' :: rest =>
      let (tail, rest, _) := readGroups (7 - head.length) true rest
      some (head ++ List.replicate (8 - head.length - tail.length) 0 ++ tail, rest)
    | _ => none

/-- The address that a text writes. -/
def read (s : String) : Option IpAddress :=
  match read4 s.toList with
  | some ((a, b, c, d), []) => some (.v4 #v[UInt8.ofNat a, UInt8.ofNat b, UInt8.ofNat c, UInt8.ofNat d])
  | _ =>
    match read6 s.toList with
    | some ([a, b, c, d, e, f, g, h], []) => some (.v6 #v[a, b, c, d, e, f, g, h])
    | _ => none

end IpAddress

end TelemetryRouter
