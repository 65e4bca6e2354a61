import TelemetryRouter.Json.Basic

/-!
# Reading JSON

The reader of RFC 8259 documents: white space is the four characters of the grammar, a string holds no raw control character and
no half of a surrogate pair, a number out of the range of doubles is refused, and so is nesting deeper than 127 levels. Of
fields with equal names the last one counts. `Json.read` takes a whole text.
-/

namespace TelemetryRouter.Json

/-- Skips white space. -/
def skipSpace : List Char → List Char := List.dropWhile (fun c => c = ' ' || c = '\t' || c = '\n' || c = '\r')

/-- The value of four hexadecimal digits and what follows them. -/
def readQuad : List Char → Option (Nat × List Char)
  | a :: b :: c :: d :: rest => do
    let digit (x : Char) : Option Nat :=
      if '0' ≤ x ∧ x ≤ '9' then some (x.toNat - 48)
      else if 'a' ≤ x ∧ x ≤ 'f' then some (x.toNat - 87)
      else if 'A' ≤ x ∧ x ≤ 'F' then some (x.toNat - 55)
      else none
    let n := 16 * (16 * (16 * (← digit a) + (← digit b)) + (← digit c)) + (← digit d)
    pure (n, rest)
  | _ => none

/-- The character of an escape whose backslash and `u` are read, and what follows it. -/
def readUnicode (cs : List Char) : Option (Char × List Char) :=
  match readQuad cs with
  | none => none
  | some (hi, rest) =>
    if 0xdc00 ≤ hi ∧ hi ≤ 0xdfff then none
    else if 0xd800 ≤ hi ∧ hi ≤ 0xdbff then
      match rest with
      | '\\' :: 'u' :: rest =>
        match readQuad rest with
        | some (lo, rest) =>
          if 0xdc00 ≤ lo ∧ lo ≤ 0xdfff then some (Char.ofNat (0x10000 + (hi - 0xd800) * 1024 + (lo - 0xdc00)), rest) else none
        | none => none
      | _ => none
    else some (Char.ofNat hi, rest)

/-- The characters of a string up to its closing quote, nearest first in `acc`. -/
def readChars : Nat → List Char → List Char → Option (String × List Char)
  | 0, _, _ => none
  | fuel + 1, acc, cs =>
    match cs with
    | [] => none
    | '"' :: rest => some (String.ofList acc.reverse, rest)
    | '\\' :: 'u' :: rest =>
      match readUnicode rest with
      | some (c, rest) => readChars fuel (c :: acc) rest
      | none => none
    | '\\' :: c :: rest =>
      match c with
      | '"' => readChars fuel ('"' :: acc) rest
      | '\\' => readChars fuel ('\\' :: acc) rest
      | '/' => readChars fuel ('/' :: acc) rest
      | 'b' => readChars fuel (Char.ofNat 8 :: acc) rest
      | 'f' => readChars fuel (Char.ofNat 12 :: acc) rest
      | 'n' => readChars fuel ('\n' :: acc) rest
      | 'r' => readChars fuel ('\r' :: acc) rest
      | 't' => readChars fuel ('\t' :: acc) rest
      | _ => none
    | c :: rest => if c.toNat < 32 then none else readChars fuel (c :: acc) rest

/-- The leading decimal digits. -/
def spanDigits (cs : List Char) : List Char × List Char := cs.span (fun c => '0' ≤ c && c ≤ '9')

/-- The number that decimal digits write. -/
def digitsValue (cs : List Char) : Nat := cs.foldl (fun n c => 10 * n + (c.toNat - 48)) 0

/-- The double nearest to `digits * 10 ^ exponent`, none when it is out of range. -/
def scaled? (digits : Nat) (exponent : Int) : Option Float :=
  let x := if digits = 0 ∨ exponent < -20000 then 0.0
    else if exponent > 20000 then 1.0 / 0.0
    else Float.ofScientific digits (exponent < 0) exponent.natAbs
  if x.isFinite then some x else none

/-- A number. -/
def readNumber (cs : List Char) : Option (Json × List Char) :=
  let (negative, cs) := match cs with | '-' :: rest => (true, rest) | _ => (false, cs)
  let (whole, rest) := spanDigits cs
  if whole.isEmpty ∨ (whole.head? = some '0' ∧ whole.length > 1) then none
  else
    let fraction := match rest with
      | '.' :: more => let (digits, after) := spanDigits more; if digits.isEmpty then none else some (some digits, after)
      | _ => some (none, rest)
    match fraction with
    | none => none
    | some (fraction, rest) =>
      let power := match rest with
        | 'e' :: more | 'E' :: more =>
          let (minus, more) := match more with | '-' :: m => (true, m) | '+' :: m => (false, m) | _ => (false, more)
          let (digits, after) := spanDigits more
          if digits.isEmpty then none else some (some (if minus then -(digitsValue digits : Int) else digitsValue digits), after)
        | _ => some (none, rest)
      match power with
      | none => none
      | some (power, rest) =>
        let n := digitsValue whole
        let asDouble (digits : Nat) (exponent : Int) : Option (Json × List Char) :=
          (scaled? digits exponent).map (fun x => (.double (if negative then -x else x), rest))
        match fraction, power with
        | none, none =>
          if negative then
            if n = 0 then some (.double (-0.0), rest)
            else if n ≤ 9223372036854775808 then some (.int (-(n : Int)), rest)
            else asDouble n 0
          else if n ≤ 18446744073709551615 then some (.int n, rest)
          else asDouble n 0
        | _, _ =>
          let digits := fraction.getD []
          asDouble (digitsValue (whole ++ digits)) (power.getD 0 - (digits.length : Int))

/-- Puts a field at the end, or in the place of an earlier one of that name. -/
def setField (fields : List (String × Json)) (name : String) (v : Json) : List (String × Json) :=
  if fields.any (fun f => f.1 == name) then fields.map (fun f => if f.1 == name then (name, v) else f) else fields ++ [(name, v)]

/-- The fields of a record, later ones of one name replacing earlier ones. -/
def mergeFields (fields : List (String × Json)) : List (String × Json) := fields.foldl (fun acc f => setField acc f.1 f.2) []

mutual

/-- A value. The first number bounds the steps and the characters of a text, the second the depth of nesting still
allowed. Every step passes over a character and takes at most two from the bound, so twice the number of characters left is always enough. -/
def readValue : Nat → Nat → List Char → Option (Json × List Char)
  | 0, _, _ => none
  | fuel + 1, depth, cs =>
    match skipSpace cs with
    | 'n' :: 'u' :: 'l' :: 'l' :: rest => some (.null, rest)
    | 't' :: 'r' :: 'u' :: 'e' :: rest => some (.bool true, rest)
    | 'f' :: 'a' :: 'l' :: 's' :: 'e' :: rest => some (.bool false, rest)
    | '"' :: rest => (readChars fuel [] rest).map (fun r => (.text r.1, r.2))
    | '[' :: rest =>
      if depth ≤ 1 then none
      else match skipSpace rest with
        | ']' :: rest => some (.list [], rest)
        | _ => readItems fuel (depth - 1) [] rest
    | '\x7b' :: rest =>
      if depth ≤ 1 then none
      else match skipSpace rest with
        | '\x7d' :: rest => some (.record [], rest)
        | _ => readFields fuel (depth - 1) [] rest
    | cs => readNumber cs

/-- The items of a list, nearest first in `acc`. -/
def readItems : Nat → Nat → List Json → List Char → Option (Json × List Char)
  | 0, _, _, _ => none
  | fuel + 1, depth, acc, cs =>
    match readValue fuel depth cs with
    | none => none
    | some (v, rest) =>
      match skipSpace rest with
      | ',' :: rest => readItems fuel depth (v :: acc) rest
      | ']' :: rest => some (.list (v :: acc).reverse, rest)
      | _ => none

/-- The fields of a record, nearest first in `acc`. -/
def readFields : Nat → Nat → List (String × Json) → List Char → Option (Json × List Char)
  | 0, _, _, _ => none
  | fuel + 1, depth, acc, cs =>
    match skipSpace cs with
    | '"' :: rest =>
      match readChars fuel [] rest with
      | none => none
      | some (name, rest) =>
        match skipSpace rest with
        | ':' :: rest =>
          match readValue fuel depth rest with
          | none => none
          | some (v, rest) =>
            match skipSpace rest with
            | ',' :: rest => readFields fuel depth ((name, v) :: acc) rest
            | '\x7d' :: rest => some (.record (mergeFields ((name, v) :: acc).reverse), rest)
            | _ => none
        | _ => none
    | _ => none

end

/-- The value that a text writes. -/
def read (s : String) : Option Json :=
  let cs := s.toList
  match readValue (2 * cs.length + 2) 128 cs with
  | some (v, rest) => if (skipSpace rest).isEmpty then some v else none
  | none => none

end TelemetryRouter.Json
