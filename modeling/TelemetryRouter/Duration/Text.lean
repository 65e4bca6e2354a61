import TelemetryRouter.Duration.Basic
import TelemetryRouter.Text.Blank
import TelemetryRouter.Text.Quoted

/-!
# Durations as text

A duration is written as a sequence of numbers with units, such as `1m 30s`. Reading takes the numbers and units in any order and
adds them up; white space may stand anywhere but inside a unit; a number may have a decimal fraction if the amount is then a
whole number of nanoseconds, or of seconds for hours and longer units. Numbers and the products formed on the way must fit
sixty-four bits. Printing takes the largest units first and leaves out those with nothing in them.
-/

namespace TelemetryRouter.Duration

/-- Why a text is not a duration. Positions are byte offsets. -/
inductive Fault where
  | empty
  | numberExpected (offset : Nat)
  | foreignCharacter (offset : Nat)
  | unitMissing (number : Nat)
  | unitUnknown (unit : String)
  | inexact
  deriving DecidableEq, Repr

/-- The sentence shown for a fault. -/
def Fault.message : Fault → String
  | .empty => "value was empty"
  | .numberExpected i => "expected number at " ++ toString i
  | .foreignCharacter i => "invalid character at " ++ toString i
  | .unitMissing n => "time unit needed, for example " ++ toString n ++ "sec or " ++ toString n ++ "ms"
  | .unitUnknown unit =>
    "unknown time unit " ++ Quoted.quote unit ++
      ", supported units: ns, us/µs, ms, sec, min, hours, days, weeks, months, years (and few variations)"
  | .inexact => "number is too large or cannot be represented without a lack of precision (values below 1ns are not supported)"

/-- A unit of time: how many small steps it has, and whether a step is a second or a nanosecond. The fraction of a number counts
steps of `fractionScale`, none when a fraction is refused. -/
structure TimeUnit where
  scale : Nat
  inSeconds : Bool
  fractionScale : Option (Nat × Bool)

/-- The unit of a name. A minute is counted in seconds, but its fraction in nanoseconds. -/
def unit? (name : String) : Option TimeUnit :=
  match name with
  | "nanos" | "nsec" | "ns" => some ⟨1, false, none⟩
  | "usec" | "us" | "µs" => some ⟨1000, false, some (1000, false)⟩
  | "millis" | "msec" | "ms" => some ⟨1000000, false, some (1000000, false)⟩
  | "seconds" | "second" | "secs" | "sec" | "s" => some ⟨1, true, some (1000000000, false)⟩
  | "minutes" | "minute" | "min" | "mins" | "m" => some ⟨60, true, some (60000000000, false)⟩
  | "hours" | "hour" | "hrs" | "hr" | "h" => some ⟨3600, true, some (3600, true)⟩
  | "days" | "day" | "d" => some ⟨86400, true, some (86400, true)⟩
  | "weeks" | "week" | "wks" | "wk" | "w" => some ⟨604800, true, some (604800, true)⟩
  | "months" | "month" | "M" => some ⟨2630016, true, some (2630016, true)⟩
  | "years" | "year" | "yrs" | "yr" | "y" => some ⟨31557600, true, some (31557600, true)⟩
  | _ => none

/-- A number if it fits sixty-four bits. -/
def word (n : Nat) : Except Fault Nat := if n < 18446744073709551616 then .ok n else .error .inexact

/-- Adds steps of a second or of a nanosecond to a sum whose whole seconds must fit sixty-four bits. -/
def accumulate (sum steps : Nat) (inSeconds : Bool) : Except Fault Nat := do
  let _ ← if inSeconds then pure steps else word (sum % 1000000000 + steps)
  let total := if inSeconds then sum + steps * 1000000000 else sum + steps
  if total < 18446744073709551616 * 1000000000 then pure total else .error .inexact

/-- The digits after a decimal point: the number they write and the power of ten below it. -/
structure Fraction where
  numerator : Nat
  denominator : Nat

/-- Adds a number with its unit to the sum so far. -/
def addItem (sum number : Nat) (fraction : Option Fraction) (name : String) : Except Fault Nat :=
  match unit? name with
  | none => .error (if name = "" then .unitMissing number else .unitUnknown name)
  | some unit => do
    let steps ← word (number * unit.scale)
    let sum ← accumulate sum steps unit.inSeconds
    match fraction with
    | none => pure sum
    | some f =>
      match unit.fractionScale with
      | none => .error .inexact
      | some (scale, inSeconds) =>
        let scaled ← word (f.numerator * scale)
        if scaled % f.denominator = 0 then accumulate sum (scaled / f.denominator) inSeconds else .error .inexact

/-- Where the reader stands: before a number since an offset, in its whole part, in its fraction, or in its unit. -/
inductive Phase where
  | between (first : Bool) (since : Nat)
  | whole (number : Nat)
  | decimals (number : Nat) (fraction : Fraction) (point : Option Nat)
  | unit (number : Nat) (fraction : Option Fraction) (name : List Char)

/-- The value of a digit. -/
def digit? (c : Char) : Option Nat := if '0' ≤ c ∧ c ≤ '9' then some (c.toNat - 48) else none

/-- Whether a unit may hold the character. -/
def isUnitChar (c : Char) : Bool := ('a' ≤ c && c ≤ 'z') || ('A' ≤ c && c ≤ 'Z') || c == 'µ'

/-- Reads what is left, standing at a byte offset with the sum so far. A missing number is reported where the search for it began,
before any white space. The point of a fraction is remembered until the character after it is read, because a fault there is
reported at the point. -/
def readFrom (sum offset : Nat) : Phase → List Char → Except Fault Nat
  | .between first _, [] => if first then .error .empty else .ok sum
  | .whole number, [] => addItem sum number none ""
  | .decimals number f point, [] =>
    if f.denominator = 1 then .error (.foreignCharacter (point.getD offset)) else addItem sum number (some f) ""
  | .unit number f name, [] => addItem sum number f (String.ofList name.reverse)
  | .between first since, c :: rest =>
    match digit? c with
    | some d => readFrom sum (offset + c.utf8Size) (.whole d) rest
    | none =>
      if Blank.isBlank c then readFrom sum (offset + c.utf8Size) (.between first since) rest
      else .error (.numberExpected since)
  | .whole number, c :: rest =>
    match digit? c with
    | some d => do
      let number ← word (10 * number + d)
      readFrom sum (offset + c.utf8Size) (.whole number) rest
    | none =>
      if Blank.isBlank c then readFrom sum (offset + c.utf8Size) (.whole number) rest
      else if isUnitChar c then readFrom sum (offset + c.utf8Size) (.unit number none [c]) rest
      else if c = '.' then readFrom sum (offset + c.utf8Size) (.decimals number ⟨0, 1⟩ (some offset)) rest
      else .error (.foreignCharacter offset)
  | .decimals number f point, c :: rest =>
    match digit? c with
    | some d => do
      let denominator ← word (10 * f.denominator)
      let numerator ← word (10 * f.numerator + d)
      readFrom sum (offset + c.utf8Size) (.decimals number ⟨numerator, denominator⟩ none) rest
    | none =>
      if Blank.isBlank c then readFrom sum (offset + c.utf8Size) (.decimals number f none) rest
      else if isUnitChar c then
        if f.denominator = 1 then .error (.foreignCharacter (point.getD offset))
        else readFrom sum (offset + c.utf8Size) (.unit number (some f) [c]) rest
      else .error (.foreignCharacter (point.getD offset))
  | .unit number f name, c :: rest =>
    match digit? c with
    | some d => do
      let sum ← addItem sum number f (String.ofList name.reverse)
      readFrom sum (offset + c.utf8Size) (.whole d) rest
    | none =>
      if Blank.isBlank c then do
        let sum ← addItem sum number f (String.ofList name.reverse)
        readFrom sum (offset + c.utf8Size) (.between false (offset + c.utf8Size)) rest
      else if isUnitChar c then readFrom sum (offset + c.utf8Size) (.unit number f (c :: name)) rest
      else .error (.foreignCharacter offset)

/-- The duration that a text writes. A lone zero needs no unit. -/
def read (text : String) : Except Fault Duration :=
  if text = "0" then .ok zero
  else match readFrom 0 0 (.between true 0) text.toList with
    | .ok n => match ofNanoseconds? n with
      | some d => .ok d
      | none => .error .inexact
    | .error e => .error e

/-- The parts of a duration with their units, largest first. The three largest units are spelled out and have a plural. -/
def parts (d : Duration) : List (Nat × String × Bool) :=
  let inYear := d.seconds % 31557600
  let inMonth := inYear % 2630016
  let inDay := inMonth % 86400
  let n := d.subsecond
  [(d.seconds / 31557600, "year", true), (inYear / 2630016, "month", true), (inMonth / 86400, "day", true),
   (inDay / 3600, "h", false), (inDay % 3600 / 60, "m", false), (inDay % 60, "s", false),
   (n / 1000000, "ms", false), (n / 1000 % 1000, "us", false), (n % 1000, "ns", false)]

/-- The text of one part. -/
def partText (p : Nat × String × Bool) : String :=
  toString p.1 ++ p.2.1 ++ (if p.2.2 && p.1 > 1 then "s" else "")

/-- The text of a duration. -/
def print (d : Duration) : String :=
  if d.isZero then "0s"
  else String.intercalate " " ((d.parts.filter (fun p => p.1 > 0)).map partText)

end TelemetryRouter.Duration
