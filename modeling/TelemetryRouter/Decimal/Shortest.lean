/-!
# The shortest decimal of a double

A double stands for all reals that round to it. Its text is the decimal with the fewest digits among those, the nearest one
if there are several, the larger of two equally near ones. The search is exact: the double is a fraction of natural numbers,
and for each number of digits the two decimals around it are tested against the ends of the interval.

The layout is always positional: no exponent, no fraction for whole numbers, a minus sign also for the negative zero.
-/

namespace TelemetryRouter.Decimal

/-- The decimal `digits * 10 ^ exponent`. -/
structure Scientific where
  digits : Nat
  exponent : Int
  deriving DecidableEq, Repr

/-- The number of decimal digits of a natural number; one for zero. -/
def digitCount (n : Nat) : Nat := (Nat.toDigits 10 n).length

/-- The reals that round to a positive double, scaled by a common denominator: the double itself is `value / unit`, the
interval reaches from `low / unit` to `high / unit`, and its ends belong to it when `closed`. -/
structure Rounding where
  low : Nat
  value : Nat
  high : Nat
  unit : Nat
  closed : Bool

/-- The interval of the positive double with significand `m` and exponent `q`, that is `m * 2 ^ q`. Below a power of two the
neighbours lie half as far apart. -/
def Rounding.ofParts (m : Nat) (q : Int) : Rounding :=
  let below := if m = Nat.pow 2 52 ∧ q > -1074 then 1 else 2
  let scale := if q ≥ 2 then Nat.pow 2 (q.toNat - 2) else 1
  let unit := if q ≥ 2 then 1 else Nat.pow 2 (2 - q).toNat
  ⟨(4 * m - below) * scale, 4 * m * scale, (4 * m + 2) * scale, unit, m % 2 = 0⟩

/-- Whether the fraction `num / den` lies in the interval. -/
def Rounding.contains (r : Rounding) (num den : Nat) : Bool :=
  let x := num * r.unit
  if r.closed then r.low * den ≤ x && x ≤ r.high * den else r.low * den < x && x < r.high * den

/-- The exponent of ten of the first digit of the value. -/
def Rounding.magnitude (r : Rounding) : Int :=
  if r.value ≥ r.unit then (digitCount (r.value / r.unit) : Int) - 1
  else
    let n := digitCount (r.unit / r.value)
    if r.unit = r.value * Nat.pow 10 (n - 1) then -((n : Int) - 1) else -(n : Int)

/-- The decimal in the interval among the two around the value on the grid of `n` digits. -/
def Rounding.onGrid (r : Rounding) (n : Nat) : Option Scientific :=
  let k := r.magnitude - (n : Int) + 1
  let up := Nat.pow 10 k.toNat
  let down := Nat.pow 10 (-k).toNat
  let num := r.value * down
  let den := r.unit * up
  let d := num / den
  let inside (x : Nat) : Bool := r.contains (x * up) down
  if inside d then
    if inside (d + 1) && 2 * (num - d * den) ≥ den then some ⟨d + 1, k⟩ else some ⟨d, k⟩
  else if inside (d + 1) then some ⟨d + 1, k⟩
  else none

/-- The first hit on the grids of one digit and more; seventeen digits always suffice. -/
def Rounding.shortest (r : Rounding) : Scientific :=
  ((List.range 17).findSome? (fun i => r.onGrid (i + 1))).getD ⟨r.value / r.unit, 0⟩

/-- A decimal without exponent: zeros are filled in, and a fraction ends in a digit other than zero. -/
def Scientific.positional (s : Scientific) : String :=
  let text := toString s.digits
  if s.exponent ≥ 0 then
    if s.digits = 0 then "0" else text ++ String.ofList (List.replicate s.exponent.toNat '0')
  else
    let places := (-s.exponent).toNat
    let padded := List.replicate (places + 1 - text.length) '0' ++ text.toList
    let whole := padded.take (padded.length - places)
    let fraction := ((padded.drop (padded.length - places)).reverse.dropWhile (· == '0')).reverse
    if fraction.isEmpty then String.ofList whole else String.ofList (whole ++ '.' :: fraction)

/-- The text of a double. -/
def ofFloat (x : Float) : String :=
  let bits := x.toBits.toNat
  let exponent : Nat := bits / Nat.pow 2 52 % 2048
  let fraction : Nat := bits % Nat.pow 2 52
  if exponent = 2047 ∧ fraction ≠ 0 then "NaN"
  else
    let sign := if bits ≥ Nat.pow 2 63 then "-" else ""
    let size :=
      if exponent = 2047 then "inf"
      else if exponent = 0 then
        if fraction = 0 then "0" else (Rounding.ofParts fraction (-1074)).shortest.positional
      else (Rounding.ofParts (fraction + Nat.pow 2 52) ((exponent : Int) - 1075)).shortest.positional
    sign ++ size

end TelemetryRouter.Decimal
