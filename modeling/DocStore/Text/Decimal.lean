import DocStore.Value.Double

/-! # Decimal text of doubles

A double is written with the fewest digits that read back as it, the nearest such number if there
are several. A number with `k` digits lies on a decimal grid; the search tries the grids from
coarse to fine and asks, in exact arithmetic, which of the two neighbours of the number on that
grid still rounds to it. -/

namespace DocStore

namespace Decimal

/-- A positive number as a fraction. -/
structure Fraction where
  /-- The numerator. -/
  num : Nat
  /-- The denominator. -/
  den : Nat

/-- `value · 2 ^ exponent` as a fraction. -/
def Fraction.scaled (value : Nat) (exponent : Int) : Fraction :=
  if 0 ≤ exponent then ⟨value * Nat.pow 2 exponent.toNat, 1⟩
  else ⟨value, Nat.pow 2 (-exponent).toNat⟩

/-- The number of decimal digits of `n`, at least one. -/
def digitCount (n : Nat) : Nat := (Nat.toDigits 10 n).length

/-- The power of ten of the leading digit of a positive fraction. -/
def Fraction.leadingPower (x : Fraction) : Int :=
  if x.den ≤ x.num then (digitCount (x.num / x.den) : Int) - 1
  else
    -- the inverse of a fraction below one tells its power; a power of ten is one higher
    let size := digitCount (x.den / x.num)
    if x.den ≤ x.num * Nat.pow 10 (size - 1) then 1 - (size : Int) else -(size : Int)

/-- A decimal number `digits · 10 ^ power`. -/
structure Digits where
  /-- The digits, read as a number. -/
  digits : Nat
  /-- The power of ten of the last digit. -/
  power : Int

/-- The numbers that round to a given one: all four are over one denominator, in quarters of the
last place. -/
structure Interval where
  /-- The number itself. -/
  value : Nat
  /-- The lower end. -/
  low : Nat
  /-- The upper end. -/
  high : Nat
  /-- Whether the ends round to the number too. -/
  closed : Bool
  /-- The common denominator. -/
  den : Nat

/-- Whether `n` lies in the interval. -/
def Interval.contains (span : Interval) (n : Nat) : Bool :=
  if span.closed then decide (span.low ≤ n) && decide (n ≤ span.high)
  else decide (span.low < n) && decide (n < span.high)

/-- The interval scaled so that one unit is `10 ^ power`. -/
def Interval.scale (span : Interval) (power : Int) : Interval :=
  if 0 ≤ power then { span with den := span.den * Nat.pow 10 power.toNat }
  else
    let factor := Nat.pow 10 (-power).toNat
    { span with
      value := span.value * factor
      low := span.low * factor
      high := span.high * factor }

/-- The neighbour of the number on the grid of multiples of `10 ^ power` that rounds to it; of two
the nearer one, a tie going up. -/
def Interval.onGrid (span : Interval) (power : Int) : Option Nat :=
  let scaled := span.scale power
  let below := scaled.value / scaled.den
  -- the interval may hold more grid points, but these two are the nearest
  let hitBelow := scaled.contains (below * scaled.den)
  let hitAbove := scaled.contains ((below + 1) * scaled.den)
  if hitBelow && hitAbove then
    if 2 * (scaled.value % scaled.den) < scaled.den then some below else some (below + 1)
  else if hitBelow then some below
  else if hitAbove then some (below + 1)
  else none

/-- The first grid with a hit, from the coarsest of one digit on. -/
def Interval.search (span : Interval) : Nat → Int → Digits
  | 0, power => ⟨span.value / span.den, power⟩
  | grids + 1, power =>
    match span.onGrid power with
    | some digits => ⟨digits, power⟩
    | none => span.search grids (power - 1)

/-- The interval of a double that is neither zero nor infinite nor a NaN. Below a power of two the
doubles lie closer, so the lower end is half as far. -/
def intervalOf (x : Double) : Interval :=
  let unit := Fraction.scaled 1 (x.exponent - 2)
  let m := x.significand
  let atPower := decide (m = Double.fractionSize) && decide (-1074 < x.exponent)
  { value := 4 * m * unit.num
    low := (if atPower then 4 * m - 1 else 4 * m - 2) * unit.num
    high := (4 * m + 2) * unit.num
    closed := decide (m % 2 = 0)
    den := unit.den }

/-- The fewest digits that read back as the magnitude of `x`. -/
def shortest (x : Double) : Digits :=
  let span := intervalOf x
  -- seventeen digits are enough for every double
  span.search 17 (Fraction.leadingPower ⟨span.value, span.den⟩)

/-- Positional notation: no exponent, no superfluous zeros, no point after a whole number. -/
def positional (d : Digits) : String :=
  let text := Nat.toDigits 10 d.digits
  if 0 ≤ d.power then String.ofList (text ++ List.replicate d.power.toNat '0')
  else
    -- at least one digit stays in front of the point
    let places := (-d.power).toNat
    let padded := List.replicate (places + 1 - text.length) '0' ++ text
    let whole := padded.take (padded.length - places)
    let fraction := (padded.drop (padded.length - places)).reverse.dropWhile (· == '0')
    if fraction.isEmpty then String.ofList whole
    else String.ofList (whole ++ '.' :: fraction.reverse)

end Decimal

/-- The text of a double: positional notation with the fewest digits that read back, a sign on
negative numbers and on `-0`. -/
def Double.toText (x : Double) : String :=
  if x.isNaN then "NaN"
  else
    let sign := if x.isNegative then "-" else ""
    if x.magnitude = Double.infinityMagnitude then sign ++ "inf"
    else if x.isZero then sign ++ "0"
    else sign ++ Decimal.positional (Decimal.shortest x)

end DocStore
