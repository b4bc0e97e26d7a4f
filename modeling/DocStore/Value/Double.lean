/-! # Doubles: binary64 numbers by their bits

A double is its 64 bits. Comparison reads the bits as a sign and a magnitude, so the order of all
doubles that are numbers is the order of one integer per double (`Double.position`), with both
zeros at `0`. Integers are rounded to the nearest double, a tie going to the even one. -/

namespace DocStore

/-- A binary64 number, given by its bits. Two doubles are the same if their bits are; whether they
compare as equal is `Double.equals`. -/
structure Double where
  /-- Sign, exponent (11 bits) and fraction (52 bits), from the top. -/
  bits : UInt64
  deriving DecidableEq

namespace Double

/-- The weight of the sign bit. -/
def signPlace : Nat := Nat.pow 2 63

/-- The weight of the lowest exponent bit. -/
def fractionSize : Nat := Nat.pow 2 52

/-- The magnitude of both infinities; those above it are no numbers. -/
def infinityMagnitude : Nat := 2047 * fractionSize

/-- The double with this sign and magnitude. -/
def ofParts (negative : Bool) (magnitude : Nat) : Double :=
  ⟨UInt64.ofNat (if negative then signPlace + magnitude else magnitude)⟩

/-- Whether the sign bit is set. -/
def isNegative (x : Double) : Bool := decide (signPlace ≤ x.bits.toNat)

/-- The bits without the sign. -/
def magnitude (x : Double) : Nat := x.bits.toNat % signPlace

/-- Whether `x` is not a number. -/
def isNaN (x : Double) : Bool := decide (infinityMagnitude < x.magnitude)

/-- Where `x` stands among the doubles that are numbers; both zeros stand at `0`. -/
def position (x : Double) : Int := if x.isNegative then -(x.magnitude : Int) else x.magnitude

/-- Numeric equality: never of NaN, and `0.0` equals `-0.0`. -/
def equals (x y : Double) : Bool := !x.isNaN && !y.isNaN && decide (x.position = y.position)

/-- Numeric order; a NaN compares with nothing. -/
def compare? (x y : Double) : Option Ordering :=
  if x.isNaN || y.isNaN then none else some (compare x.position y.position)

/-- Whether `x` is zero, of either sign. -/
def isZero (x : Double) : Bool := decide (x.magnitude = 0)

/-- Whether `x` is a number below zero. -/
def isBelowZero (x : Double) : Bool := !x.isNaN && decide (x.position < 0)

/-- `x` is `significand · 2 ^ exponent` up to its sign, if it is finite. -/
def significand (x : Double) : Nat :=
  let fraction := x.magnitude % fractionSize
  if x.magnitude < fractionSize then fraction else fractionSize + fraction

/-- The power of two that scales `significand`. -/
def exponent (x : Double) : Int :=
  let stored := x.magnitude / fractionSize
  if stored = 0 then -1074 else (stored : Int) - 1075

/-- `n / 2 ^ shift`, rounded to the nearest natural number, a tie going to the even one. -/
def roundShift (n shift : Nat) : Nat :=
  let size := Nat.pow 2 shift
  let quotient := n / size
  let rest := 2 * (n % size)
  if size < rest ∨ (rest = size ∧ quotient % 2 = 1) then quotient + 1 else quotient

/-- The magnitude of the double nearest to `n`. A significand rounded up to the next power of two
carries into the exponent. -/
def magnitudeOfNat (n : Nat) : Nat :=
  if n = 0 then 0
  else
    let top := n.log2
    let scaled := if top ≤ 52 then n * Nat.pow 2 (52 - top) else roundShift n (top - 52)
    -- `scaled` keeps its leading bit, which adds the last one to the stored exponent
    min infinityMagnitude ((top + 1022) * fractionSize + scaled)

/-- The double nearest to the integer `n`, ties to even. -/
def ofInt (n : Int) : Double := ofParts (decide (n < 0)) (magnitudeOfNat n.natAbs)

/-- `x` without its fraction, for a finite `x`. -/
def truncate (x : Double) : Int :=
  let whole := if 0 ≤ x.exponent then x.significand * Nat.pow 2 x.exponent.toNat
    else x.significand / Nat.pow 2 (-x.exponent).toNat
  if x.isNegative then -(whole : Int) else whole

/-- `x` without its fraction, as a 64-bit integer: what lies outside goes to the nearer end, and a
NaN to zero. -/
def toInt64 (x : Double) : Int64 :=
  if x.isNaN then 0
  else if x.magnitude = infinityMagnitude then
    if x.isNegative then Int64.minValue else Int64.maxValue
  else Int64.ofInt (max Int64.minValue.toInt (min Int64.maxValue.toInt x.truncate))

/-- The sum, rounded to the nearest double. -/
def add (x y : Double) : Double := ⟨(Float.ofBits x.bits + Float.ofBits y.bits).toBits⟩

instance : Add Double := ⟨add⟩

theorem equals_comm (x y : Double) : equals x y = equals y x := by
  simp only [equals, eq_comm (a := x.position)]
  cases x.isNaN <;> cases y.isNaN <;> rfl

end Double

end DocStore
