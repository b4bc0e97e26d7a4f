/-! # Durations and their text

A duration is written in the largest of the units s, ms, µs and ns of which it holds at least one,
with a fraction without trailing zeros. -/

namespace DocStore

/-- A span of time. The nanoseconds are below one second. -/
structure Duration where
  /-- Whole seconds. -/
  secs : Nat
  /-- Nanoseconds beyond the whole seconds. -/
  nanos : Nat
  deriving DecidableEq

namespace Duration

/-- The span of these seconds and nanoseconds; nanoseconds beyond a second are carried over. -/
def ofParts (secs nanos : Nat) : Duration := ⟨secs + nanos / 1000000000, nanos % 1000000000⟩

/-- The span of this many milliseconds. -/
def ofMillis (millis : Nat) : Duration := ⟨millis / 1000, millis % 1000 * 1000000⟩

/-- The span in whole milliseconds. -/
def toMillis (d : Duration) : Nat := d.secs * 1000 + d.nanos / 1000000

/-- Whether `d` is longer than `other`: whole seconds decide first. -/
def exceeds (d other : Duration) : Bool :=
  decide (other.secs < d.secs) || decide (other.secs = d.secs) && decide (other.nanos < d.nanos)

/-- `part` of a unit that is divided into `10 ^ places`, as a decimal fraction without trailing
zeros; nothing at all for zero. -/
def fractionText (places part : Nat) : String :=
  let digits := Nat.toDigits 10 part
  let padded := List.replicate (places - digits.length) '0' ++ digits
  let kept := (padded.reverse.dropWhile (· == '0')).reverse
  if kept.isEmpty then "" else "." ++ String.ofList kept

/-- The text of a duration, in the largest unit that gives a whole part. -/
def toText (d : Duration) : String :=
  if 0 < d.secs then toString d.secs ++ fractionText 9 d.nanos ++ "s"
  else if 1000000 ≤ d.nanos then
    toString (d.nanos / 1000000) ++ fractionText 6 (d.nanos % 1000000) ++ "ms"
  else if 1000 ≤ d.nanos then
    toString (d.nanos / 1000) ++ fractionText 3 (d.nanos % 1000) ++ "µs"
  else toString d.nanos ++ "ns"

end Duration

end DocStore
