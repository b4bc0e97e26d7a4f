import DocStore.Pattern.Basic

/-! # Matching

A set of positions of a text is a number: its bit `i` says whether position `i` is in it. A pattern
sends the positions where it may start to those where it may end, and a text matches if a pattern
started everywhere ends somewhere. -/

namespace DocStore

namespace Pattern

/-- The positions in front of a character of the set. -/
def charPositions (set : CharSet) : List Char → Nat
  | [] => 0
  | c :: rest => 2 * charPositions set rest + (set.contains c).toNat

/-- The positions where an anchor holds, given the character on the left of the text. -/
def anchorPositions (anchor : Anchor) (left : Option Char) : List Char → Nat
  | [] => (anchor.holds left none).toNat
  | c :: rest => 2 * anchorPositions anchor (some c) rest + (anchor.holds left (some c)).toNat

/-- Exactly `rounds` rounds of a step. -/
def iterate (step : Nat → Nat) : Nat → Nat → Nat
  | 0, positions => positions
  | rounds + 1, positions => iterate step rounds (step positions)

/-- At most `rounds` rounds of a step. -/
def spread (step : Nat → Nat) : Nat → Nat → Nat
  | 0, positions => positions
  | rounds + 1, positions => spread step rounds (positions ||| step positions)

/-- Where a pattern may end if it starts at one of `positions`. After as many rounds as the text
has positions, a repetition reaches nothing new. -/
def reach (text : List Char) : Pattern → Nat → Nat
  | .empty, positions => positions
  | .chars set, positions => 2 * (positions &&& charPositions set text)
  | .anchor assertion, positions => positions &&& anchorPositions assertion none text
  | .sequence a b, positions => reach text b (reach text a positions)
  | .choice a b, positions => reach text a positions ||| reach text b positions
  | .repeated body least most, positions =>
    let enough := text.length + 1
    let rounds := match most with
      | some most => min (most - least) enough
      | none => enough
    spread (reach text body) rounds (iterate (reach text body) least positions)

/-- Whether a pattern matches somewhere in a text. -/
def isMatch (pattern : Pattern) (text : String) : Bool :=
  let chars := text.toList
  -- a match may also start behind the last character
  reach chars pattern (Nat.pow 2 (chars.length + 1) - 1) != 0

end Pattern

end DocStore
