import DocStore.Unicode.Blank
import DocStore.Unicode.CaseFold
import DocStore.Unicode.Digit
import DocStore.Unicode.Word

/-! # Patterns

Regular expressions over characters: sets of characters, assertions on a position, sequence,
choice and counted repetition. Flags such as case insensitivity are resolved when a pattern is
read, so a pattern means the same everywhere. -/

namespace DocStore

/-- A **set of characters**. -/
inductive CharSet where
  /-- No character. -/
  | none
  /-- Every character. -/
  | any
  /-- The code points from `first` to `last`. -/
  | range (first last : Nat)
  /-- The decimal digits of all scripts. -/
  | digit
  /-- The word characters of all scripts. -/
  | word
  /-- The blank characters. -/
  | blank
  /-- What is in one of two sets. -/
  | union (a b : CharSet)
  /-- What is in both of two sets. -/
  | inter (a b : CharSet)
  /-- What is not in a set. -/
  | complement (a : CharSet)
  /-- What has a case variant in a set. -/
  | folded (a : CharSet)

namespace CharSet

/-- The set of one character. -/
def single (c : Char) : CharSet := .range c.toNat c.toNat

/-- What is in `a` but not in `b`. -/
def diff (a b : CharSet) : CharSet := .inter a (.complement b)

/-- What is in exactly one of two sets. -/
def symmDiff (a b : CharSet) : CharSet := .union (diff a b) (diff b a)

/-- Membership. -/
def contains : CharSet → Char → Bool
  | .none, _ => false
  | .any, _ => true
  | .range first last, c => decide (first ≤ c.toNat) && decide (c.toNat ≤ last)
  | .digit, c => Unicode.isDigit c
  | .word, c => Unicode.isWord c
  | .blank, c => Unicode.isBlank c
  | .union a b, c => contains a c || contains b c
  | .inter a b, c => contains a c && contains b c
  | .complement a, c => !contains a c
  | .folded a, c => (Unicode.caseVariants c).any (contains a)

end CharSet

/-- An **anchor**: an assertion on a position between two characters. -/
inductive Anchor where
  /-- The start of the text. -/
  | textStart
  /-- The end of the text. -/
  | textEnd
  /-- The start of a line. With `cr`, a carriage return ends a line too. -/
  | lineStart (cr : Bool)
  /-- The end of a line. With `cr`, a carriage return ends a line too. -/
  | lineEnd (cr : Bool)
  /-- A word character on exactly one side. -/
  | wordEdge
  /-- A word character on both sides or on none. -/
  | noWordEdge
  /-- A word character on the right only. -/
  | wordStart
  /-- A word character on the left only. -/
  | wordEnd
  /-- No word character on the left. -/
  | wordStartHalf
  /-- No word character on the right. -/
  | wordEndHalf

namespace Anchor

/-- Whether an anchor holds between the characters on its left and right. -/
def holds (anchor : Anchor) (left right : Option Char) : Bool :=
  let wordLeft := left.any Unicode.isWord
  let wordRight := right.any Unicode.isWord
  match anchor with
  | .textStart => left.isNone
  | .textEnd => right.isNone
  | .lineStart false => left.isNone || left == some '\n'
  | .lineEnd false => right.isNone || right == some '\n'
  | .lineStart true =>
    left.isNone || left == some '\n' || (left == some '\r' && right != some '\n')
  | .lineEnd true =>
    right.isNone || right == some '\r' || (right == some '\n' && left != some '\r')
  | .wordEdge => wordLeft != wordRight
  | .noWordEdge => wordLeft == wordRight
  | .wordStart => !wordLeft && wordRight
  | .wordEnd => wordLeft && !wordRight
  | .wordStartHalf => !wordLeft
  | .wordEndHalf => !wordRight

end Anchor

/-- A **pattern**. Whether a repetition prefers many or few rounds does not bear on whether the
pattern matches, so it is not kept. -/
inductive Pattern where
  /-- The empty text. -/
  | empty
  /-- One character of a set. -/
  | chars (set : CharSet)
  /-- The empty text at a position with an assertion. -/
  | anchor (assertion : Anchor)
  /-- One pattern after the other. -/
  | sequence (first second : Pattern)
  /-- One of two patterns. -/
  | choice (first second : Pattern)
  /-- At least `least` and, if given, at most `most` rounds. -/
  | repeated (body : Pattern) (least : Nat) (most : Option Nat)

namespace Pattern

/-- One pattern after the other, for a list given last first. -/
def sequenceOf (parts : List Pattern) : Pattern :=
  match parts with
  | [] => .empty
  | last :: before => before.foldl (fun rest part => .sequence part rest) last

/-- One of a nonempty list of patterns, given last first. -/
def choiceOf (last : Pattern) (before : List Pattern) : Pattern :=
  before.foldl (fun rest branch => .choice branch rest) last

/-- The number of steps of a pattern when its repetitions are written out. -/
def weight : Pattern → Nat
  | .empty | .chars _ | .anchor _ => 1
  | .sequence a b | .choice a b => weight a + weight b
  | .repeated body least most => weight body * max 1 (most.getD least)

end Pattern

end DocStore
