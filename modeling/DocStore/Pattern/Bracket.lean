import DocStore.Pattern.Piece

/-! # Bracketed sets of characters

A bracketed set holds characters, ranges, named sets and further bracketed sets, may be negated,
and may be cut with `&&`, `--` and `~~`, which bind alike and to the left. The reader keeps the
brackets that are open and goes through the text once. -/

namespace DocStore

namespace Pattern

/-- An operation on two sets. -/
inductive SetOperation where
  | inter
  | diff
  | symmDiff

/-- The set that an operation makes of two. -/
def SetOperation.apply : SetOperation → CharSet → CharSet → CharSet
  | .inter, a, b => .inter a b
  | .diff, a, b => .diff a b
  | .symmDiff, a, b => .symmDiff a b

/-- A **bracket** that is open. -/
structure Bracket where
  /-- Whether the set is negated. -/
  negated : Bool
  /-- The operation in front of what is being read, with its left side. -/
  pending : Option (CharSet × SetOperation)
  /-- What is read since the last operation. -/
  items : CharSet

namespace Bracket

/-- Add a set to what is being read. -/
def add (bracket : Bracket) (set : CharSet) : Bracket :=
  { bracket with items := .union bracket.items set }

/-- A set with all case variants, if the flags ask for them. -/
def widen (flags : Flags) (set : CharSet) : CharSet :=
  if flags.ignoreCase then .folded set else set

/-- What is read so far, with the pending operation carried out. -/
def combined (flags : Flags) (bracket : Bracket) : CharSet :=
  match bracket.pending with
  | some (left, operation) => operation.apply (widen flags left) (widen flags bracket.items)
  | none => bracket.items

/-- Begin the right side of an operation. -/
def operate (flags : Flags) (bracket : Bracket) (operation : SetOperation) : Bracket :=
  { bracket with pending := some (bracket.combined flags, operation), items := .none }

/-- The set of a bracket that closes. -/
def close (flags : Flags) (bracket : Bracket) : CharSet :=
  let set := widen flags (bracket.combined flags)
  if bracket.negated then .complement set else set

end Bracket

/-- Leading hyphens stand for themselves. -/
def leadingHyphens (flags : Flags) (items : CharSet) : List Char → CharSet × List Char
  | [] => (items, [])
  | c :: rest =>
    if c == '-' then leadingHyphens flags (.union items (.single '-')) rest
    else if flags.ignoreBlank && Unicode.isBlank c then leadingHyphens flags items rest
    else (items, c :: rest)

/-- What follows an opening bracket: a negation, hyphens, and a closing bracket that comes first
stands for itself. -/
def bracketStart (flags : Flags) (rest : List Char) : Bracket × List Char :=
  let (negated, rest) := match flags.skip rest with
    | '^' :: rest => (true, flags.skip rest)
    | rest => (false, rest)
  let (items, rest) := leadingHyphens flags .none rest
  match items, flags.skip rest with
  | .none, ']' :: rest => (⟨negated, none, .single ']'⟩, rest)
  | items, rest => (⟨negated, none, items⟩, rest)

/-- The sets that have a name between colons. -/
def namedSet (name : String) : Option CharSet :=
  let range (first last : Char) : CharSet := .range first.toNat last.toNat
  match name with
  | "alnum" => some (.union (range '0' '9') (.union (range 'A' 'Z') (range 'a' 'z')))
  | "alpha" => some (.union (range 'A' 'Z') (range 'a' 'z'))
  | "ascii" => some (.range 0 127)
  | "blank" => some (.union (.single '\t') (.single ' '))
  | "cntrl" => some (.union (.range 0 31) (.range 127 127))
  | "digit" => some (range '0' '9')
  | "graph" => some (range '!' '~')
  | "lower" => some (range 'a' 'z')
  | "print" => some (range ' ' '~')
  | "punct" => some (.union (range '!' '/') (.union (range ':' '@')
      (.union (range '[' '\x60') (range '\x7b' '~'))))
  | "space" => some (.union (range '\t' '\r') (.single ' '))
  | "upper" => some (range 'A' 'Z')
  | "word" => some (.union (range '0' '9') (.union (range 'A' 'Z')
      (.union (.single '_') (range 'a' 'z'))))
  | "xdigit" => some (.union (range '0' '9') (.union (range 'A' 'F') (range 'a' 'f')))
  | _ => none

/-- A named set, after the opening bracket and up to the closing one. -/
def namedSet? (rest : List Char) : Option (CharSet × List Char) :=
  match rest with
  | ':' :: rest =>
    let (negated, rest) := match rest with
      | '^' :: rest => (true, rest)
      | rest => (false, rest)
    match rest.dropWhile (· != ':') with
    | ':' :: ']' :: after =>
      (namedSet (String.ofList (rest.takeWhile (· != ':')))).map fun set =>
        (if negated then .complement set else set, after)
    | _ => none
  | _ => none

/-- A character or a set inside a bracket. -/
def bracketPiece (flags : Flags) : List Char → Option (Piece × List Char)
  | [] => none
  | '\\' :: rest => escape flags rest
  | c :: rest => some (.char c, rest)

/-- Whether a hyphen with this behind it makes a range. -/
def makesRange (flags : Flags) (rest : List Char) : Bool :=
  match flags.skip rest with
  | ']' :: _ | '-' :: _ => false
  | _ => true

/-- The set of a single piece inside a bracket; anchors have none. -/
def Piece.set? : Piece → Option CharSet
  | .char c => some (.single c)
  | .oneOf members => some members
  | .anchor _ => none

/-- A character, a set or a range inside a bracket. -/
def bracketItem (flags : Flags) (rest : List Char) : Option (CharSet × List Char) := do
  let (first, rest) ← bracketPiece flags rest
  match flags.skip rest with
  | '-' :: after =>
    if makesRange flags after then
      match first, ← bracketPiece flags (flags.skip after) with
      | .char low, (.char high, rest) =>
        if low ≤ high then some (.range low.toNat high.toNat, rest) else none
      | _, _ => none
    else (first.set?).map fun set => (set, '-' :: after)
  | rest => (first.set?).map fun set => (set, rest)

/-- What one piece of text does to the open brackets. -/
inductive BracketStep where
  /-- The brackets that are open now, innermost first. -/
  | more (bracket : Bracket) (outer : List Bracket) (rest : List Char)
  /-- The outermost bracket is closed. -/
  | done (set : CharSet) (rest : List Char)

/-- Read one piece of text inside brackets. -/
def bracketStep (flags : Flags) (bracket : Bracket) (outer : List Bracket) (rest : List Char) :
    Option BracketStep :=
  match rest with
  | [] => none
  | '[' :: after =>
    match namedSet? after with
    | some (set, after) => some (.more (bracket.add set) outer after)
    | none =>
      let (inner, after) := bracketStart flags after
      some (.more inner (bracket :: outer) after)
  | ']' :: after =>
    let set := bracket.close flags
    match outer with
    | [] => some (.done set after)
    | next :: outer => some (.more (next.add set) outer after)
  | '&' :: '&' :: after => some (.more (bracket.operate flags .inter) outer after)
  | '-' :: '-' :: after => some (.more (bracket.operate flags .diff) outer after)
  | '~' :: '~' :: after => some (.more (bracket.operate flags .symmDiff) outer after)
  | rest => (bracketItem flags rest).map fun (set, after) => .more (bracket.add set) outer after

/-- Read on to the closing bracket of the outermost set. -/
def bracketLoop (flags : Flags) (bracket : Bracket) (outer : List Bracket) (rest : List Char) :
    Option (CharSet × List Char) :=
  match bracketStep flags bracket outer (flags.skip rest) with
  | none => none
  | some (.done set after) => some (set, after)
  | some (.more bracket outer after) =>
    -- every step reads at least one character, so this only says that the loop ends
    if after.length < rest.length then bracketLoop flags bracket outer after else none
termination_by rest.length

/-- The set after an opening bracket. -/
def bracketed (flags : Flags) (rest : List Char) : Option (CharSet × List Char) :=
  let (bracket, rest) := bracketStart flags rest
  bracketLoop flags bracket [] rest

end Pattern

end DocStore
