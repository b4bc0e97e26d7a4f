import DocStore.Pattern.Bracket

/-! # Reading a pattern

The reader goes through the text once and keeps the groups that are open. Each group has the
alternatives read so far, the parts of the current one, and the flags to return to when it
closes. -/

namespace DocStore

namespace Pattern

/-- A **group** that is open. -/
structure Group where
  /-- The alternatives that are complete, last first. -/
  branches : List Pattern
  /-- The parts of the current alternative, last first. -/
  parts : List Pattern
  /-- Whether the last part can be repeated. -/
  repeatable : Bool

namespace Group

/-- A group with nothing in it. -/
def fresh : Group := ⟨[], [], false⟩

/-- Add a part to the current alternative. -/
def add (group : Group) (part : Pattern) : Group :=
  { group with parts := part :: group.parts, repeatable := true }

/-- Begin another alternative. -/
def branch (group : Group) : Group :=
  ⟨sequenceOf group.parts :: group.branches, [], false⟩

/-- The pattern of a group that closes. -/
def close (group : Group) : Pattern := choiceOf (sequenceOf group.parts) group.branches

/-- Repeat the last part, if there is one that can be. -/
def repeatLast (group : Group) (rounds : Rounds) : Option Group :=
  match group.repeatable, group.parts with
  | true, part :: before =>
    some { group with parts := .repeated part rounds.least rounds.most :: before }
  | _, _ => none

end Group

/-- **How far a text is read.** -/
structure Reading where
  /-- The flags in force. -/
  flags : Flags
  /-- The innermost open group. -/
  group : Group
  /-- The groups around it with the flags in force there, innermost first. -/
  outer : List (Flags × Group)
  /-- The names of the groups so far. -/
  names : List String

namespace Reading

/-- Add a part to the innermost group. -/
def add (reading : Reading) (part : Pattern) : Reading :=
  { reading with group := reading.group.add part }

/-- Open a group under some flags. -/
def enter (reading : Reading) (flags : Flags) : Reading :=
  { reading with
    flags := flags
    group := .fresh
    outer := (reading.flags, reading.group) :: reading.outer }

/-- Carry out an opening parenthesis. No two groups have the same name. -/
def begin (reading : Reading) : Opening → Option Reading
  | .group => some (reading.enter reading.flags)
  | .named name =>
    if reading.names.contains name then none
    else some { reading.enter reading.flags with names := name :: reading.names }
  | .scoped flags => some (reading.enter flags)
  | .setFlags flags =>
    some { reading with flags := flags, group := { reading.group with repeatable := false } }

/-- Carry out a closing parenthesis: the flags are again those of the group around. -/
def leave (reading : Reading) : Option Reading :=
  match reading.outer with
  | [] => none
  | (flags, group) :: outer =>
    some { reading with flags := flags, group := group.add reading.group.close, outer := outer }

/-- Repeat the last part. -/
def repeatLast (reading : Reading) (rounds : Rounds) : Option Reading :=
  (reading.group.repeatLast rounds).map fun group => { reading with group := group }

/-- The pattern at the end of the text; no group may be open. -/
def finish (reading : Reading) : Option Pattern :=
  if reading.outer.isEmpty then some reading.group.close else none

end Reading

/-- A question mark after a repetition prefers few rounds. -/
def skipPreference : List Char → List Char
  | '?' :: rest => rest
  | rest => rest

/-- The part that a dot stands for. -/
def dot (flags : Flags) : CharSet :=
  if flags.dotAll then .any
  else if flags.carriageReturn then .complement (.union (.single '\n') (.single '\r'))
  else .complement (.single '\n')

/-- The anchor of a circumflex. -/
def startAnchor (flags : Flags) : Anchor :=
  if flags.multiLine then .lineStart flags.carriageReturn else .textStart

/-- The anchor of a dollar sign. -/
def endAnchor (flags : Flags) : Anchor :=
  if flags.multiLine then .lineEnd flags.carriageReturn else .textEnd

/-- The part that a piece stands for. -/
def Piece.part (flags : Flags) : Piece → Pattern
  | .char c => .chars (flags.charSet c)
  | .oneOf members => .chars members
  | .anchor assertion => .anchor assertion

/-- Read one piece of a pattern. -/
def readStep (reading : Reading) (c : Char) (rest : List Char) :
    Option (Reading × List Char) :=
  let flags := reading.flags
  let again (rounds : Rounds) (rest : List Char) : Option (Reading × List Char) :=
    (reading.repeatLast rounds).map fun reading => (reading, skipPreference rest)
  match c with
  | '(' => do
    let (opened, rest) ← opening flags rest
    (reading.begin opened).map fun reading => (reading, rest)
  | ')' => reading.leave.map fun reading => (reading, rest)
  | '|' => some ({ reading with group := reading.group.branch }, rest)
  | '[' => (bracketed flags rest).map fun (set, rest) => (reading.add (.chars set), rest)
  | '?' => again ⟨0, some 1⟩ rest
  | '*' => again ⟨0, none⟩ rest
  | '+' => again ⟨1, none⟩ rest
  | '{' => do
    let (rounds, rest) ← counted flags rest
    again rounds (flags.skip rest)
  | '\\' => (escape flags rest).map fun (piece, rest) => (reading.add (piece.part flags), rest)
  | '.' => some (reading.add (.chars (dot flags)), rest)
  | '^' => some (reading.add (.anchor (startAnchor flags)), rest)
  | '$' => some (reading.add (.anchor (endAnchor flags)), rest)
  | c => some (reading.add (.chars (flags.charSet c)), rest)

/-- Read on to the end of the text. -/
def readLoop (reading : Reading) (rest : List Char) : Option Pattern :=
  match reading.flags.skip rest with
  | [] => reading.finish
  | c :: after =>
    match readStep reading c after with
    | none => none
    | some (reading, after) =>
      -- every step reads at least one character, so this only says that the loop ends
      if after.length < rest.length then readLoop reading after else none
termination_by rest.length

/-- The weight above which a pattern is refused. -/
def weightLimit : Nat := Nat.pow 2 18

/-- The pattern that a text stands for under some flags, if it is well formed and not too large
when written out. -/
def parse? (flags : Flags) (text : String) : Option Pattern :=
  (readLoop ⟨flags, .fresh, [], []⟩ text.toList).filter fun pattern =>
    decide (pattern.weight ≤ weightLimit)

end Pattern

end DocStore
