import DocStore.Pattern.Basic

/-! # Reading single pieces of a pattern

Flags, blanks and comments, escapes, numbers and flag groups. Each reader takes the rest of the
text and gives what it read and what follows, or nothing if the text is malformed. -/

namespace DocStore

namespace Pattern

/-- The **flags** that a pattern is read under. -/
structure Flags where
  /-- Letters stand for their case variants too. -/
  ignoreCase : Bool := false
  /-- `^` and `$` match at lines. -/
  multiLine : Bool := false
  /-- `.` matches line ends. -/
  dotAll : Bool := false
  /-- Blanks and comments are skipped. -/
  ignoreBlank : Bool := false
  /-- A carriage return ends a line. -/
  carriageReturn : Bool := false

/-- The flags named by the letters of a text; other letters name none. -/
def Flags.ofOptions (options : String) : Flags :=
  let letters := options.toList
  { ignoreCase := letters.contains 'i'
    multiLine := letters.contains 'm'
    dotAll := letters.contains 's'
    ignoreBlank := letters.contains 'x' }

/-- Set one flag by its letter. The letter `U`, which swaps which repetitions prefer many rounds,
changes nothing here, and `u`, which stands for the full character tables, can not be cleared. -/
def Flags.set (flags : Flags) (letter : Char) (value : Bool) : Option Flags :=
  match letter with
  | 'i' => some { flags with ignoreCase := value }
  | 'm' => some { flags with multiLine := value }
  | 's' => some { flags with dotAll := value }
  | 'x' => some { flags with ignoreBlank := value }
  | 'R' => some { flags with carriageReturn := value }
  | 'U' => some flags
  | 'u' => if value then some flags else none
  | _ => none

/-- Skip blanks and comments, which run from `#` to the end of their line. -/
def skipBlanks (inComment : Bool) : List Char → List Char
  | [] => []
  | c :: rest =>
    if inComment then skipBlanks (c != '\n') rest
    else if Unicode.isBlank c then skipBlanks false rest
    else if c == '#' then skipBlanks true rest
    else c :: rest

/-- Skip blanks and comments if the flags say so. -/
def Flags.skip (flags : Flags) (rest : List Char) : List Char :=
  if flags.ignoreBlank then skipBlanks false rest else rest

/-- A piece that stands for a character, a set or an anchor. -/
inductive Piece where
  | char (c : Char)
  | oneOf (members : CharSet)
  | anchor (assertion : Anchor)

/-- The set of a character under the flags. -/
def Flags.charSet (flags : Flags) (c : Char) : CharSet :=
  if flags.ignoreCase then .folded (.single c) else .single c

/-- The characters that have a meaning of their own in patterns. -/
def isMeta (c : Char) : Bool := "\\.+*?()|[]\x7b\x7d^$#&-~".toList.contains c

/-- Whether a backslash makes a character stand for itself: ASCII without letters, digits and
angle brackets. -/
def isEscapable (c : Char) : Bool :=
  isMeta c || (decide (c.toNat < 128) && !c.isAlphanum && c != '<' && c != '>')

/-- The value of a hexadecimal digit. -/
def hexValue? (c : Char) : Option Nat :=
  if c.isDigit then some (c.toNat - '0'.toNat)
  else if 'a' ≤ c ∧ c ≤ 'f' then some (c.toNat - 'a'.toNat + 10)
  else if 'A' ≤ c ∧ c ≤ 'F' then some (c.toNat - 'A'.toNat + 10)
  else none

/-- The character of a code point. -/
def charOf? (n : Nat) : Option Char :=
  if n.isValidChar then some (Char.ofNat n) else none

/-- Exactly `count` hexadecimal digits. -/
def hexFixed (flags : Flags) : Nat → Nat → List Char → Option (Char × List Char)
  | 0, value, rest => (charOf? value).map fun c => (c, rest)
  | count + 1, value, rest =>
    match flags.skip rest with
    | c :: rest => (hexValue? c).bind fun digit => hexFixed flags count (16 * value + digit) rest
    | [] => none

/-- Hexadecimal digits up to a closing brace, at least one. -/
def hexBraced (flags : Flags) (value : Option Nat) : List Char → Option (Char × List Char)
  | [] => none
  | '}' :: rest => (value.bind charOf?).map fun c => (c, rest)
  | c :: rest =>
    match hexValue? c with
    | some digit => hexBraced flags (some (16 * value.getD 0 + digit)) rest
    | none =>
      if flags.ignoreBlank && Unicode.isBlank c then hexBraced flags value rest else none

/-- A code point in hexadecimal digits, `count` of them or any number in braces. -/
def hexEscape (flags : Flags) (count : Nat) (rest : List Char) : Option (Piece × List Char) :=
  let read := match flags.skip rest with
    | '{' :: inner => hexBraced flags none inner
    | _ => hexFixed flags count 0 rest
  read.map fun (c, rest) => (.char c, rest)

/-- A word edge whose side may be named in braces. -/
def wordEdge (rest : List Char) : Piece × List Char :=
  let named (name : String) := (name ++ "\x7d").toList
  match rest with
  | '{' :: inner =>
    if (named "start").isPrefixOf inner then (.anchor .wordStart, inner.drop 6)
    else if (named "end").isPrefixOf inner then (.anchor .wordEnd, inner.drop 4)
    else if (named "start-half").isPrefixOf inner then (.anchor .wordStartHalf, inner.drop 11)
    else if (named "end-half").isPrefixOf inner then (.anchor .wordEndHalf, inner.drop 9)
    else (.anchor .wordEdge, rest)
  | _ => (.anchor .wordEdge, rest)

/-- What follows a backslash. -/
def escape (flags : Flags) : List Char → Option (Piece × List Char)
  | [] => none
  | c :: rest =>
    match c with
    | 'd' => some (.oneOf .digit, rest)
    | 'D' => some (.oneOf (.complement .digit), rest)
    | 'w' => some (.oneOf .word, rest)
    | 'W' => some (.oneOf (.complement .word), rest)
    | 's' => some (.oneOf .blank, rest)
    | 'S' => some (.oneOf (.complement .blank), rest)
    | 'x' => hexEscape flags 2 rest
    | 'u' => hexEscape flags 4 rest
    | 'U' => hexEscape flags 8 rest
    | 'a' => some (.char '\x07', rest)
    | 'f' => some (.char '\x0c', rest)
    | 't' => some (.char '\t', rest)
    | 'n' => some (.char '\n', rest)
    | 'r' => some (.char '\r', rest)
    | 'v' => some (.char '\x0b', rest)
    | 'A' => some (.anchor .textStart, rest)
    | 'z' => some (.anchor .textEnd, rest)
    | 'b' => some (wordEdge rest)
    | 'B' => some (.anchor .noWordEdge, rest)
    | '<' => some (.anchor .wordStart, rest)
    | '>' => some (.anchor .wordEnd, rest)
    | c => if isEscapable c then some (.char c, rest) else none

/-- The digits of a number, with blanks skipped between them if the flags say so. -/
def digits (flags : Flags) (value : Option Nat) : List Char → Option Nat × List Char
  | [] => (value, [])
  | c :: rest =>
    if c.isDigit then digits flags (some (10 * value.getD 0 + (c.toNat - '0'.toNat))) rest
    else if flags.ignoreBlank && Unicode.isBlank c then digits flags value rest
    else (value, c :: rest)

/-- The largest number of rounds that can be asked for. -/
def countLimit : Nat := Nat.pow 2 32

/-- A number between blanks; nothing is read if there is no digit. -/
def number (flags : Flags) (rest : List Char) : Option Nat × List Char :=
  let (value, rest) := digits flags none (rest.dropWhile Unicode.isBlank)
  (value.filter (decide <| · < countLimit), flags.skip (rest.dropWhile Unicode.isBlank))

/-- How often a repetition goes round. -/
structure Rounds where
  /-- At least this often. -/
  least : Nat
  /-- At most this often, if there is a bound. -/
  most : Option Nat

/-- What follows the opening brace of a counted repetition. -/
def counted (flags : Flags) (rest : List Char) : Option (Rounds × List Char) :=
  let (first, rest) := number flags (flags.skip rest)
  match first, rest with
  | some least, '}' :: rest => some (⟨least, some least⟩, rest)
  | some least, ',' :: rest =>
    match flags.skip rest with
    | '}' :: rest => some (⟨least, none⟩, rest)
    | rest =>
      match number flags rest with
      | (some most, '}' :: rest) =>
        if least ≤ most then some (⟨least, some most⟩, rest) else none
      | _ => none
  | _, _ => none

/-- What an opening parenthesis begins. -/
inductive Opening where
  /-- A group under the same flags. -/
  | group
  /-- A group with a name. -/
  | named (name : String)
  /-- A group under flags of its own. -/
  | scoped (flags : Flags)
  /-- No group: the flags change from here on. -/
  | setFlags (flags : Flags)

/-- Flag letters up to a colon, which opens a group, or a parenthesis, which does not. Each letter
stands once, and one minus sign clears the letters after it. -/
def flagLetters (flags : Flags) (seen : List Char) (clearing dangling : Bool) :
    List Char → Option (Opening × List Char)
  | [] => none
  | ':' :: rest => if dangling then none else some (.scoped flags, rest)
  | ')' :: rest =>
    if dangling || seen.isEmpty then none else some (.setFlags flags, rest)
  | '-' :: rest => if clearing then none else flagLetters flags seen true true rest
  | letter :: rest =>
    if seen.contains letter then none
    else (flags.set letter (!clearing)).bind fun flags =>
      flagLetters flags (letter :: seen) clearing false rest

/-- Whether a character may stand in the name of a group. -/
def isNameChar (c : Char) (isFirst : Bool) : Bool :=
  c == '_' || (Unicode.isWord c && !(isFirst && Unicode.isDigit c)) ||
    (!isFirst && (c == '.' || c == '[' || c == ']'))

/-- A name up to the closing angle bracket, given what is read of it, last first. -/
def groupName (read : List Char) : List Char → Option (Opening × List Char)
  | [] => none
  | '>' :: rest =>
    if read.isEmpty then none else some (.named (String.ofList read.reverse), rest)
  | c :: rest => if isNameChar c read.isEmpty then groupName (c :: read) rest else none

/-- What follows an opening parenthesis. -/
def opening (flags : Flags) (rest : List Char) : Option (Opening × List Char) :=
  match flags.skip rest with
  | '?' :: 'P' :: '<' :: rest => groupName [] rest
  | '?' :: '<' :: rest => groupName [] rest
  | '?' :: rest => flagLetters flags [] false false rest
  | rest => some (.group, rest)

end Pattern

end DocStore
