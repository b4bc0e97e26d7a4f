/-! # Rename rules

A rename rule turns the name of a field, written in lower case with underscores between its words,
into the name under which it is stored. -/

namespace DocStore

namespace Derive

/-- A **rename rule**. -/
inductive RenameRule where
  | lower
  | upper
  | pascal
  | camel
  | snake
  | screamingSnake
  | kebab
  | screamingKebab
  deriving DecidableEq

namespace RenameRule

/-- The rule of a spelling. -/
def ofName? : String → Option RenameRule
  | "lowercase" => some .lower
  | "UPPERCASE" => some .upper
  | "PascalCase" => some .pascal
  | "camelCase" => some .camel
  | "snake_case" => some .snake
  | "SCREAMING_SNAKE_CASE" => some .screamingSnake
  | "kebab-case" => some .kebab
  | "SCREAMING-KEBAB-CASE" => some .screamingKebab
  | _ => none

/-- Join words by dropping underscores: a letter after one is capitalised, and the first letter if
`capitalise` says so. -/
def joinWords (capitalise : Bool) : List Char → List Char
  | [] => []
  | c :: rest =>
    if c = '_' then joinWords true rest
    else (if capitalise then c.toUpper else c) :: joinWords false rest

/-- Hyphens for underscores. -/
def hyphenate (c : Char) : Char := if c = '_' then '-' else c

/-- The name under which a field is stored. Only ASCII letters change their case. -/
def applyChars : RenameRule → List Char → List Char
  | .lower, name | .snake, name => name
  | .upper, name | .screamingSnake, name => name.map Char.toUpper
  | .pascal, name => joinWords true name
  | .camel, name => joinWords false name
  | .kebab, name => name.map hyphenate
  | .screamingKebab, name => name.map fun c => (hyphenate c).toUpper

/-- The name under which a field is stored. -/
def apply (rule : RenameRule) (name : String) : String :=
  String.ofList (rule.applyChars name.toList)

end RenameRule

end Derive

end DocStore
