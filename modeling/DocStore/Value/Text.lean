import DocStore.Text.Base64
import DocStore.Text.Calendar
import DocStore.Text.Decimal

/-! # Text of values

How messages write a value: scalars bare or under the name of their type, strings between quotes as
they are, arrays in brackets and documents in braces. -/

namespace DocStore

namespace Value

/-- `n` in lower-case hexadecimal digits. -/
def hexText (n : Nat) : String := String.ofList (Nat.toDigits 16 n)

/-- `s` between quotes, as it is. -/
def quoted (s : String) : String := "\"" ++ s ++ "\""

mutual

/-- The text of a value. -/
def toText : Value → String
  | .null => "null"
  | .bool b => if b then "true" else "false"
  | .int32 n => toString n.toInt
  | .int64 n => toString n.toInt
  | .double x => x.toText
  | .string s => quoted s
  | .symbol s => "Symbol(" ++ quoted s ++ ")"
  | .array items => "[" ++ itemsText items ++ "]"
  | .document fields =>
    if fields.isEmpty then "\x7b\x7d" else "\x7b " ++ fieldsText fields ++ " \x7d"
  | .dateTime t => "DateTime(" ++ quoted t.toText ++ ")"
  | .objectId id => "ObjectId(" ++ quoted id.toHex ++ ")"
  | .binary subtype bytes =>
    "Binary(0x" ++ hexText subtype.toNat ++ ", " ++ String.ofList (Base64.encode bytes) ++ ")"
  | .regex pattern options => "/" ++ pattern ++ "/" ++ options
  | .timestamp seconds increment =>
    "Timestamp(" ++ toString seconds.toNat ++ ", " ++ toString increment.toNat ++ ")"
  | .code source => source
  | .scopedCode source _ => source
  | .undefined => "undefined"
  | .minKey => "MinKey"
  | .maxKey => "MaxKey"
termination_by structural value => value

/-- The texts of the items of an array, with commas between them. -/
def itemsText : List Value → String
  | [] => ""
  | [item] => toText item
  | item :: rest => toText item ++ ", " ++ itemsText rest
termination_by structural items => items

/-- The texts of the fields of a document, with commas between them. -/
def fieldsText : List (String × Value) → String
  | [] => ""
  | [(key, value)] => quoted key ++ ": " ++ toText value
  | (key, value) :: rest => quoted key ++ ": " ++ toText value ++ ", " ++ fieldsText rest
termination_by structural fields => fields

end

end Value

end DocStore
