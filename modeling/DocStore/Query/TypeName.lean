import DocStore.Value.Basic

/-! # Names of types

A query can ask for the type of a value, by an alias or by a code. The alias `number` stands for
all three types of numbers and has no code. -/

namespace DocStore

/-- A **type name** that a query can ask for. -/
inductive TypeName where
  | double
  | string
  | object
  | array
  | objectId
  | bool
  | date
  | null
  | int
  | long
  | number
  deriving DecidableEq

namespace TypeName

/-- The type name of an alias. -/
def ofAlias? : String → Option TypeName
  | "double" => some .double
  | "string" => some .string
  | "object" => some .object
  | "array" => some .array
  | "objectId" => some .objectId
  | "bool" => some .bool
  | "date" => some .date
  | "null" => some .null
  | "int" => some .int
  | "long" => some .long
  | "number" => some .number
  | _ => none

/-- The type name of a code. -/
def ofCode? (code : Int) : Option TypeName :=
  match code with
  | 1 => some .double
  | 2 => some .string
  | 3 => some .object
  | 4 => some .array
  | 7 => some .objectId
  | 8 => some .bool
  | 9 => some .date
  | 10 => some .null
  | 16 => some .int
  | 18 => some .long
  | _ => none

/-- Whether a value has the type. -/
def holds : TypeName → Value → Bool
  | .double, .double _ => true
  | .string, .string _ => true
  | .object, .document _ => true
  | .array, .array _ => true
  | .objectId, .objectId _ => true
  | .bool, .bool _ => true
  | .date, .dateTime _ => true
  | .null, .null => true
  | .int, .int32 _ => true
  | .long, .int64 _ => true
  | .number, value => value.number?.isSome
  | _, _ => false

end TypeName

end DocStore
