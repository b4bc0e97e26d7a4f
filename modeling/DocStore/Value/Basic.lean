import DocStore.Entries
import DocStore.Value.Double
import DocStore.Value.ObjectId

/-! # Values and documents

The dynamic values that documents hold: scalars, arrays and embedded documents. A document is a
list of entries of values. -/

namespace DocStore

/-- A point in time, in milliseconds since the epoch. -/
structure DateTime where
  /-- Milliseconds since the epoch. -/
  millis : Int64
  deriving DecidableEq

/-- **A value** of a document. Decimals of 128 bits and pointers into other databases are left out;
they would be sorted last, as code is. -/
inductive Value where
  | null
  | bool (b : Bool)
  | int32 (n : Int32)
  | int64 (n : Int64)
  | double (x : Double)
  | string (s : String)
  | symbol (s : String)
  | array (items : List Value)
  | document (fields : List (String × Value))
  | dateTime (at_ : DateTime)
  | objectId (id : ObjectId)
  | binary (subtype : UInt8) (bytes : List UInt8)
  | regex (pattern options : String)
  | timestamp (seconds increment : UInt32)
  | code (source : String)
  | scopedCode (source : String) (scope : List (String × Value))
  | undefined
  | minKey
  | maxKey

/-- **A document**: values under field names, in order. -/
abbrev Document : Type := Entries Value

/-- The field that holds a document's primary key. -/
def idField : String := "_id"

namespace Value

/-- Whether the value is null. -/
def isNull : Value → Bool
  | .null => true
  | _ => false

/-- The number that an integer or a double stands for, as a double. All comparisons of numbers go
through it. -/
def number? : Value → Option Double
  | .int32 n => some (Double.ofInt n.toInt)
  | .int64 n => some (Double.ofInt n.toInt)
  | .double x => some x
  | _ => none

/-- Whether the value counts as a set flag: false, null and zeros do not, all else does. -/
def truthy : Value → Bool
  | .bool b => b
  | .null => false
  | .int32 n => decide (n ≠ 0)
  | .int64 n => decide (n ≠ 0)
  | .double x => !x.isZero
  | _ => true

end Value

/-- Whether `key` names an operator rather than a field. -/
def isOperator (key : String) : Bool :=
  match key.toList with
  | '$' :: _ => true
  | _ => false

/-- Whether the first key of a document names an operator, so that the document is a set of
operators and no value. -/
def Document.isOperators : Document → Bool
  | (key, _) :: _ => isOperator key
  | [] => false

end DocStore
