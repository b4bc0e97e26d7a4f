import DocStore.Value.Basic

/-! # Equality of values

Two values are equal if they have the same type and the same content. Doubles compare as numbers,
so a NaN equals nothing and both zeros are equal; documents compare without regard to the order of
their keys. -/

namespace DocStore

namespace Value

mutual

/-- Equality by type and content. -/
def equal : Value → Value → Bool
  | .null, .null => true
  | .bool a, .bool b => a == b
  | .int32 a, .int32 b => a == b
  | .int64 a, .int64 b => a == b
  | .double a, .double b => a.equals b
  | .string a, .string b => a == b
  | .symbol a, .symbol b => a == b
  | .array a, .array b => equalItems a b
  | .document a, .document b => a.length == b.length && containedIn a b
  | .dateTime a, .dateTime b => decide (a = b)
  | .objectId a, .objectId b => decide (a = b)
  | .binary s a, .binary t b => s == t && a == b
  | .regex p a, .regex q b => p == q && a == b
  | .timestamp s a, .timestamp t b => s == t && a == b
  | .code a, .code b => a == b
  | .scopedCode a s, .scopedCode b t => a == b && (s.length == t.length && containedIn s t)
  | .undefined, .undefined => true
  | .minKey, .minKey => true
  | .maxKey, .maxKey => true
  | _, _ => false
termination_by structural value => value

/-- Equality of arrays, item by item. -/
def equalItems : List Value → List Value → Bool
  | [], [] => true
  | a :: as, b :: bs => equal a b && equalItems as bs
  | _, _ => false
termination_by structural items => items

/-- Whether every field on the left has an equal field on the right. -/
def containedIn : List (String × Value) → List (String × Value) → Bool
  | [], _ => true
  | (key, a) :: rest, other =>
    (match Entries.get? other key with
      | some b => equal a b
      | none => false) && containedIn rest other
termination_by structural fields => fields

end

end Value

/-- Equality of documents, without regard to the order of their keys. -/
def Document.equal (a b : Document) : Bool := a.length == b.length && Value.containedIn a b

end DocStore
