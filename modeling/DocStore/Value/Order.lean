import DocStore.Value.Equality

/-! # Order of values

Values fall into brackets by their type, and the brackets are ordered. Within its bracket a value
is compared by content where the type has an order of its own: strings by code points, numbers as
doubles, object ids, flags and times as numbers, arrays item by item with the shorter one first.
All other pairs of one bracket count as equal. -/

namespace DocStore

namespace Value

/-- The **bracket** of a value. -/
def bracket : Value → Nat
  | .null => 0
  | .int32 _ | .int64 _ | .double _ => 1
  | .string _ | .symbol _ => 2
  | .document _ => 3
  | .array _ => 4
  | .binary _ _ => 5
  | .objectId _ => 6
  | .bool _ => 7
  | .dateTime _ => 8
  | .timestamp _ _ => 9
  | .regex _ _ => 10
  | .code _ | .scopedCode _ _ | .undefined | .minKey | .maxKey => 11

/-- Order of two values as numbers; whatever has no numeric order counts as equal. -/
def orderNumbers (left right : Value) : Ordering :=
  match left.number?, right.number? with
  -- a NaN compares with nothing and so counts as equal to every number
  | some x, some y => (x.compare? y).getD .eq
  | _, _ => .eq

mutual

/-- Order of values: by bracket, then by content. -/
def order : Value → Value → Ordering
  | .string a, .string b => compare a b
  | .objectId a, .objectId b => a.order b
  | .bool a, .bool b => compare a.toNat b.toNat
  | .dateTime a, .dateTime b => compare a.millis.toInt b.millis.toInt
  | .array a, .array b => orderItems a b
  | left, right => (compare left.bracket right.bracket).then (orderNumbers left right)
termination_by structural left => left

/-- Order of arrays: the first items that differ decide, then the lengths. -/
def orderItems : List Value → List Value → Ordering
  | [], [] => .eq
  | [], _ :: _ => .lt
  | _ :: _, [] => .gt
  | a :: as, b :: bs => (order a b).then (orderItems as bs)
termination_by structural items => items

end

/-- Order of what two documents hold in a field; a field that is missing stands where null
does. -/
def orderStored (left right : Option Value) : Ordering :=
  order (left.getD .null) (right.getD .null)

/-- Order of two values of one bracket; values of different brackets do not compare. -/
def compareInBracket (left right : Value) : Option Ordering :=
  if left.bracket = right.bracket then some (order left right) else none

end Value

end DocStore
