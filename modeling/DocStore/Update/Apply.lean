import DocStore.Error

/-! # Applying updates

An update is a document of operators, each with a bucket of fields. The operators change a document
one after the other; a fault in any of them leaves nothing changed, because the outcome is a new
document or none. -/

namespace DocStore

namespace Update

/-- The **operators** of updates. -/
inductive Operator where
  /-- Write fields. -/
  | set
  /-- Write fields of a document that is about to be stored for the first time. -/
  | setOnInsert
  /-- Remove fields. -/
  | unset
  /-- Add to fields. -/
  | inc
  /-- Write the time. -/
  | currentDate
  /-- Move fields to other names. -/
  | rename
  deriving DecidableEq

/-- The operator of a key. -/
def Operator.ofKey? : String → Option Operator
  | "$set" => some .set
  | "$setOnInsert" => some .setOnInsert
  | "$unset" => some .unset
  | "$inc" => some .inc
  | "$currentDate" => some .currentDate
  | "$rename" => some .rename
  | _ => none

/-- The key of an operator. -/
def Operator.key : Operator → String
  | .set => "$set"
  | .setOnInsert => "$setOnInsert"
  | .unset => "$unset"
  | .inc => "$inc"
  | .currentDate => "$currentDate"
  | .rename => "$rename"

/-- Whether a whole number fits 32 bits. -/
def fitsInt32 (n : Int) : Bool :=
  decide (Int32.minValue.toInt ≤ n) && decide (n ≤ Int32.maxValue.toInt)

/-- Whether a whole number fits 64 bits. -/
def fitsInt64 (n : Int) : Bool :=
  decide (Int64.minValue.toInt ≤ n) && decide (n ≤ Int64.maxValue.toInt)

/-- A sum as a 64-bit integer, if it fits. -/
def wideSum (field : String) (sum : Int) : Except Fault Value :=
  if fitsInt64 sum then .ok (.int64 (Int64.ofInt sum)) else .error (.incrementOverflow field)

/-- A sum as a 32-bit integer if it fits, as a 64-bit integer otherwise. -/
def narrowSum (field : String) (sum : Int) : Except Fault Value :=
  if fitsInt32 sum then .ok (.int32 (Int32.ofInt sum)) else wideSum field sum

/-- The sum of what a field holds and an amount. Integers are added exactly, and 32 bits widen to
64 when they have to; a sum with a double is a double. A missing field takes the amount as it
is. -/
def increment (field : String) (current : Option Value) (amount : Value) : Except Fault Value :=
  match current, amount with
  | none, amount =>
    if amount.number?.isSome then .ok amount else .error (.notNumeric amount field)
  | some (.int32 a), .int32 b => narrowSum field (a.toInt + b.toInt)
  | some (.int32 a), .int64 b => wideSum field (a.toInt + b.toInt)
  | some (.int64 a), .int32 b => wideSum field (a.toInt + b.toInt)
  | some (.int64 a), .int64 b => wideSum field (a.toInt + b.toInt)
  | some current, amount =>
    match current.number?, amount.number? with
    | some x, some y => .ok (.double (x + y))
    | _, _ => .error (.notNumeric amount field)

/-- Add the amounts of a bucket to the fields of a document. -/
def incrementAll : List (String × Value) → Document → Except Fault Document
  | [], doc => .ok doc
  | (field, amount) :: rest, doc =>
    match increment field (Entries.get? doc field) amount with
    | .ok sum => incrementAll rest (Entries.insert doc field sum)
    | .error fault => .error fault

/-- Move the fields of a document as a bucket says; a missing field moves nothing. -/
def renameAll : List (String × Value) → Document → Except Fault Document
  | [], doc => .ok doc
  | (source, .string target) :: rest, doc =>
    match Entries.get? doc source with
    | some value => renameAll rest (Entries.insert (Entries.remove doc source) target value)
    | none => renameAll rest doc
  | _ :: _, _ => .error .renameTargetExpected

/-- Remove fields. -/
def removeAll (doc : Document) (fields : List String) : Document :=
  fields.foldl Entries.remove doc

/-- Write one value to many fields. -/
def stampAll (doc : Document) (fields : List String) (value : Value) : Document :=
  fields.foldl (fun doc field => Entries.insert doc field value) doc

/-- **When and where** an update is applied. -/
structure Occasion where
  /-- The time. -/
  now : DateTime
  /-- Whether the document is about to be stored for the first time. -/
  inserting : Bool

/-- Apply one operator with its bucket. -/
def Operator.apply (operator : Operator) (occasion : Occasion) (bucket doc : Document) :
    Except Fault Document :=
  match operator with
  | .set => .ok (Entries.insertAll doc bucket)
  | .setOnInsert => .ok (if occasion.inserting then Entries.insertAll doc bucket else doc)
  | .unset => .ok (removeAll doc (Entries.keys bucket))
  | .inc => incrementAll bucket doc
  | .currentDate => .ok (stampAll doc (Entries.keys bucket) (.dateTime occasion.now))
  | .rename => renameAll bucket doc

/-- Apply one entry of an update. -/
def applyEntry (occasion : Occasion) (key : String) (operand : Value) (doc : Document) :
    Except Fault Document :=
  match operand with
  | .document bucket =>
    match Operator.ofKey? key with
    | some operator => operator.apply occasion bucket doc
    | none => .error (.unknownUpdateOperator key)
  | _ => .error (.documentExpected key)

/-- Apply an update, entry by entry. -/
def apply (occasion : Occasion) : List (String × Value) → Document → Except Fault Document
  | [], doc => .ok doc
  | (key, operand) :: rest, doc =>
    match applyEntry occasion key operand doc with
    | .ok doc => apply occasion rest doc
    | .error fault => .error fault

end Update

end DocStore
