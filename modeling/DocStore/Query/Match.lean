import DocStore.Query.FieldTest

/-! # Queries

A query is a document: its field names carry conditions on fields, and `$and`, `$or` and `$nor`
combine queries. A document matches if every entry of the query holds, read from left to right. -/

namespace DocStore

namespace Query

variable [Runtime]

/-- A **combinator** of queries. -/
inductive Combinator where
  | all
  | any
  | none
  deriving DecidableEq

/-- The combinator of a key. -/
def Combinator.ofKey? : String → Option Combinator
  | "$and" => some .all
  | "$or" => some .any
  | "$nor" => some .none
  | _ => Option.none

/-- The key of a combinator. -/
def Combinator.key : Combinator → String
  | .all => "$and"
  | .any => "$or"
  | .none => "$nor"

/-- Whether a value is a document. -/
def isDocument : Value → Bool
  | .document _ => true
  | _ => false

mutual

/-- Whether a document matches a query. -/
def holds (doc : Document) : List (String × Value) → Verdict
  | [] => .ok true
  | (key, condition) :: rest =>
    Verdict.both
      (match Combinator.ofKey? key with
        | some combinator => combined doc combinator condition
        | none =>
          if isOperator key then .error (.unknownQueryOperator key)
          else FieldTest.holds (Entries.get? doc key) condition)
      (holds doc rest)
termination_by structural query => query

/-- Whether a document matches the operand of a combinator, which has to be an array of
documents. -/
def combined (doc : Document) (combinator : Combinator) : Value → Verdict
  | .array items =>
    if items.all isDocument then
      match combinator with
      | .all => allHold doc items
      | .any => anyHold doc items
      | .none => (anyHold doc items).negate
    else .error (.documentsExpected combinator.key)
  | _ => .error (.arrayExpected combinator.key)
termination_by structural operand => operand

/-- Whether a document matches all queries of a list. -/
def allHold (doc : Document) : List Value → Verdict
  | [] => .ok true
  | .document query :: rest => Verdict.both (holds doc query) (allHold doc rest)
  | _ :: rest => allHold doc rest
termination_by structural queries => queries

/-- Whether a document matches one of the queries of a list. -/
def anyHold (doc : Document) : List Value → Verdict
  | [] => .ok false
  | .document query :: rest => Verdict.either (holds doc query) (anyHold doc rest)
  | _ :: rest => anyHold doc rest
termination_by structural queries => queries

end

/-- The documents that match a query, in order; a fault on any document is a fault. -/
def select (query : Document) : List Document → Except Fault (List Document)
  | [] => .ok []
  | doc :: rest =>
    match holds doc query with
    | .error fault => .error fault
    | .ok matched => (select query rest).map fun found => if matched then doc :: found else found

end Query

end DocStore
