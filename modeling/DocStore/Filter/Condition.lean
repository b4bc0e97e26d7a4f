import DocStore.Value.Basic

/-! # Conditions

A condition says in terms of a model which documents are wanted: tests on fields, by their logical
names, combined by conjunction, disjunction and joint denial. -/

namespace DocStore

/-- A **test** of what a field holds. Operands are passed to the store as they are. -/
inductive FieldOperator where
  /-- Equality. -/
  | eq (value : Value)
  /-- Its complement. -/
  | neq (value : Value)
  /-- More than. -/
  | gt (value : Value)
  /-- At least. -/
  | gte (value : Value)
  /-- Less than. -/
  | lt (value : Value)
  /-- At most. -/
  | lte (value : Value)
  /-- Equality to one of several values. -/
  | inq (values : List Value)
  /-- Its complement. -/
  | nin (values : List Value)
  /-- Between two values, both included. -/
  | between (low high : Value)
  /-- Whether the field is there. -/
  | exists_ (present : Bool)
  /-- Whether a pattern matches. -/
  | like (pattern : String)
  /-- Its complement. -/
  | nlike (pattern : String)
  /-- Whether a pattern matches, whatever the case of letters. -/
  | ilike (pattern : String)
  /-- Its complement. -/
  | nilike (pattern : String)
  /-- Whether a pattern with options matches. -/
  | regexp (pattern options : String)
  /-- The complement of a test. -/
  | not (operator : FieldOperator)

/-- A **condition** on documents. A combination of no conditions holds of every document. -/
inductive Condition where
  /-- All of several conditions. -/
  | and (children : List Condition)
  /-- One of several conditions. -/
  | or (children : List Condition)
  /-- None of several conditions. -/
  | nor (children : List Condition)
  /-- A test of one field. -/
  | field (name : String) (operator : FieldOperator)

namespace Condition

/-- The condition that holds of every document. -/
def always : Condition := .and []

/-- Whether a condition combines no conditions. -/
def isEmpty : Condition → Bool
  | .and children | .or children | .nor children => children.isEmpty
  | .field _ _ => false

/-- Both of two conditions; one that is empty is left out. -/
def both (first second : Condition) : Condition :=
  if first.isEmpty then second else if second.isEmpty then first else .and [first, second]

/-- One of two conditions. -/
def either (first second : Condition) : Condition := .or [first, second]

/-- The condition that a document has a given key. -/
def hasKey (key : Value) : Condition := .field idField (.eq key)

end Condition

/-- The direction of an order. -/
inductive Direction where
  | ascending
  | descending
  deriving DecidableEq

/-- A direction as a number: one, or minus one from high to low. -/
def Direction.sign : Direction → Int32
  | .ascending => 1
  | .descending => -1

/-- A **filter**: which documents are wanted, and in which order, on which page and with which
fields. -/
structure Filter where
  /-- Which documents. -/
  condition : Condition := .always
  /-- The fields to order by, the first one deciding first. -/
  order : List (String × Direction) := []
  /-- How many documents to leave out. -/
  skip : Option Int64 := none
  /-- How many documents to return; zero means all. -/
  limit : Option Int64 := none
  /-- The fields to include (`true`) or to exclude. -/
  fields : List (String × Bool) := []

/-- The filter that holds of every document. -/
def Filter.all : Filter := {}

end DocStore
