import DocStore.Value.Basic

/-! # Seeds

An update that finds no document may store a new one. Its **seed** takes over what the query says
by equality: the fields that it gives a value, also inside `$and`. -/

namespace DocStore

namespace Query

/-- The value that a condition on a field fixes by equality. -/
def fixedValue? : Value → Option Value
  | .document fields =>
    if Document.isOperators fields then Entries.get? fields "$eq" else some (.document fields)
  | value => some value

mutual

/-- The fields that a query fixes, written over those found before. -/
def seedFrom (found : Document) : List (String × Value) → Document
  | [] => found
  | (key, condition) :: rest =>
    seedFrom
      (if key = "$and" then seedOperand found condition
        -- what stands inside `$or` and `$nor` fixes nothing
        else if isOperator key then found
        else
          match fixedValue? condition with
          | some value => Entries.insert found key value
          | none => found)
      rest
termination_by structural query => query

/-- The fields that the operand of a conjunction fixes. -/
def seedOperand (found : Document) : Value → Document
  | .array items => seedItems found items
  | _ => found
termination_by structural operand => operand

/-- The fields that the queries of a list fix; what is no query fixes none. -/
def seedItems (found : Document) : List Value → Document
  | [] => found
  | .document query :: rest => seedItems (seedFrom found query) rest
  | _ :: rest => seedItems found rest
termination_by structural queries => queries

end

/-- The seed of a query. -/
def seed (query : Document) : Document := seedFrom [] query

end Query

end DocStore
