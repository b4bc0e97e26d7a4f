import DocStore.Filter.Condition

/-! # Conditions as values

A condition can be written as a value and read back: an array that names a combinator in front of
its conditions, or a field in front of an operator with its operands. -/

namespace DocStore

namespace FieldOperator

/-- An operator as a list of its name and its operands. -/
def spelling : FieldOperator → List Value
  | .eq value => [.string "eq", value]
  | .neq value => [.string "neq", value]
  | .gt value => [.string "gt", value]
  | .gte value => [.string "gte", value]
  | .lt value => [.string "lt", value]
  | .lte value => [.string "lte", value]
  | .inq values => [.string "inq", .array values]
  | .nin values => [.string "nin", .array values]
  | .between low high => [.string "between", low, high]
  | .exists_ present => [.string "exists", .bool present]
  | .like pattern => [.string "like", .string pattern]
  | .nlike pattern => [.string "nlike", .string pattern]
  | .ilike pattern => [.string "ilike", .string pattern]
  | .nilike pattern => [.string "nilike", .string pattern]
  | .regexp pattern options => [.string "regexp", .string pattern, .string options]
  | .not operator => .string "not" :: spelling operator

/-- The operator of one operand that has a name. -/
def unary? (name : String) (operand : Value) : Option FieldOperator :=
  match name, operand with
  | "eq", value => some (.eq value)
  | "neq", value => some (.neq value)
  | "gt", value => some (.gt value)
  | "gte", value => some (.gte value)
  | "lt", value => some (.lt value)
  | "lte", value => some (.lte value)
  | "inq", .array values => some (.inq values)
  | "nin", .array values => some (.nin values)
  | "exists", .bool present => some (.exists_ present)
  | "like", .string pattern => some (.like pattern)
  | "nlike", .string pattern => some (.nlike pattern)
  | "ilike", .string pattern => some (.ilike pattern)
  | "nilike", .string pattern => some (.nilike pattern)
  | _, _ => none

/-- The operator of two operands that has a name. -/
def binary? (name : String) (first second : Value) : Option FieldOperator :=
  match name, first, second with
  | "between", low, high => some (.between low high)
  | "regexp", .string pattern, .string options => some (.regexp pattern options)
  | _, _, _ => none

/-- The operator that a list of values spells. -/
def ofSpelling? : List Value → Option FieldOperator
  | [] => none
  | .string name :: operands =>
    if name = "not" then (ofSpelling? operands).map .not
    else
      match operands with
      | [operand] => unary? name operand
      | [first, second] => binary? name first second
      | _ => none
  | _ :: _ => none

end FieldOperator

namespace Condition

mutual

/-- A condition as a value. -/
def toValue : Condition → Value
  | .and children => .array [.string "and", .array (toValues children)]
  | .or children => .array [.string "or", .array (toValues children)]
  | .nor children => .array [.string "nor", .array (toValues children)]
  | .field name operator => .array (.string "f" :: .string name :: operator.spelling)
termination_by structural condition => condition

/-- Conditions as values. -/
def toValues : List Condition → List Value
  | [] => []
  | condition :: rest => toValue condition :: toValues rest
termination_by structural conditions => conditions

end

/-- A condition that a name stands for. -/
def constant? : String → Option Condition
  | "all" | "default" => some .always
  | _ => none

/-- The combination of several conditions that has a name. -/
def combination? (name : String) (children : List Condition) : Option Condition :=
  match name with
  | "and" => some (.and children)
  | "or" => some (.or children)
  | "nor" => some (.nor children)
  | _ => none

/-- The combination of two conditions that has a sign. -/
def joined? (sign : String) (first second : Condition) : Option Condition :=
  match sign with
  | "&" => some (first.both second)
  | "|" => some (first.either second)
  | _ => none

/-- The test that a list of values spells: the mark `f`, a field, and an operator. -/
def test? : List Value → Option Condition
  | .string "f" :: .string name :: operator =>
    (FieldOperator.ofSpelling? operator).map (.field name)
  | _ => none

mutual

/-- The condition that a value spells. Besides what `toValue` writes it reads `all` and `default`,
and the signs `&` and `|` in front of two conditions. -/
def ofValue? : Value → Option Condition
  | .array [.string name] => constant? name
  | .array [.string name, .array children] => (ofValues? children).bind (combination? name)
  | .array [.string sign, first, second] =>
    match ofValue? first, ofValue? second with
    | some first, some second => joined? sign first second
    | _, _ => none
  | .array items => test? items
  | _ => none
termination_by structural value => value

/-- The conditions that values spell. -/
def ofValues? : List Value → Option (List Condition)
  | [] => some []
  | value :: rest =>
    match ofValue? value, ofValues? rest with
    | some condition, some conditions => some (condition :: conditions)
    | _, _ => none
termination_by structural values => values

end

end Condition

end DocStore
