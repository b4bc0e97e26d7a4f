import DocStore.Query.Runtime
import DocStore.Query.TypeName
import DocStore.Query.Verdict
import DocStore.Value.Order

/-! # Tests of one field

What a single operator says about what a document holds in a field. A field that is missing equals
null and compares with nothing; an array stands for its items where the operand is no array
itself. -/

namespace DocStore

namespace FieldTest

variable [Runtime]

/-- Whether two values are the same to a query: numbers by their numeric value, all else by type
and content. -/
def same (left right : Value) : Bool :=
  match left.number?, right.number? with
  | some x, some y => x.equals y
  | _, _ => left.equal right

/-- Whether a field holds `expected`. -/
def equals : Option Value → Value → Bool
  | none, expected => expected.isNull
  | some (.array items), .array expected => same (.array items) (.array expected)
  | some (.array items), expected => items.any fun item => same item expected
  | some stored, expected => same stored expected

/-- How a field compares with an operand: an array by its first item in the operand's bracket. -/
def compare? : Option Value → Value → Option Ordering
  | none, _ => none
  | some (.array items), operand => items.findSome? fun item => item.compareInBracket operand
  | some stored, operand => stored.compareInBracket operand

/-- The type that an operand names. -/
def typeName (operand : Value) : Except Fault TypeName :=
  let ofCode (code : Int64) : Except Fault TypeName :=
    match TypeName.ofCode? code.toInt with
    | some name => .ok name
    | none => .error (.unknownTypeCode code)
  match operand with
  | .string name =>
    match TypeName.ofAlias? name with
    | some type => .ok type
    | none => .error (.unknownTypeAlias name)
  | .int32 code => ofCode code.toInt64
  | .int64 code => ofCode code
  | .double code => ofCode code.toInt64
  | _ => .error .typeNameExpected

/-- Whether a field holds a value of the type that the operand names. A missing field holds none,
whatever the operand is. -/
def hasType (stored : Option Value) (operand : Value) : Verdict :=
  match stored with
  | none => .ok false
  | some value =>
    match typeName operand with
    | .ok name => .ok (name.holds value)
    | .error fault => .error fault

/-- The texts that match the pattern of an operand; `options` apply to a pattern given as a
string. -/
def patternOf (operand : Value) (options : String) : Except Fault (String → Bool) :=
  let compiled (text options : String) : Except Fault (String → Bool) :=
    match Runtime.compile? (.ofOptions options) text with
    | some isMatch => .ok isMatch
    | none => .error .malformedPattern
  match operand with
  | .string text => compiled text options
  | .regex text own => compiled text own
  | _ => .error .patternExpected

/-- Whether a value is a string that matches. -/
def isMatchedBy (isMatch : String → Bool) : Value → Bool
  | .string text => isMatch text
  | _ => false

/-- Whether a field holds a string, or an array with a string, that the pattern matches. -/
def likePattern (stored : Option Value) (operand : Value) (options : String) : Verdict :=
  match patternOf operand options with
  | .error fault => .error fault
  | .ok isMatch =>
    match stored with
    | some (.array items) => .ok (items.any (isMatchedBy isMatch))
    | some value => .ok (isMatchedBy isMatch value)
    | none => .ok false

/-- The items of an operand that has to be an array. -/
def members (operator : String) : Value → Except Fault (List Value)
  | .array items => .ok items
  | _ => .error (.arrayExpected operator)

/-- The operators on a field other than negation. -/
inductive Operator where
  | eq
  | ne
  | gt
  | gte
  | lt
  | lte
  | among
  | notAmong
  | isPresent
  | hasType
  | likePattern
  | patternOptions

/-- The operator of a key. -/
def Operator.ofKey? : String → Option Operator
  | "$eq" => some .eq
  | "$ne" => some .ne
  | "$gt" => some .gt
  | "$gte" => some .gte
  | "$lt" => some .lt
  | "$lte" => some .lte
  | "$in" => some .among
  | "$nin" => some .notAmong
  | "$exists" => some .isPresent
  | "$type" => some .hasType
  | "$regex" => some .likePattern
  | "$options" => some .patternOptions
  | _ => none

/-- Whether a comparison came out in one of the ways that `accept` allows. -/
def comparesAs (accept : Ordering → Bool) (stored : Option Value) (operand : Value) : Bool :=
  (compare? stored operand).any accept

/-- What an operator says about a field. `key` is its spelling and `options` the pattern options
given beside it. -/
def Operator.test (operator : Operator) (key options : String) (stored : Option Value)
    (operand : Value) : Verdict :=
  match operator with
  | .eq => .ok (equals stored operand)
  | .ne => .ok (!equals stored operand)
  | .gt => .ok (comparesAs Ordering.isGT stored operand)
  | .gte => .ok (comparesAs Ordering.isGE stored operand)
  | .lt => .ok (comparesAs Ordering.isLT stored operand)
  | .lte => .ok (comparesAs Ordering.isLE stored operand)
  | .among => (members key operand).map fun items => items.any fun item => equals stored item
  | .notAmong => (members key operand).map fun items => !items.any fun item => equals stored item
  | .isPresent => .ok (stored.isSome == operand.truthy)
  | .hasType => FieldTest.hasType stored operand
  | .likePattern => FieldTest.likePattern stored operand options
  | .patternOptions => .ok true

/-- What a key with its operand says about a field, negation aside. -/
def testKey (key options : String) (stored : Option Value) (operand : Value) : Verdict :=
  match Operator.ofKey? key with
  | some operator => operator.test key options stored operand
  | none => .error (.unknownQueryOperator key)

/-- The pattern options given among the operators, if they are a string. -/
def optionsAmong (operators : Document) : String :=
  match Entries.get? operators "$options" with
  | some (.string options) => options
  | _ => ""

mutual

/-- Whether a field meets a condition: a document of operators holds if all of them do, any other
value if the field equals it. -/
def holds (stored : Option Value) : Value → Verdict
  | .document fields =>
    if Document.isOperators fields then allHold stored (optionsAmong fields) fields
    else .ok (equals stored (.document fields))
  | expected => .ok (equals stored expected)
termination_by structural condition => condition

/-- Whether a field meets all operators, read from left to right. -/
def allHold (stored : Option Value) (options : String) : List (String × Value) → Verdict
  | [] => .ok true
  | (key, operand) :: rest =>
    Verdict.both
      -- the operand of a negation is a condition, not a value to compare with
      (if key = "$not" then (holds stored operand).negate
        else testKey key options stored operand)
      (allHold stored options rest)
termination_by structural operators => operators

end

end FieldTest

end DocStore
