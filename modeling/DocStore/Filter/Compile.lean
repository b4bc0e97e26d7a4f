import DocStore.Filter.Condition
import DocStore.Query.Options
import DocStore.Schema.Index

/-! # Compiling filters

A filter in terms of a model becomes a query with options in terms of the store. Every field
reference is resolved against the schema, from left to right, and the first one that names no field
is the error; then the page is checked, then the order, then the projection. -/

namespace DocStore

/-- A **compiled filter**: a query with its options. -/
structure CompiledFilter where
  /-- The query. -/
  query : Document
  /-- The options. -/
  options : QueryOptions

namespace FieldOperator

/-- The operators of a pattern test; options are given only if there are some. -/
def patternOperators (pattern options : String) : Document :=
  if options.isEmpty then [("$regex", .string pattern)]
  else [("$regex", .string pattern), ("$options", .string options)]

/-- The operators that a test stands for. -/
def compile : FieldOperator → Document
  | .eq value => [("$eq", value)]
  | .neq value => [("$ne", value)]
  | .gt value => [("$gt", value)]
  | .gte value => [("$gte", value)]
  | .lt value => [("$lt", value)]
  | .lte value => [("$lte", value)]
  | .inq values => [("$in", .array values)]
  | .nin values => [("$nin", .array values)]
  | .between low high => [("$gte", low), ("$lte", high)]
  | .exists_ present => [("$exists", .bool present)]
  | .like pattern => patternOperators pattern ""
  | .ilike pattern => patternOperators pattern "i"
  | .nlike pattern => [("$not", .document (patternOperators pattern ""))]
  | .nilike pattern => [("$not", .document (patternOperators pattern "i"))]
  | .regexp pattern options => patternOperators pattern options
  | .not operator => [("$not", .document (compile operator))]

end FieldOperator

namespace Condition

/-- A combinator over queries; over none it is the query that every document matches. -/
def combine (combinator : String) (queries : List Document) : Document :=
  if queries.isEmpty then [] else [(combinator, .array (queries.map .document))]

mutual

/-- The query of a condition. -/
def compile (schema : Schema) : Condition → Except Error Document
  | .and children => (compileAll schema children).map (combine "$and")
  | .or children => (compileAll schema children).map (combine "$or")
  | .nor children => (compileAll schema children).map (combine "$nor")
  | .field name operator =>
    (schema.resolve name).map fun info => [(info.storageName, .document operator.compile)]
termination_by structural condition => condition

/-- The queries of several conditions, up to the first error. -/
def compileAll (schema : Schema) : List Condition → Except Error (List Document)
  | [] => .ok []
  | condition :: rest =>
    match compile schema condition with
    | .error error => .error error
    | .ok query => (compileAll schema rest).map (query :: ·)
termination_by structural conditions => conditions

end

theorem compileAll_cons (schema : Schema) (condition : Condition) (rest : List Condition) :
    compileAll schema (condition :: rest)
      = (condition.compile schema).bind fun query =>
        (compileAll schema rest).map (query :: ·) := by
  rw [compileAll]
  cases condition.compile schema <;> rfl

end Condition

namespace Filter

/-- A count that must not be negative. -/
def checkedCount (fault : Int64 → PaginationFault) :
    Option Int64 → Except Error (Option Int)
  | none => .ok none
  | some count =>
    if count.toInt < 0 then .error (.invalidPagination (fault count))
    else .ok (some count.toInt)

/-- The sort specification of an order; a field that is named again keeps its first direction. -/
def compileOrder (schema : Schema) (spec : Document) :
    List (String × Direction) → Except Error Document
  | [] => .ok spec
  | (name, direction) :: rest =>
    match schema.resolve name with
    | .error error => .error error
    | .ok info =>
      compileOrder schema
        (if Entries.contains spec info.storageName then spec
          else Entries.insert spec info.storageName (.int32 direction.sign))
        rest

theorem compileOrder_cons (schema : Schema) (spec : Document) (name : String)
    (direction : Direction) (rest : List (String × Direction)) :
    compileOrder schema spec ((name, direction) :: rest)
      = (schema.resolve name).bind fun info => compileOrder schema
        (if Entries.contains spec info.storageName then spec
          else Entries.insert spec info.storageName (.int32 direction.sign)) rest := by
  rw [compileOrder]
  cases schema.resolve name <;> rfl

/-- The projection of a list of fields, all of which must be included or all excluded. -/
def compileFields (schema : Schema) (included : Bool) (projection : Document) :
    List (String × Bool) → Except Error Document
  | [] => .ok projection
  | (name, flag) :: rest =>
    -- the first field decides the kind, and a mixture is found before the name is resolved
    if flag != included then .error .mixedProjection
    else
      match schema.resolve name with
      | .error error => .error error
      | .ok info =>
        compileFields schema included
          (Entries.insert projection info.storageName (.int32 (if included then 1 else 0))) rest

/-- A field of the kind of a projection is resolved and flagged. -/
theorem compileFields_cons (schema : Schema) (included : Bool) (projection : Document)
    (name : String) (rest : List (String × Bool)) :
    compileFields schema included projection ((name, included) :: rest)
      = (schema.resolve name).bind fun info => compileFields schema included
        (Entries.insert projection info.storageName (.int32 (if included then 1 else 0))) rest := by
  rw [compileFields, bne_self_eq_false, if_neg Bool.false_ne_true]
  cases schema.resolve name <;> rfl

/-- A field of the other kind is no part of a projection. -/
theorem compileFields_cons_of_ne {kind included : Bool} (h : kind ≠ included) (schema : Schema)
    (projection : Document) (name : String) (rest : List (String × Bool)) :
    compileFields schema included projection ((name, kind) :: rest) = .error .mixedProjection := by
  rw [compileFields, if_pos (bne_iff_ne.mpr h)]

/-- The sort specification of a filter, if it names an order. -/
def sortSpec (schema : Schema) (filter : Filter) : Except Error (Option Document) :=
  if filter.order.isEmpty then .ok none
  else (compileOrder schema [] filter.order).map some

/-- The projection of a filter, if it names fields. -/
def projection (schema : Schema) (filter : Filter) : Except Error (Option Document) :=
  match filter.fields with
  | [] => .ok none
  | (_, included) :: _ => (compileFields schema included [] filter.fields).map some

/-- The options of a filter. -/
def compileOptions (schema : Schema) (filter : Filter) : Except Error QueryOptions := do
  let skip ← checkedCount .negativeSkip filter.skip
  let limit ← checkedCount .negativeLimit filter.limit
  let sort ← filter.sortSpec schema
  let projection ← filter.projection schema
  return { sort := sort, skip := skip.map Int.toNat, limit := limit, projection := projection }

/-- **Compilation**: the query and the options of a filter. -/
def compile (schema : Schema) (filter : Filter) : Except Error CompiledFilter := do
  let query ← filter.condition.compile schema
  let options ← filter.compileOptions schema
  return { query := query, options := options }

end Filter

end DocStore
