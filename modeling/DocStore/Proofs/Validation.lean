import DocStore.Filter.Compile
import DocStore.Proofs.Meaning

/-! # Which filters compile

Everything in a filter that can be wrong is an offence of its own: a reference that is a path or
names no field, a negative count, a field of the other kind in a projection. The offences stand in
the order in which a filter is read, the tests of its condition first (`Filter.offences`), and a
filter compiles if it has none, to nothing but the first of them if it has some
(`Filter.reports_compile`). A filter without an offence is one whose references are fields of the
schema and whose counts and projection make sense (`Filter.offences_eq_nil_iff`). -/

namespace DocStore

open Outcome (Reports)

namespace Schema

/-- Whether a name is the logical name or the storage name of a field. -/
def Lists (schema : Schema) (name : String) : Prop :=
  ∃ field ∈ schema.fields, field.1 = name ∨ field.2.storageName = name

/-- **A reference**: a name without a dot that is the logical name or the storage name of a
field. -/
def IsReference (schema : Schema) (name : String) : Prop :=
  '.' ∉ name.toList ∧ schema.Lists name

instance (schema : Schema) (name : String) : Decidable (schema.Lists name) :=
  inferInstanceAs (Decidable (∃ field ∈ schema.fields, _))

instance (schema : Schema) (name : String) : Decidable (schema.IsReference name) :=
  inferInstanceAs (Decidable (_ ∧ _))

/-- The error of a name that is no reference. A dot is noticed first. -/
def referenceError (name : String) : Error :=
  if '.' ∈ name.toList then .nestedField name else .unknownField name

/-- What is wrong with a name that is to refer to a field. -/
def referenceOffences (schema : Schema) (name : String) : List Error :=
  if schema.IsReference name then [] else [referenceError name]

variable {schema : Schema} {name : String}

theorem referenceOffences_eq_nil_iff :
    schema.referenceOffences name = [] ↔ schema.IsReference name := by
  unfold referenceOffences
  by_cases hreference : schema.IsReference name <;> simp [hreference]

/-- A name is not listed if no field has it as either name. -/
theorem not_lists_iff :
    ¬ schema.Lists name ↔ schema.get? name = none ∧ schema.stored? name = none := by
  unfold Lists get? stored?
  rw [Entries.get?_eq_none_iff, Option.map_eq_none_iff, List.find?_eq_none]
  simp only [Entries.keys, List.mem_map, not_exists, not_and, not_or, beq_iff_eq]
  constructor
  · intro h
    exact ⟨fun field hmem => (h field hmem).1, fun field hmem => (h field hmem).2⟩
  · rintro ⟨hlogical, hstored⟩ field hmem
    exact ⟨hlogical field hmem, hstored field hmem⟩

/-- **Resolution** reports what is wrong with a name. -/
theorem reports_resolve (schema : Schema) (name : String) :
    Reports (schema.resolve name) (schema.referenceOffences name) := by
  unfold resolve referenceOffences referenceError IsReference
  by_cases hdot : '.' ∈ name.toList
  · simp [hdot, Reports]
  · by_cases hlists : schema.Lists name
    · have hfound : ¬ (schema.get? name = none ∧ schema.stored? name = none) :=
        fun hnone => not_lists_iff.mpr hnone hlists
      cases hlogical : schema.get? name with
      | some info => simp [hdot, hlists, Reports]
      | none =>
        cases hstored : schema.stored? name with
        | some info => simp [hdot, hlists, Reports]
        | none => exact absurd ⟨hlogical, hstored⟩ hfound
    · obtain ⟨hlogical, hstored⟩ := not_lists_iff.mp hlists
      simp [hdot, hlists, hlogical, hstored, Reports]

/-- What is wrong with the references of a list, from left to right. -/
def listOffences (schema : Schema) (names : List String) : List Error :=
  names.flatMap schema.referenceOffences

/-- Nothing is wrong with a list of references. -/
theorem listOffences_eq_nil_iff {names : List String} :
    schema.listOffences names = [] ↔ ∀ name ∈ names, schema.IsReference name := by
  simp [listOffences, List.flatMap_eq_nil_iff, referenceOffences_eq_nil_iff]

/-- The first name that is no reference is what is wrong with a list first. -/
theorem head?_listOffences {before after : List String}
    (hbefore : ∀ earlier ∈ before, schema.IsReference earlier) (hname : ¬ schema.IsReference name) :
    (schema.listOffences (before ++ name :: after)).head? = some (referenceError name) := by
  have hnone : schema.listOffences before = [] := listOffences_eq_nil_iff.mpr hbefore
  unfold listOffences at hnone ⊢
  simp [hnone, referenceOffences, hname]

end Schema

/-! ## Offences of the parts of a filter -/

namespace Condition

/-- The references of tests. -/
def references (tests : List (String × FieldOperator)) : List String := tests.map Prod.fst

mutual

/-- **The query of a condition** reports what is wrong with the references of its tests, at any
depth and from left to right. -/
theorem reports_compile (schema : Schema) : ∀ condition : Condition,
    Reports (condition.compile schema) (schema.listOffences (references condition.leaves))
  | .and children => by
    rw [compile]
    exact (reports_compileAll schema children).map _
  | .or children => by
    rw [compile]
    exact (reports_compileAll schema children).map _
  | .nor children => by
    rw [compile]
    exact (reports_compileAll schema children).map _
  | .field name operator => by
    have hresolve := (schema.reports_resolve name).map fun info =>
      ([(info.storageName, .document operator.compile)] : Document)
    simpa [compile, leaves, references, Schema.listOffences] using hresolve
termination_by structural condition => condition

/-- The queries of several conditions report what is wrong with the first before the others. -/
theorem reports_compileAll (schema : Schema) : ∀ conditions : List Condition,
    Reports (compileAll schema conditions)
      (schema.listOffences (references (leavesAll conditions)))
  | [] => rfl
  | condition :: rest => by
    have hoffences : schema.listOffences (references (leavesAll (condition :: rest)))
        = schema.listOffences (references condition.leaves)
          ++ schema.listOffences (references (leavesAll rest)) := by
      simp [leavesAll, references, Schema.listOffences]
    rw [compileAll_cons, hoffences]
    exact (reports_compile schema condition).bind fun query _ =>
      (reports_compileAll schema rest).map _
termination_by structural conditions => conditions

end

end Condition

namespace Filter

/-- What is wrong with a count. -/
def countOffences (fault : Int64 → PaginationFault) : Option Int64 → List Error
  | none => []
  | some count => if count.toInt < 0 then [.invalidPagination (fault count)] else []

/-- What is wrong with a field of a projection: that it is of the other kind, or else its name. -/
def fieldOffences (schema : Schema) (included : Bool) (field : String × Bool) : List Error :=
  if field.2 = included then schema.referenceOffences field.1 else [.mixedProjection]

/-- What is wrong with a projection, of which the first field decides the kind. -/
def projectionOffences (schema : Schema) : List (String × Bool) → List Error
  | [] => []
  | first :: rest => (first :: rest).flatMap (fieldOffences schema first.2)

/-- **The offences of a filter**, in the order in which it is read: in the tests of its condition,
in its page, in its order, and in its projection. -/
def offences (schema : Schema) (filter : Filter) : List Error :=
  schema.listOffences (Condition.references filter.condition.leaves)
    ++ (countOffences .negativeSkip filter.skip
    ++ (countOffences .negativeLimit filter.limit
    ++ (schema.listOffences (filter.order.map Prod.fst)
    ++ projectionOffences schema filter.fields)))

theorem reports_checkedCount (fault : Int64 → PaginationFault) (count : Option Int64) :
    Reports (checkedCount fault count) (countOffences fault count) := by
  cases count with
  | none => rfl
  | some count =>
    unfold checkedCount countOffences
    by_cases hnegative : count.toInt < 0 <;> simp [hnegative, Reports]

/-- The entries of an order report what is wrong with their names. -/
theorem reports_compileOrder (schema : Schema) (spec : Document)
    (order : List (String × Direction)) :
    Reports (compileOrder schema spec order) (schema.listOffences (order.map Prod.fst)) := by
  induction order generalizing spec with
  | nil => rfl
  | cons entry rest ih =>
    obtain ⟨name, direction⟩ := entry
    have hoffences : schema.listOffences (((name, direction) :: rest).map Prod.fst)
        = schema.referenceOffences name ++ schema.listOffences (rest.map Prod.fst) := rfl
    rw [compileOrder_cons, hoffences]
    exact (schema.reports_resolve name).bind fun info _ => ih _

/-- The fields of a projection report what is wrong with them. -/
theorem reports_compileFields (schema : Schema) (included : Bool) (projection : Document)
    (fields : List (String × Bool)) :
    Reports (compileFields schema included projection fields)
      (fields.flatMap (fieldOffences schema included)) := by
  induction fields generalizing projection with
  | nil => rfl
  | cons field rest ih =>
    obtain ⟨name, kind⟩ := field
    by_cases hkind : kind = included
    · subst hkind
      rw [compileFields_cons, List.flatMap_cons, fieldOffences, if_pos rfl]
      exact (schema.reports_resolve name).bind fun info _ => ih _
    · rw [compileFields_cons_of_ne hkind]
      simp [fieldOffences, hkind, Reports]

theorem reports_sortSpec (schema : Schema) (filter : Filter) :
    Reports (filter.sortSpec schema) (schema.listOffences (filter.order.map Prod.fst)) := by
  unfold sortSpec
  by_cases hempty : filter.order = []
  · simp [hempty, Reports, Schema.listOffences]
  · simp only [List.isEmpty_iff, hempty, if_false]
    exact (reports_compileOrder schema [] filter.order).map some

theorem reports_projection (schema : Schema) (filter : Filter) :
    Reports (filter.projection schema) (projectionOffences schema filter.fields) := by
  unfold Filter.projection
  cases hfields : filter.fields with
  | nil => rfl
  | cons first rest => exact (reports_compileFields schema first.2 [] (first :: rest)).map some

/-- **Compilation** reports the offences of a filter. -/
theorem reports_compile (schema : Schema) (filter : Filter) :
    Reports (filter.compile schema) (filter.offences schema) := by
  refine (filter.condition.reports_compile schema).bind fun query _ => ?_
  -- the options are checked only once there is a query
  have hoptions : Reports (filter.compileOptions schema)
      (countOffences .negativeSkip filter.skip
        ++ (countOffences .negativeLimit filter.limit
        ++ (schema.listOffences (filter.order.map Prod.fst)
        ++ projectionOffences schema filter.fields))) := by
    refine (reports_checkedCount _ filter.skip).bind fun skip _ => ?_
    refine (reports_checkedCount _ filter.limit).bind fun limit _ => ?_
    refine (filter.reports_sortSpec schema).bind fun sort _ => ?_
    exact (filter.reports_projection schema).map fun projection =>
      ({ sort := sort, skip := skip.map Int.toNat, limit := limit, projection := projection } :
        QueryOptions)
  exact hoptions.map fun options => ({ query := query, options := options } : CompiledFilter)

/-! ## Filters without an offence -/

/-- **A valid filter**: its references are fields of the schema, its counts are not negative, and
its projection does not mix both kinds. -/
structure IsValid (schema : Schema) (filter : Filter) : Prop where
  /-- The tests of the condition name fields. -/
  tests : ∀ test ∈ filter.condition.leaves, schema.IsReference test.1
  /-- No negative number of documents is skipped. -/
  skip : ∀ count, filter.skip = some count → 0 ≤ count.toInt
  /-- No negative number of documents is asked for. -/
  limit : ∀ count, filter.limit = some count → 0 ≤ count.toInt
  /-- The order names fields. -/
  order : ∀ entry ∈ filter.order, schema.IsReference entry.1
  /-- The projection names fields. -/
  fields : ∀ field ∈ filter.fields, schema.IsReference field.1
  /-- All fields of the projection are included, or all are excluded. -/
  oneKind : ∀ first ∈ filter.fields, ∀ second ∈ filter.fields, first.2 = second.2

theorem countOffences_eq_nil_iff {fault : Int64 → PaginationFault} {count : Option Int64} :
    countOffences fault count = [] ↔ ∀ given, count = some given → 0 ≤ given.toInt := by
  cases count with
  | none => simp [countOffences]
  | some given =>
    unfold countOffences
    by_cases hnegative : given.toInt < 0
    · simp [hnegative]
    · have hnonneg : 0 ≤ given.toInt := by omega
      simp [hnegative, hnonneg]

theorem projectionOffences_eq_nil_iff {schema : Schema} {fields : List (String × Bool)} :
    projectionOffences schema fields = [] ↔
      (∀ field ∈ fields, schema.IsReference field.1) ∧
      ∀ first ∈ fields, ∀ second ∈ fields, first.2 = second.2 := by
  cases fields with
  | nil => simp [projectionOffences]
  | cons first rest =>
    have hfield : ∀ field : String × Bool, fieldOffences schema first.2 field = [] ↔
        field.2 = first.2 ∧ schema.IsReference field.1 := by
      intro field
      unfold fieldOffences
      by_cases hkind : field.2 = first.2 <;> simp [hkind, Schema.referenceOffences_eq_nil_iff]
    rw [projectionOffences, List.flatMap_eq_nil_iff]
    simp only [hfield]
    constructor
    · intro h
      refine ⟨fun field hmem => (h field hmem).2, fun one hone other hother => ?_⟩
      rw [(h one hone).1, (h other hother).1]
    · rintro ⟨hreferences, hkinds⟩ field hmem
      exact ⟨hkinds field hmem first List.mem_cons_self, hreferences field hmem⟩

/-- **A filter has no offence** if and only if it is valid. -/
theorem offences_eq_nil_iff {schema : Schema} {filter : Filter} :
    filter.offences schema = [] ↔ filter.IsValid schema := by
  unfold offences Condition.references
  simp only [List.append_eq_nil_iff, Schema.listOffences_eq_nil_iff, countOffences_eq_nil_iff,
    projectionOffences_eq_nil_iff, List.forall_mem_map]
  constructor
  · rintro ⟨htests, hskip, hlimit, horder, hfields, hkinds⟩
    exact ⟨htests, hskip, hlimit, horder, hfields, hkinds⟩
  · rintro ⟨htests, hskip, hlimit, horder, hfields, hkinds⟩
    exact ⟨htests, hskip, hlimit, horder, hfields, hkinds⟩

/-- **A filter compiles if and only if it is valid**, and otherwise the error is that of its first
offence: in the tests of the condition from left to right at any depth, then in the number of
documents to skip, in the number asked for, in the order and in the projection, where a field of the
other kind is noticed before its name. So a condition with a test whose name is no reference never
compiles, under whatever combinations the test stands: the error is that of the first such test, of
the condition as of the filter. -/
theorem compile_reports_first_offence (schema : Schema) (filter : Filter) :
    ((∃ compiled, filter.compile schema = .ok compiled) ↔ filter.IsValid schema) ∧
    (∀ error, filter.compile schema = .error error
      ↔ (filter.offences schema).head? = some error) ∧
    ∀ (before after : List (String × FieldOperator)) (test : String × FieldOperator),
      filter.condition.leaves = before ++ test :: after →
      (∀ earlier ∈ before, schema.IsReference earlier.1) → ¬ schema.IsReference test.1 →
      filter.condition.compile schema = .error (Schema.referenceError test.1) ∧
      filter.compile schema = .error (Schema.referenceError test.1) := by
  have hreports := filter.reports_compile schema
  refine ⟨hreports.exists_ok_iff.trans offences_eq_nil_iff, fun error => hreports.eq_error_iff, ?_⟩
  intro before after test hleaves hbefore htest
  -- the condition is read first, so its first offence is that of the filter
  have hfirst : (schema.listOffences (Condition.references filter.condition.leaves)).head?
      = some (Schema.referenceError test.1) := by
    rw [hleaves, Condition.references, List.map_append, List.map_cons]
    exact Schema.head?_listOffences (by simpa using hbefore) htest
  refine ⟨(filter.condition.reports_compile schema).eq_error_iff.mpr hfirst,
    hreports.eq_error_iff.mpr ?_⟩
  rw [offences, List.head?_append, hfirst]
  rfl

/-- Notes that are asked for with a path and an unknown name deep in the condition, after a good
one, and a page that begins before the first note: the path is the error. The same notes compile
where the names are good and the fields of one kind; with fields of two kinds they do not. -/
theorem compile_reports_first_offence_notes :
    ∃ (schema : Schema) (faulty valid mixed : Filter),
      faulty.condition = .or [.field "title" (.eq (.string "a")), .and [
        .nor [.field "config.status" (.exists_ true)], .field "owner" (.exists_ true)]] ∧
      faulty.skip = some (-1) ∧
      ('.' ∈ "config.status".toList ∧ ¬ schema.IsReference "config.status") ∧
      faulty.compile schema = .error (.nestedField "config.status") ∧
      valid.condition = .or [.field "title" (.eq (.string "a")), .nor [.field "h" (.gt .null)]] ∧
      valid.IsValid schema ∧ (∃ compiled, valid.compile schema = .ok compiled) ∧
      mixed.fields = [("title", true), ("owner", false)] ∧
      mixed.compile schema = .error .mixedProjection := by
  let schema : Schema := ⟨"Note", [("id", ⟨"_id", .objectId⟩), ("title", ⟨"h", .string⟩)]⟩
  let faulty : Filter := {
    condition := .or [.field "title" (.eq (.string "a")), .and [
      .nor [.field "config.status" (.exists_ true)], .field "owner" (.exists_ true)]]
    skip := some (-1) }
  let valid : Filter := {
    condition := .or [.field "title" (.eq (.string "a")), .nor [.field "h" (.gt .null)]]
    order := [("h", .descending)], limit := some 3, fields := [("id", false)] }
  let mixed : Filter := { fields := [("title", true), ("owner", false)] }
  obtain ⟨-, -, hdeep⟩ := compile_reports_first_offence schema faulty
  obtain ⟨hvalid, -, -⟩ := compile_reports_first_offence schema valid
  obtain ⟨-, hmixed, -⟩ := compile_reports_first_offence schema mixed
  have hpath : ¬ schema.IsReference "config.status" := by decide
  have hfirst : faulty.compile schema = .error (Schema.referenceError "config.status") :=
    (hdeep [("title", .eq (.string "a"))] [("owner", .exists_ true)]
      ("config.status", .exists_ true) rfl (by decide) hpath).2
  have hnone : valid.offences schema = [] := by decide
  have hkinds : (mixed.offences schema).head? = some .mixedProjection := rfl
  have hmakes : valid.IsValid schema := offences_eq_nil_iff.mp hnone
  exact ⟨schema, faulty, valid, mixed, rfl, rfl, ⟨by decide, hpath⟩, hfirst, rfl, hmakes,
    hvalid.mpr hmakes, rfl, (hmixed _).mpr hkinds⟩

end Filter

end DocStore
