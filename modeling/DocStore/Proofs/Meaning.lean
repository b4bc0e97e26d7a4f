import DocStore.Filter.Compile
import DocStore.Proofs.Entries
import DocStore.Proofs.Outcome
import DocStore.Query.Match
import Mathlib.Data.List.Basic

/-! # The meaning of conditions

A condition has a direct meaning: a test is applied to what a document holds in the field that the
condition names, and combinations are read as conjunction, disjunction and joint denial, with a
combination of no conditions holding of every document. Compilation keeps that meaning: the query of
a condition whose fields and patterns make sense is never at fault, and it matches the documents of
which the condition holds. The proof goes along the condition, with one lemma for the operators of a
test and one for the operand of a combinator. -/

namespace DocStore

/-! ## What a condition is made of -/

/-- The patterns of a test, with their options. -/
def FieldOperator.patterns : FieldOperator → List (String × String)
  | .like pattern | .nlike pattern => [(pattern, "")]
  | .ilike pattern | .nilike pattern => [(pattern, "i")]
  | .regexp pattern options => [(pattern, options)]
  | .not operator => patterns operator
  | _ => []

/-- Whether no storage name of a schema looks like an operator. -/
def Schema.HasPlainNames (schema : Schema) : Prop :=
  ∀ entry ∈ schema.fields, isOperator entry.2.storageName = false

/-- What a reference resolves to is a field of the schema. -/
theorem Schema.mem_of_resolve {schema : Schema} {name : String} {info : FieldInfo}
    (h : schema.resolve name = .ok info) : ∃ key, (key, info) ∈ schema.fields := by
  rw [resolve] at h
  split at h
  · cases h
  · split at h
    · rename_i found hget
      cases h
      exact ⟨name, Entries.mem_of_get? hget⟩
    · split at h
      · rename_i found hstored
        cases h
        obtain ⟨⟨key, info⟩, hfind, rfl⟩ := Option.map_eq_some_iff.mp hstored
        exact ⟨key, List.mem_of_find?_eq_some hfind⟩
      · cases h

namespace Condition

mutual

/-- The tests of a condition, from left to right. -/
def leaves : Condition → List (String × FieldOperator)
  | .and children | .or children | .nor children => leavesAll children
  | .field name operator => [(name, operator)]
termination_by structural condition => condition

/-- The tests of several conditions. -/
def leavesAll : List Condition → List (String × FieldOperator)
  | [] => []
  | condition :: rest => leaves condition ++ leavesAll rest
termination_by structural conditions => conditions

end

mutual

/-- The fields of a condition that compiles are fields of the schema. -/
theorem resolves_of_compile {schema : Schema} :
    ∀ (condition : Condition) {query : Document}, condition.compile schema = .ok query →
      ∀ test ∈ condition.leaves, ∃ info, schema.resolve test.1 = .ok info
  | .and children, query, h | .or children, query, h | .nor children, query, h => by
    rw [compile] at h
    obtain ⟨queries, hqueries, -⟩ := Outcome.map_eq_ok_iff.mp h
    exact resolves_of_compileAll children hqueries
  | .field name operator, query, h => by
    rw [compile] at h
    obtain ⟨info, hinfo, -⟩ := Outcome.map_eq_ok_iff.mp h
    intro test hmem
    rw [List.mem_singleton.mp hmem]
    exact ⟨info, hinfo⟩
termination_by structural condition => condition

/-- The fields of conditions that compile are fields of the schema. -/
theorem resolves_of_compileAll {schema : Schema} :
    ∀ (conditions : List Condition) {queries : List Document},
      compileAll schema conditions = .ok queries →
      ∀ test ∈ leavesAll conditions, ∃ info, schema.resolve test.1 = .ok info
  | [], queries, _ => fun _ hmem => absurd hmem List.not_mem_nil
  | condition :: rest, queries, h => by
    rw [compileAll_cons] at h
    obtain ⟨query, hfirst, hrest⟩ := Outcome.bind_eq_ok_iff.mp h
    obtain ⟨later, hlater, -⟩ := Outcome.map_eq_ok_iff.mp hrest
    intro test hmem
    rcases List.mem_append.mp hmem with hleft | hright
    · exact resolves_of_compile condition hfirst test hleft
    · exact resolves_of_compileAll rest hlater test hright
termination_by structural conditions => conditions

end

/-- The tests of both of two conditions are tests of one of them. -/
theorem mem_leaves_both {first second : Condition} {test : String × FieldOperator}
    (h : test ∈ (first.both second).leaves) : test ∈ first.leaves ∨ test ∈ second.leaves := by
  rw [both] at h
  split at h
  · exact Or.inr h
  · split at h
    · exact Or.inl h
    · rw [leaves, leavesAll, leavesAll, leavesAll, List.append_nil] at h
      exact List.mem_append.mp h

/-- The tests of one of two conditions are tests of one of them. -/
theorem mem_leaves_either {first second : Condition} {test : String × FieldOperator}
    (h : test ∈ (first.either second).leaves) : test ∈ first.leaves ∨ test ∈ second.leaves := by
  rw [either, leaves, leavesAll, leavesAll, leavesAll, List.append_nil] at h
  exact List.mem_append.mp h

/-- A field name that does not look like an operator is no combinator. -/
theorem ofKey?_of_plain {key : String} (h : isOperator key = false) :
    Query.Combinator.ofKey? key = none := by
  unfold Query.Combinator.ofKey?
  split <;> first | rfl | (exact absurd h (by decide))

end Condition

/-- A conjunction with what holds. -/
theorem FieldTest.both_true_right (verdict : Verdict) :
    Verdict.both verdict (.ok true) = verdict := by
  match verdict with
  | .ok true => rfl
  | .ok false => rfl
  | .error _ => rfl

section

variable [Runtime]

/-! ## Direct meaning -/

/-- Whether a pattern matches a text. A pattern that is not well formed matches none. -/
def textMatches (pattern options text : String) : Bool :=
  (Runtime.compile? (.ofOptions options) pattern).any fun isMatch => isMatch text

/-- Whether a pattern matches a value: only strings are matched. -/
def valueMatches (pattern options : String) : Value → Bool
  | .string text => textMatches pattern options text
  | _ => false

/-- Whether a pattern matches what a field holds: a string, or one of the strings in an array. -/
def storedMatches (pattern options : String) : Option Value → Bool
  | some (.array items) => items.any (valueMatches pattern options)
  | some value => valueMatches pattern options value
  | none => false

namespace FieldOperator

/-- **The meaning of a test** of what a field holds. -/
def meaning (stored : Option Value) : FieldOperator → Bool
  | .eq value => FieldTest.equals stored value
  | .neq value => !FieldTest.equals stored value
  | .gt value => FieldTest.comparesAs Ordering.isGT stored value
  | .gte value => FieldTest.comparesAs Ordering.isGE stored value
  | .lt value => FieldTest.comparesAs Ordering.isLT stored value
  | .lte value => FieldTest.comparesAs Ordering.isLE stored value
  | .inq values => values.any fun value => FieldTest.equals stored value
  | .nin values => !values.any fun value => FieldTest.equals stored value
  | .between low high =>
    FieldTest.comparesAs Ordering.isGE stored low && FieldTest.comparesAs Ordering.isLE stored high
  | .exists_ present => stored.isSome == present
  | .like pattern => storedMatches pattern "" stored
  | .nlike pattern => !storedMatches pattern "" stored
  | .ilike pattern => storedMatches pattern "i" stored
  | .nilike pattern => !storedMatches pattern "i" stored
  | .regexp pattern options => storedMatches pattern options stored
  | .not operator => !meaning stored operator

/-- Whether all patterns of a test are well formed. -/
def PatternsParse (operator : FieldOperator) : Prop :=
  ∀ entry ∈ operator.patterns, (Runtime.compile? (.ofOptions entry.2) entry.1).isSome = true

end FieldOperator

namespace Condition

mutual

/-- **The meaning of a condition** for a document. -/
def meaning (schema : Schema) (doc : Document) : Condition → Bool
  | .and children => allMean schema doc children
  | .or children => children.isEmpty || anyMeans schema doc children
  | .nor children => !anyMeans schema doc children
  | .field name operator =>
    match schema.resolve name with
    | .ok info => operator.meaning (Entries.get? doc info.storageName)
    | .error _ => false
termination_by structural condition => condition

/-- Whether all of several conditions hold. -/
def allMean (schema : Schema) (doc : Document) : List Condition → Bool
  | [] => true
  | condition :: rest => meaning schema doc condition && allMean schema doc rest
termination_by structural conditions => conditions

/-- Whether one of several conditions holds. -/
def anyMeans (schema : Schema) (doc : Document) : List Condition → Bool
  | [] => false
  | condition :: rest => meaning schema doc condition || anyMeans schema doc rest
termination_by structural conditions => conditions

end

/-- Whether the tests of a condition make sense: their fields are fields of the schema, and their
patterns are well formed. -/
def AllMakeSense (schema : Schema) (tests : List (String × FieldOperator)) : Prop :=
  ∀ test ∈ tests, (∃ info, schema.resolve test.1 = .ok info) ∧ test.2.PatternsParse

/-- Whether a condition **makes sense** for a schema. -/
def MakesSense (schema : Schema) (condition : Condition) : Prop :=
  AllMakeSense schema condition.leaves

end Condition

/-! ## Tests -/

namespace FieldTest

/-- One operator other than negation. -/
theorem holds_single {key : String} (hkey : isOperator key = true) (hnot : key ≠ "$not")
    (stored : Option Value) (operand : Value) :
    holds stored (.document [(key, operand)])
      = testKey key (optionsAmong [(key, operand)]) stored operand := by
  rw [holds, Document.isOperators, if_pos hkey, allHold, allHold, if_neg hnot, both_true_right]

/-- The negation of a condition. -/
theorem holds_not (stored : Option Value) (operand : Value) :
    holds stored (.document [("$not", operand)]) = (holds stored operand).negate := by
  rw [holds, if_pos (by rfl), allHold, allHold, if_pos rfl, both_true_right]

/-- A pattern that is well formed is tested on what is stored. -/
theorem likePattern_of_compile {pattern options : String}
    (h : (Runtime.compile? (.ofOptions options) pattern).isSome = true) (stored : Option Value) :
    likePattern stored (.string pattern) options = .ok (storedMatches pattern options stored) := by
  obtain ⟨isMatch, hcompiled⟩ := Option.isSome_iff_exists.mp h
  have hvalue : isMatchedBy isMatch = valueMatches pattern options := by
    funext value
    cases value with
    | string text =>
      rw [valueMatches, textMatches, hcompiled]
      rfl
    | _ => rfl
  have hof : patternOf (.string pattern) options = .ok isMatch := by
    rw [patternOf]
    dsimp only
    rw [hcompiled]
  rw [likePattern, hof]
  dsimp only
  rw [hvalue]
  cases stored with
  | none => rfl
  | some value => cases value <;> rfl

/-- The operators of a pattern test. -/
theorem holds_patternOperators {pattern options : String}
    (h : (Runtime.compile? (.ofOptions options) pattern).isSome = true) (stored : Option Value) :
    holds stored (.document (FieldOperator.patternOperators pattern options))
      = .ok (storedMatches pattern options stored) := by
  rw [FieldOperator.patternOperators]
  by_cases hempty : options.isEmpty = true
  · rw [String.isEmpty_iff] at hempty
    subst hempty
    rw [if_pos (by rfl), holds_single (by rfl) (by decide)]
    exact likePattern_of_compile h stored
  · -- the options are an operator of their own that always holds
    rw [if_neg hempty, holds, if_pos (by rfl), allHold, if_neg (by decide), allHold,
      if_neg (by decide), allHold]
    have hregex : testKey "$regex"
        (optionsAmong [("$regex", .string pattern), ("$options", .string options)]) stored
        (.string pattern) = .ok (storedMatches pattern options stored) :=
      likePattern_of_compile h stored
    rw [hregex]
    cases storedMatches pattern options stored <;> rfl

end FieldTest

/-- **The operators of a test have its meaning.** -/
theorem FieldOperator.holds_compile {operator : FieldOperator} (h : operator.PatternsParse)
    (stored : Option Value) :
    FieldTest.holds stored (.document operator.compile) = .ok (operator.meaning stored) := by
  induction operator with
  | like pattern =>
    exact FieldTest.holds_patternOperators (h (pattern, "") List.mem_cons_self) stored
  | ilike pattern =>
    exact FieldTest.holds_patternOperators (h (pattern, "i") List.mem_cons_self) stored
  | regexp pattern options =>
    exact FieldTest.holds_patternOperators (h (pattern, options) List.mem_cons_self) stored
  | nlike pattern =>
    rw [compile, FieldTest.holds_not,
      FieldTest.holds_patternOperators (h (pattern, "") List.mem_cons_self) stored]
    rfl
  | nilike pattern =>
    rw [compile, FieldTest.holds_not,
      FieldTest.holds_patternOperators (h (pattern, "i") List.mem_cons_self) stored]
    rfl
  | not operator ih =>
    rw [compile, FieldTest.holds_not, ih h]
    rfl
  | between low high =>
    have hlow : ∀ options, FieldTest.testKey "$gte" options stored low
        = .ok (FieldTest.comparesAs Ordering.isGE stored low) := fun _ => rfl
    have hhigh : ∀ options, FieldTest.testKey "$lte" options stored high
        = .ok (FieldTest.comparesAs Ordering.isLE stored high) := fun _ => rfl
    rw [compile, FieldTest.holds, if_pos (by rfl), FieldTest.allHold, if_neg (by decide), hlow,
      FieldTest.allHold, if_neg (by decide), hhigh, FieldTest.allHold, FieldTest.both_true_right,
      meaning]
    cases FieldTest.comparesAs Ordering.isGE stored low <;> rfl
  | _ =>
    rw [compile, FieldTest.holds_single (by rfl) (by decide)]
    rfl

/-! ## Conditions -/

namespace Condition

theorem AllMakeSense.append {schema : Schema} {first second : List (String × FieldOperator)}
    (h : AllMakeSense schema (first ++ second)) :
    AllMakeSense schema first ∧ AllMakeSense schema second :=
  ⟨fun test hmem => h test (List.mem_append_left _ hmem),
    fun test hmem => h test (List.mem_append_right _ hmem)⟩

/-- A query of one field. -/
theorem holds_field {key : String} (h : isOperator key = false) (doc : Document)
    (condition : Value) :
    Query.holds doc [(key, condition)] = FieldTest.holds (Entries.get? doc key) condition := by
  rw [Query.holds, ofKey?_of_plain h]
  dsimp only
  rw [if_neg (by rw [h]; exact Bool.false_ne_true), Query.holds, FieldTest.both_true_right]

/-- What the combinator of queries says about a document. -/
def combinedVerdict (doc : Document) (combinator : Query.Combinator) (queries : List Value) :
    Verdict :=
  match combinator with
  | .all => Query.allHold doc queries
  | .any => Query.anyHold doc queries
  | .none => (Query.anyHold doc queries).negate

/-- A combination of queries, of which there is at least one. -/
theorem holds_combine (combinator : Query.Combinator) {queries : List Document}
    (h : queries ≠ []) (doc : Document) :
    Query.holds doc (combine combinator.key queries)
      = combinedVerdict doc combinator (queries.map .document) := by
  have hall : (queries.map Value.document).all Query.isDocument = true := by
    rw [List.all_map, List.all_eq_true]
    intro query _
    rfl
  have hkey : Query.Combinator.ofKey? combinator.key = some combinator := by
    cases combinator <;> rfl
  rw [combine, if_neg (by rwa [List.isEmpty_iff]), Query.holds, hkey, Query.holds,
    FieldTest.both_true_right]
  dsimp only
  cases combinator <;> rw [Query.combined, if_pos hall] <;> rfl

/-- What a combination of conditions means, by its combinator. -/
def combinedMeaning (schema : Schema) (doc : Document) (combinator : Query.Combinator)
    (children : List Condition) : Bool :=
  match combinator with
  | .all => allMean schema doc children
  | .any => children.isEmpty || anyMeans schema doc children
  | .none => !anyMeans schema doc children

/-- A combination of queries means what the combination of their conditions does. -/
theorem holds_combine_of_children {schema : Schema} {children : List Condition}
    {queries : List Document} (hlength : queries.length = children.length)
    (hall : ∀ doc, Query.allHold doc (queries.map .document) = .ok (allMean schema doc children))
    (hany : ∀ doc, Query.anyHold doc (queries.map .document) = .ok (anyMeans schema doc children))
    (combinator : Query.Combinator) (doc : Document) :
    Query.holds doc (combine combinator.key queries)
      = .ok (combinedMeaning schema doc combinator children) := by
  cases children with
  | nil =>
    -- no conditions make the empty query, which leaves the combinator out
    rw [List.eq_nil_of_length_eq_zero hlength]
    cases combinator <;> rfl
  | cons first rest =>
    rw [holds_combine combinator (List.ne_nil_of_length_eq_add_one hlength)]
    cases combinator with
    | all => exact hall doc
    | any => exact hany doc
    | none =>
      rw [combinedVerdict, hany]
      rfl

mutual

/-- **A condition that makes sense compiles to a query with its meaning.** -/
theorem exists_query {schema : Schema} (hnames : schema.HasPlainNames) :
    ∀ condition : Condition, condition.MakesSense schema →
      ∃ query, condition.compile schema = .ok query ∧
        ∀ doc, Query.holds doc query = .ok (condition.meaning schema doc)
  | .and children, h => by
    obtain ⟨queries, hcompile, hlength, hall, hany⟩ := exists_queries hnames children h
    exact ⟨combine "$and" queries, by rw [compile, hcompile]; rfl,
      holds_combine_of_children hlength hall hany .all⟩
  | .or children, h => by
    obtain ⟨queries, hcompile, hlength, hall, hany⟩ := exists_queries hnames children h
    exact ⟨combine "$or" queries, by rw [compile, hcompile]; rfl,
      holds_combine_of_children hlength hall hany .any⟩
  | .nor children, h => by
    obtain ⟨queries, hcompile, hlength, hall, hany⟩ := exists_queries hnames children h
    exact ⟨combine "$nor" queries, by rw [compile, hcompile]; rfl,
      holds_combine_of_children hlength hall hany .none⟩
  | .field name operator, h => by
    obtain ⟨⟨info, hinfo⟩, hpatterns⟩ := h (name, operator) List.mem_cons_self
    obtain ⟨key, hmem⟩ := Schema.mem_of_resolve hinfo
    refine ⟨[(info.storageName, .document operator.compile)], by rw [compile, hinfo]; rfl,
      fun doc => ?_⟩
    rw [holds_field (hnames _ hmem), FieldOperator.holds_compile hpatterns, meaning, hinfo]
termination_by structural condition => condition

/-- Conditions that make sense compile to queries with their meanings. -/
theorem exists_queries {schema : Schema} (hnames : schema.HasPlainNames) :
    ∀ conditions : List Condition, AllMakeSense schema (leavesAll conditions) →
      ∃ queries, compileAll schema conditions = .ok queries ∧
        queries.length = conditions.length ∧
        (∀ doc, Query.allHold doc (queries.map .document)
          = .ok (allMean schema doc conditions)) ∧
        ∀ doc, Query.anyHold doc (queries.map .document)
          = .ok (anyMeans schema doc conditions)
  | [], _ => ⟨[], rfl, rfl, fun _ => rfl, fun _ => rfl⟩
  | condition :: rest, h => by
    obtain ⟨hfirst, hrest⟩ := AllMakeSense.append h
    obtain ⟨query, hcompile, hholds⟩ := exists_query hnames condition hfirst
    obtain ⟨queries, hcompileAll, hlength, hall, hany⟩ := exists_queries hnames rest hrest
    refine ⟨query :: queries, ?_, by rw [List.length_cons, hlength, List.length_cons], ?_, ?_⟩
    · rw [compileAll_cons, hcompile, hcompileAll]
      rfl
    · intro doc
      rw [List.map_cons, Query.allHold, hholds, hall, allMean]
      cases meaning schema doc condition <;> rfl
    · intro doc
      rw [List.map_cons, Query.anyHold, hholds, hany, anyMeans]
      cases meaning schema doc condition <;> rfl
termination_by structural conditions => conditions

end

/-- A condition that compiles makes sense if its patterns are well formed. -/
theorem makesSense_of_compile {schema : Schema} {condition : Condition} {query : Document}
    (h : condition.compile schema = .ok query)
    (hpatterns : ∀ test ∈ condition.leaves, test.2.PatternsParse) :
    condition.MakesSense schema :=
  fun test hmem => ⟨resolves_of_compile condition h test hmem, hpatterns test hmem⟩

/-! ## Two conditions -/

/-- A combination of no conditions holds of every document. -/
theorem meaning_of_isEmpty {condition : Condition} (h : condition.isEmpty = true)
    (schema : Schema) (doc : Document) : condition.meaning schema doc = true := by
  cases condition with
  | field name operator => cases h
  | and children =>
    rw [isEmpty, List.isEmpty_iff] at h
    rw [h]
    rfl
  | or children =>
    rw [isEmpty, List.isEmpty_iff] at h
    rw [h]
    rfl
  | nor children =>
    rw [isEmpty, List.isEmpty_iff] at h
    rw [h]
    rfl

/-- Both of two conditions is their conjunction, also if one of them was left out. -/
theorem meaning_both (schema : Schema) (doc : Document) (first second : Condition) :
    (both first second).meaning schema doc
      = (first.meaning schema doc && second.meaning schema doc) := by
  rw [both]
  split
  · rename_i hfirst
    rw [meaning_of_isEmpty hfirst, Bool.true_and]
  · split
    · rename_i hsecond
      rw [meaning_of_isEmpty hsecond, Bool.and_true]
    · rw [meaning, allMean, allMean, allMean, Bool.and_true]

/-- One of two conditions is their disjunction. -/
theorem meaning_either (schema : Schema) (doc : Document) (first second : Condition) :
    (either first second).meaning schema doc
      = (first.meaning schema doc || second.meaning schema doc) := by
  rw [either, meaning, anyMeans, anyMeans, anyMeans, Bool.or_false]
  rfl

/-- Both of two conditions make sense together. -/
theorem MakesSense.both {schema : Schema} {first second : Condition}
    (hfirst : first.MakesSense schema) (hsecond : second.MakesSense schema) :
    (first.both second).MakesSense schema :=
  fun test hmem => (mem_leaves_both hmem).elim (hfirst test) (hsecond test)

/-- One of two conditions makes sense if both do. -/
theorem MakesSense.either {schema : Schema} {first second : Condition}
    (hfirst : first.MakesSense schema) (hsecond : second.MakesSense schema) :
    (first.either second).MakesSense schema :=
  fun test hmem => (mem_leaves_either hmem).elim (hfirst test) (hsecond test)

/-- **Compilation preserves meaning.** If no storage name looks like an operator, then a condition
that makes sense compiles to a query that is at fault on no document and matches those of which the
condition holds; both of two conditions compile to their conjunction, and one of them to their
disjunction. -/
theorem compile_preserves_meaning {schema : Schema} (hnames : schema.HasPlainNames)
    {first second : Condition} (hfirst : first.MakesSense schema)
    (hsecond : second.MakesSense schema) :
    (∃ query, first.compile schema = .ok query ∧
      ∀ doc, Query.holds doc query = .ok (first.meaning schema doc)) ∧
    (∃ query, (first.both second).compile schema = .ok query ∧
      ∀ doc, Query.holds doc query
        = .ok (first.meaning schema doc && second.meaning schema doc)) ∧
    (∃ query, (first.either second).compile schema = .ok query ∧
      ∀ doc, Query.holds doc query
        = .ok (first.meaning schema doc || second.meaning schema doc)) := by
  refine ⟨exists_query hnames first hfirst, ?_, ?_⟩
  · obtain ⟨query, hcompile, hholds⟩ :=
      exists_query hnames (first.both second) (hfirst.both hsecond)
    refine ⟨query, hcompile, fun doc => ?_⟩
    rw [hholds, meaning_both]
  · obtain ⟨query, hcompile, hholds⟩ :=
      exists_query hnames (first.either second) (hfirst.either hsecond)
    refine ⟨query, hcompile, fun doc => ?_⟩
    rw [hholds, meaning_either]

end Condition

end

/-- A note whose title is not to match a pattern, and whose pages are to be few. -/
theorem Condition.compile_preserves_meaning_of_notes :
    ∃ (schema : Schema) (first second : Condition) (query : Document),
      (schema.HasPlainNames ∧ first.MakesSense schema ∧ second.MakesSense schema) ∧
      (first.both second).compile schema = .ok query ∧
      Query.holds [("title", .string "Letter"), ("page_count", .int32 3)] query = .ok true ∧
      Query.holds [("title", .string "A Draft"), ("page_count", .int32 3)] query = .ok false := by
  have hnames : Schema.HasPlainNames
      ⟨"Note", [("title", ⟨"title", .string⟩), ("pages", ⟨"page_count", .int32⟩)]⟩ := by
    unfold Schema.HasPlainNames
    decide
  have hfirst : MakesSense
      ⟨"Note", [("title", ⟨"title", .string⟩), ("pages", ⟨"page_count", .int32⟩)]⟩
      (.or [.nor [.field "title" (.not (.nilike "dr.ft"))]]) := by
    rintro test hmem
    rw [List.mem_singleton.mp hmem]
    refine ⟨⟨_, rfl⟩, fun entry hentry => ?_⟩
    rw [List.mem_singleton.mp hentry]
    decide +kernel
  have hsecond : MakesSense
      ⟨"Note", [("title", ⟨"title", .string⟩), ("pages", ⟨"page_count", .int32⟩)]⟩
      (.field "pages" (.between (.int32 1) (.int32 9))) := by
    rintro test hmem
    rw [List.mem_singleton.mp hmem]
    exact ⟨⟨_, rfl⟩, fun entry hentry => absurd hentry List.not_mem_nil⟩
  obtain ⟨-, ⟨query, hcompile, hholds⟩, -⟩ := compile_preserves_meaning hnames hfirst hsecond
  refine ⟨_, _, _, query, ⟨hnames, hfirst, hsecond⟩, hcompile, ?_, ?_⟩
  · rw [hholds, Except.ok.injEq]
    decide +kernel
  · rw [hholds, Except.ok.injEq]
    decide +kernel

end DocStore
