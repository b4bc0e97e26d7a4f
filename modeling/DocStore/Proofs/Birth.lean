import DocStore.Proofs.Calls
import DocStore.Proofs.OwnedFields
import DocStore.Proofs.Runs
import DocStore.Proofs.Visibility

/-! # The deletion field of new documents

A document that is stored for the first time is stamped as not deleted if it is inserted. One that
is stored because a filter selects nothing has no such stamp: neither the value nor the update can
reach the deletion field, but the seed takes over what the filter fixes by equality, and a filter may
fix the deletion field like any other. `Condition.fixed?` reads that value off the condition, and
`live_iff_of_stored` says exactly when a new document is not deleted. -/

namespace DocStore

/-- The value that a test fixes. -/
def FieldOperator.fixed? : FieldOperator → Option Value
  | .eq value => some value
  | _ => none

namespace Condition

mutual

/-- **The value that a condition fixes** for a field: the operand of the last test of it for
equality, outside of disjunctions and joint denials. -/
def fixed? (schema : Schema) (field : String) : Condition → Option Value
  | .and children => fixedAmong? schema field children
  | .or _ | .nor _ => none
  | .field name operator =>
    match schema.resolve name with
    | .ok info => if info.storageName = field then operator.fixed? else none
    | .error _ => none
termination_by structural condition => condition

/-- The value that several conditions fix for a field; the last one that does decides. -/
def fixedAmong? (schema : Schema) (field : String) : List Condition → Option Value
  | [] => none
  | condition :: rest => (fixedAmong? schema field rest).or (fixed? schema field condition)
termination_by structural conditions => conditions

end

end Condition

/-! ## Seeds of compiled conditions -/

/-- Among the operators of a test, the seed sees equality and nothing else. -/
theorem FieldOperator.fixedValue?_compile (operator : FieldOperator) :
    Query.fixedValue? (.document operator.compile) = operator.fixed? := by
  have hpattern : ∀ pattern options,
      Query.fixedValue? (.document (patternOperators pattern options)) = none := by
    intro pattern options
    rw [patternOperators]
    split <;> rfl
  cases operator with
  | like pattern => exact hpattern pattern ""
  | ilike pattern => exact hpattern pattern "i"
  | regexp pattern options => exact hpattern pattern options
  | _ => rfl

namespace Condition

/-- What the test of one field adds to the seed. -/
theorem get?_seedFrom_field {field : String} (hfield : isOperator field = false) (name : String)
    (operator : FieldOperator) (found : Document) :
    Entries.get? (Query.seedFrom found [(name, .document operator.compile)]) field
      = (if name = field then operator.fixed? else none).or (Entries.get? found field) := by
  rw [Query.seedFrom, Query.seedFrom, FieldOperator.fixedValue?_compile]
  by_cases hname : name = field
  · -- the field is no combinator, so the seed takes what the test fixes
    have hand : field ≠ "$and" := by
      intro heq
      rw [heq] at hfield
      exact absurd hfield (by decide)
    rw [hname, if_neg hand, hfield, if_neg Bool.false_ne_true, if_pos rfl]
    cases operator.fixed? with
    | none => rfl
    | some value => exact Entries.get?_insert_self found field value
  · rw [if_neg hname]
    split
    · rfl
    · split
      · rfl
      · split
        · exact Entries.get?_insert_of_ne found _ (Ne.symm hname)
        · rfl

/-- Only a conjunction of queries adds to the seed. -/
theorem seedFrom_combine_and (found : Document) (queries : List Document) :
    Query.seedFrom found (combine "$and" queries)
      = Query.seedItems found (queries.map .document) := by
  cases queries with
  | nil => rfl
  | cons query rest => rfl

theorem seedFrom_combine_of_ne {combinator : String} (hop : isOperator combinator = true)
    (hne : combinator ≠ "$and") (found : Document) (queries : List Document) :
    Query.seedFrom found (combine combinator queries) = found := by
  rw [combine]
  split
  · rfl
  · rw [Query.seedFrom, Query.seedFrom, if_neg hne, if_pos hop]

mutual

/-- **The seed of a compiled condition** holds in a field what the condition fixes. -/
theorem get?_seedFrom_compile {schema : Schema} {field : String}
    (hfield : isOperator field = false) :
    ∀ (condition : Condition) {query : Document}, condition.compile schema = .ok query →
      ∀ found, Entries.get? (Query.seedFrom found query) field
        = (condition.fixed? schema field).or (Entries.get? found field)
  | .and children, query, h, found => by
    rw [compile] at h
    obtain ⟨queries, hqueries, rfl⟩ := Outcome.map_eq_ok_iff.mp h
    rw [seedFrom_combine_and, fixed?]
    exact get?_seedItems_compileAll hfield children hqueries found
  | .or children, query, h, found => by
    rw [compile] at h
    obtain ⟨queries, -, rfl⟩ := Outcome.map_eq_ok_iff.mp h
    rw [seedFrom_combine_of_ne (by rfl) (by decide), fixed?, Option.none_or]
  | .nor children, query, h, found => by
    rw [compile] at h
    obtain ⟨queries, -, rfl⟩ := Outcome.map_eq_ok_iff.mp h
    rw [seedFrom_combine_of_ne (by rfl) (by decide), fixed?, Option.none_or]
  | .field name operator, query, h, found => by
    rw [compile] at h
    obtain ⟨info, hinfo, rfl⟩ := Outcome.map_eq_ok_iff.mp h
    rw [get?_seedFrom_field hfield, fixed?, hinfo]
termination_by structural condition => condition

/-- The seed of several compiled conditions. -/
theorem get?_seedItems_compileAll {schema : Schema} {field : String}
    (hfield : isOperator field = false) :
    ∀ (conditions : List Condition) {queries : List Document},
      compileAll schema conditions = .ok queries →
      ∀ found, Entries.get? (Query.seedItems found (queries.map .document)) field
        = (fixedAmong? schema field conditions).or (Entries.get? found field)
  | [], queries, h, found => by
    cases h
    rfl
  | condition :: rest, queries, h, found => by
    rw [compileAll_cons] at h
    obtain ⟨query, hfirst, hrest⟩ := Outcome.bind_eq_ok_iff.mp h
    obtain ⟨later, hlater, rfl⟩ := Outcome.map_eq_ok_iff.mp hrest
    rw [List.map_cons, Query.seedItems, get?_seedItems_compileAll hfield rest hlater,
      get?_seedFrom_compile hfield condition hfirst, fixedAmong?, Option.or_assoc]
termination_by structural conditions => conditions

end

end Condition

/-! ## New documents -/

/-- What a document that an operation stores holds in the deletion field: null if it is inserted,
and what the filter fixes if it is stored because the filter selects nothing. -/
def Operation.marker? {α : Type} (schema : Schema) : Operation α → Option Value
  | .insert _ | .create _ => some .null
  | operation => operation.seedFilter?.bind fun filter => filter.condition.fixed? schema deletedField

namespace Repository

variable {α : Type} {repository : Repository α}

/-- An inserted document is stamped as not deleted. -/
theorem get?_deletedField_stamp {policy : Policy} (h : policy.deleted = true) (now : DateTime)
    (doc : Document) : Entries.get? (policy.stamp now doc) deletedField = some .null := by
  rw [Policy.stamp, Entries.get?_insertIf, if_pos ⟨h, rfl⟩]

/-- A document that is stored because a filter selects nothing holds in the deletion field what the
filter fixes. -/
theorem get?_deletedField_of_isSeeded (hdeleted : repository.policy.deleted = true)
    {filter : Filter} {compiled : CompiledFilter}
    (hfilter : repository.restricted filter = .ok compiled) {now : DateTime}
    {spec update stored : Document}
    (hcompile : (UpdateSpec.compile repository.policy .upsert now spec).2 = .ok update)
    (h : Collection.IsSeeded now compiled.query update stored) :
    Entries.get? stored deletedField = filter.condition.fixed? repository.schema deletedField := by
  obtain ⟨query, hquery, hrestricted⟩ := repository.exists_query_of_restricted hfilter
  obtain ⟨asked, hasked, hkeyed⟩ := h
  -- the key and the update leave the field alone, so it holds what the seed holds
  rw [hkeyed deletedField (by decide),
    UpdateSpec.get?_deletedField_of_compile hdeleted rfl hcompile hasked, hrestricted, Query.seed,
    seedFrom_restrict, Condition.get?_seedFrom_compile (by decide) _ hquery, Entries.get?_nil,
    Option.or_none]

/-- The marker of an operation that stores a document where its filter selects none. -/
theorem marker?_of_seedFilter? {schema : Schema} {operation : Operation α} {filter : Filter}
    (h : operation.seedFilter? = some filter) :
    operation.marker? schema = filter.condition.fixed? schema deletedField := by
  cases operation with
  | findOneOrCreate own value | upsert own spec =>
    cases h
    rfl
  | _ => cases h

variable [Runtime]

/-- What a write that appends a document appends. -/
theorem isNew_of_written {now : DateTime} {query update doc : Document} {positions : List Nat}
    {isNew : Document → Prop} {docs : List Document}
    (h : Collection.Written now query update positions isNew docs (docs ++ [doc])) : isNew doc := by
  obtain ⟨kept, hrewritten, hgrown⟩ := h
  rcases hgrown with hkept | ⟨stored, hnew, hstored⟩
  · have hlength := hrewritten.length
    rw [← hkept, List.length_append, List.length_singleton] at hlength
    omega
  · obtain ⟨-, hdoc⟩ := List.append_inj hstored hrewritten.length.symm
    cases hdoc
    exact hnew

/-- An operation that stores one more document has made its call, and the call has stored it. -/
theorem exists_call_of_stored {operation : Operation α} {moment : Moment} {session : Session}
    {doc : Document}
    (hstored : repository.stored (repository.perform operation moment session).2
      = repository.stored session ++ [doc]) :
    ∃ (call : AnyCall) (reply : call.1.Reply) (store : Store),
      repository.writeCall moment.now operation = some call ∧
      call.2.run moment.now session.store = .ok (reply, store) ∧
      store.documents repository.collection
        = session.store.documents repository.collection ++ [doc] := by
  rcases repository.perform_cases operation moment session with
    ⟨hkept, -⟩ | ⟨call, reply, store, hcall, hrun, hafter, -⟩
  · rw [stored, stored, hkept] at hstored
    -- a collection is not itself with one document more
    have hlength := congrArg List.length hstored
    rw [List.length_append, List.length_singleton] at hlength
    omega
  · rw [stored, stored, hafter] at hstored
    exact ⟨call, reply, store, hcall, hrun, hstored⟩

/-- What a stored document holds in the deletion field, whatever the operation. -/
theorem get?_deletedField_of_stored (hdeleted : repository.policy.deleted = true)
    {operation : Operation α} {moment : Moment} {session : Session} {doc : Document}
    (hstored : repository.stored (repository.perform operation moment session).2
      = repository.stored session ++ [doc]) :
    Entries.get? doc deletedField = operation.marker? repository.schema := by
  obtain ⟨call, reply, store, hcall, hrun, hgrown⟩ := exists_call_of_stored hstored
  rcases writeCall_cases hdeleted hcall with
    ⟨value, asked, hoperation, rfl⟩ | ⟨compiled, update, upsert, hupdating⟩
  · obtain ⟨added, hkeyed, hdocs⟩ := Store.documents_insertOne hrun
    rw [hdocs] at hgrown
    have hdoc : added = doc := List.singleton_inj.mp (List.append_cancel_left hgrown)
    rw [← hdoc, hkeyed deletedField (by decide), get?_deletedField_stamp hdeleted]
    rcases hoperation with rfl | rfl <;> rfl
  · obtain ⟨hisUpdate, ⟨filter, hfilter, hseed⟩, context, spec, hcompile, -, -, hupsert⟩ :=
      hupdating
    have hwritten := hisUpdate.written hrun
    rw [hgrown] at hwritten
    obtain ⟨hup, hseeded⟩ := isNew_of_written hwritten
    rw [hupsert hup] at hcompile
    rw [get?_deletedField_of_isSeeded hdeleted hfilter hcompile hseeded]
    exact (marker?_of_seedFilter? (hseed hup)).symm

end Repository

/-- **When a new document is not deleted.** Let a repository hide what is deleted, and let an
operation store a document behind all others. Then the value, the update and the store have no say
in its deletion field, and it is not deleted if and only if the operation inserts it or the filter
fixes nothing but null there; it is shown unless the filter fixes a time. -/
theorem live_iff_of_stored [Runtime] {α : Type} {repository : Repository α}
    (hdeleted : repository.policy.deleted = true) {operation : Operation α} {moment : Moment}
    {session : Session} {doc : Document}
    (hstored : repository.stored (repository.perform operation moment session).2
      = repository.stored session ++ [doc]) :
    (Deletion.ofDocument doc = .live ↔
      ∀ value, operation.marker? repository.schema = some value → value = .null) ∧
    (doc.isShown = true ↔
      ∀ at_, operation.marker? repository.schema ≠ some (.dateTime at_)) := by
  have hget := Repository.get?_deletedField_of_stored hdeleted hstored
  rw [← hget, Document.isShown, Deletion.ofDocument]
  cases Entries.get? doc deletedField with
  | none => simp [Deletion.isVisible]
  | some value => cases value <;> simp [Deletion.isVisible]

/-- A filter that asks for a deletion time finds nothing, and the upsert stores a document that is
hidden from the start. -/
theorem live_iff_of_stored_hidden :
    ∃ (repository : Repository Document) (filter : Filter) (spec : Document) (moment : Moment)
      (session : Session) (doc : Document),
      repository.policy.deleted = true ∧
      filter.condition.fixed? repository.schema deletedField = some (.dateTime ⟨1000⟩) ∧
      repository.stored (repository.perform (.upsert filter spec) moment session).2
        = repository.stored session ++ [doc] ∧
      ¬ (Deletion.ofDocument doc = .live) ∧ doc.isShown = false := by
  let repository : Repository Document :=
    ⟨.raw "Note" "notes" [], ⟨"Note", [("deleted", ⟨"deleted", .dateTime⟩)]⟩,
      { policy := ⟨false, false, true⟩ }⟩
  have hdeleted : repository.policy.deleted = true := rfl
  have hstored : repository.stored (repository.perform
      (.upsert { condition := .field "deleted" (.eq (.dateTime ⟨1000⟩)) } [("a", .int32 1)])
      ⟨⟨2000⟩, ⟨0, 0⟩⟩ ⟨.empty (.ofSource ⟨0, 0, 0⟩), [], []⟩).2
      = [] ++ [[("deleted", .dateTime ⟨1000⟩), ("a", .int32 1),
          ("_id", .objectId (ObjectId.Supply.peek (.ofSource ⟨0, 0, 0⟩)))]] := rfl
  obtain ⟨hlive, hshown⟩ := live_iff_of_stored hdeleted hstored
  refine ⟨repository, _, _, _, _, _, hdeleted, rfl, hstored, fun h => ?_, ?_⟩
  · exact absurd (hlive.mp h (.dateTime ⟨1000⟩) rfl) Value.noConfusion
  · rw [← Bool.not_eq_true]
    exact fun h => hshown.mp h ⟨1000⟩ rfl

end DocStore
