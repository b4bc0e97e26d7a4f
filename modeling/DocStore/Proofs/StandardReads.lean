import DocStore.Proofs.ListWrites
import DocStore.Proofs.Runs
import DocStore.Proofs.Simulation
import DocStore.Proofs.StableSort

/-! # Standard reads show the visible part of the unrestricted reads

A read without a page gives what its filter selects, sorted and projected
(`CompiledFilter.selected`). Restricting the filter leaves out of the sorted documents those that
are hidden (`CompiledFilter.selected_restrict`), so the reads that hide what is deleted differ from
those that do not by these documents alone. -/

namespace DocStore

/-- The documents that a compiled filter **selects** from a collection if it names no page: in their
order, and as they are stored. -/
def CompiledFilter.selected [Runtime] (compiled : CompiledFilter) (docs : List Document) :
    List Document :=
  compiled.options.arrange (docs.filter (Query.accepts compiled.query))

/-- A compiled filter that selects only what is shown, if the policy hides anything. -/
def CompiledFilter.restrict (compiled : CompiledFilter) (policy : Policy) : CompiledFilter :=
  { compiled with query := policy.restrict compiled.query }

/-! ## Restricted queries -/

/-- A query that a policy restricts is at fault nowhere if the query is not. -/
theorem Query.Evaluates.restrict [Runtime] {query : Document} {docs : List Document}
    (h : Query.Evaluates query docs) (policy : Policy) :
    Query.Evaluates (policy.restrict query) docs := by
  intro doc hdoc
  obtain ⟨matched, hmatched⟩ := h doc hdoc
  rw [holds_restrict, hmatched]
  cases policy.deleted <;> cases matched <;> exact ⟨_, rfl⟩

/-- A restricted query accepts what is shown of what the query accepts. -/
theorem Query.accepts_restrict [Runtime] {policy : Policy} (hdeleted : policy.deleted = true)
    (query doc : Document) :
    Query.accepts (policy.restrict query) doc = (Query.accepts query doc && doc.isShown) := by
  rw [Query.accepts, Query.accepts, holds_restrict, if_pos hdeleted]
  cases Query.holds doc query with
  | error fault => rfl
  | ok matched => cases matched <;> rfl

namespace CompiledFilter

variable {compiled : CompiledFilter} {docs : List Document}

/-- Whether the order of values is transitive on what documents hold in the fields by which a
compiled filter sorts. -/
def SortsTransitively (compiled : CompiledFilter) (docs : List Document) : Prop :=
  ∀ spec ∈ compiled.options.sort, ∀ field ∈ Entries.keys spec,
    Value.IsTransitiveOn fun value => ∃ doc ∈ docs, Entries.get? doc field = some value

/-- Options that name no page leave none out. -/
theorem page_of_unpaged {options : QueryOptions} (hskip : options.skip = none)
    (hlimit : options.limit = none) (docs : List Document) : options.page docs = docs := by
  rw [QueryOptions.page, hskip, hlimit]
  rfl

variable [Runtime]

/-- Leaving out documents before arranging them gives what leaving them out afterwards gives. -/
theorem filter_arrange (h : compiled.SortsTransitively docs) (keep : Document → Bool) :
    (compiled.options.arrange docs).filter keep = compiled.options.arrange (docs.filter keep) := by
  rw [QueryOptions.arrange, QueryOptions.arrange]
  cases hsort : compiled.options.sort with
  | none => rfl
  | some spec => exact Sorting.filter_sort (h spec hsort) keep

/-- **Restricting a filter** leaves the hidden documents out of what it selects, and keeps the order
of the others. -/
theorem selected_restrict (h : compiled.SortsTransitively docs) {policy : Policy}
    (hdeleted : policy.deleted = true) :
    (compiled.restrict policy).selected docs
      = (compiled.selected docs).filter Document.isShown := by
  -- only the documents that match are sorted
  have hmatching : compiled.SortsTransitively (docs.filter (Query.accepts compiled.query)) :=
    fun spec hspec field hfield => (h spec hspec field hfield).mono fun value =>
      fun ⟨doc, hdoc, hvalue⟩ => ⟨doc, List.mem_of_mem_filter hdoc, hvalue⟩
  have hrestricted : Query.accepts (policy.restrict compiled.query)
      = fun doc => doc.isShown && Query.accepts compiled.query doc := by
    funext doc
    rw [Query.accepts_restrict hdeleted, Bool.and_comm]
  rw [selected, selected, filter_arrange hmatching, List.filter_filter, ← hrestricted]
  rfl

/-- **What is found** by a query that makes sense of the documents. -/
theorem find_of_evaluates (h : Query.Evaluates compiled.query docs)
    (hskip : compiled.options.skip = none) (hlimit : compiled.options.limit = none) :
    Collection.find compiled.query compiled.options docs
      = .ok ((compiled.selected docs).map compiled.options.view) := by
  rw [Collection.find, Collection.select_of_evaluates h, Except.map, QueryOptions.present,
    page_of_unpaged hskip hlimit, selected]

/-- What is found first. -/
theorem findOne_of_evaluates (h : Query.Evaluates compiled.query docs)
    (hskip : compiled.options.skip = none) :
    Collection.findOne compiled.query compiled.options docs
      = .ok ((compiled.selected docs).head?.map compiled.options.view) := by
  have hfirst : QueryOptions.page { compiled.options with limit := some 1 }
      (compiled.selected docs) = (compiled.selected docs).take 1 := by
    rw [QueryOptions.page, hskip]
    rfl
  rw [Collection.findOne, Collection.find, Collection.select_of_evaluates h]
  refine congrArg Except.ok ?_
  show ((QueryOptions.page { compiled.options with limit := some 1 }
    (compiled.selected docs)).map compiled.options.view).head? = _
  rw [hfirst, List.head?_map, List.head?_take, if_neg Nat.one_ne_zero]

/-- How many are found. -/
theorem count_of_evaluates (h : Query.Evaluates compiled.query docs) :
    Collection.count compiled.query docs = .ok (compiled.selected docs).length := by
  rw [Collection.count, Collection.select_of_evaluates h, Except.map, selected,
    Collection.length_arrange]

end CompiledFilter

/-- A filter without a page has options without one. -/
theorem Filter.unpaged_of_compile {schema : Schema} {filter : Filter} {compiled : CompiledFilter}
    (h : filter.compile schema = .ok compiled) (hskip : filter.skip = none)
    (hlimit : filter.limit = none) :
    compiled.options.skip = none ∧ compiled.options.limit = none := by
  obtain ⟨skip, hchecked, hcompiled, hlimit'⟩ := Filter.counts_of_compile h
  rw [hskip] at hchecked
  rw [hlimit] at hlimit'
  cases hchecked
  exact ⟨hcompiled, (Except.ok.inj hlimit').symm⟩

namespace Repository

open DocStore.Action (bind_apply)

variable {α : Type} {repository : Repository α} {moment : Moment} {session : Session}
  {compiled : CompiledFilter}

section

variable [Runtime]

section

variable (hintime : moment.latency.exceeds repository.options.timeout = false)
  (hevaluates : Query.Evaluates compiled.query (repository.stored session))

include hintime hevaluates

/-- Loading reads what a compiled filter selects. -/
theorem load_fst (hskip : compiled.options.skip = none) (hlimit : compiled.options.limit = none) :
    (repository.load compiled moment session).1
      = repository.model.decodeAll
          ((compiled.selected (repository.stored session)).map compiled.options.view) := by
  have hfind := compiled.find_of_evaluates hevaluates hskip hlimit
  rw [stored] at hfind
  rw [load, bind_apply, repository.call_apply _ hintime, Store.answer, Call.run, hfind]
  rfl

/-- Loading the first document reads the first of what a compiled filter selects. -/
theorem loadFirst_fst (hskip : compiled.options.skip = none) :
    (repository.loadFirst compiled moment session).1
      = repository.model.decodeOption
          ((compiled.selected (repository.stored session)).head?.map compiled.options.view) := by
  have hfind := compiled.findOne_of_evaluates hevaluates hskip
  rw [stored] at hfind
  rw [loadFirst, bind_apply, repository.call_apply _ hintime, Store.answer, Call.run, hfind]
  rfl

/-- Counting counts what a compiled filter selects. -/
theorem callCount_fst :
    (repository.call (.count repository.collection compiled.query) moment session).1
      = .ok (compiled.selected (repository.stored session)).length := by
  have hcount := compiled.count_of_evaluates hevaluates
  rw [stored] at hcount
  rw [repository.call_apply _ hintime, Store.answer, Call.run, hcount]
  rfl

end

/-- **Standard reads show the visible part of the unrestricted reads.** Let a repository hide what
is deleted, and let a filter name no page, its query make sense of the stored documents, and the
order of values be transitive on what they hold in the fields by which it sorts. The unrestricted
read gives what the filter selects of the whole collection. The standard read gives those of these
documents that are shown, in the same order; counting gives their number, and reading one gives the
first of them. A filter that does not compile fails all four alike. -/
theorem standard_reads_show (hdeleted : repository.policy.deleted = true)
    (hintime : moment.latency.exceeds repository.options.timeout = false) {filter : Filter}
    (hskip : filter.skip = none) (hlimit : filter.limit = none) :
    (∀ error, filter.compile repository.schema = .error error →
      (repository.findWithDeleted filter moment session).1 = .error error ∧
      (repository.find filter moment session).1 = .error error ∧
      (repository.count filter moment session).1 = .error error ∧
      (repository.findOne filter moment session).1 = .error error) ∧
    ∀ compiled, filter.compile repository.schema = .ok compiled →
      Query.Evaluates compiled.query (repository.stored session) →
      compiled.SortsTransitively (repository.stored session) →
      let all := compiled.selected (repository.stored session)
      let shown := all.filter fun doc => (Deletion.ofDocument doc).isVisible
      (repository.findWithDeleted filter moment session).1
          = repository.model.decodeAll (all.map compiled.options.view) ∧
      (repository.find filter moment session).1
          = repository.model.decodeAll (shown.map compiled.options.view) ∧
      (repository.count filter moment session).1 = .ok shown.length ∧
      (repository.findOne filter moment session).1
          = repository.model.decodeOption (shown.head?.map compiled.options.view) := by
  constructor
  · intro error herror
    have hrestricted : repository.restricted filter = .error error := by
      rw [restricted, herror]
      rfl
    rw [findWithDeleted, find, count, findOne, bind_apply, bind_apply, bind_apply, bind_apply,
      compile_apply, hrestricted, compileAll, Action.ofExcept, herror]
    exact ⟨rfl, rfl, rfl, rfl⟩
  · intro compiled hcompiled hevaluates htransitive all shown
    obtain ⟨hskip, hlimit⟩ := Filter.unpaged_of_compile hcompiled hskip hlimit
    have hrestricted : repository.restricted filter
        = .ok (compiled.restrict repository.policy) := by
      rw [restricted, hcompiled]
      rfl
    have hshown : (compiled.restrict repository.policy).selected (repository.stored session)
        = shown := compiled.selected_restrict htransitive hdeleted
    have hrestrict : Query.Evaluates (compiled.restrict repository.policy).query
        (repository.stored session) := hevaluates.restrict repository.policy
    rw [findWithDeleted, find, count, findOne, bind_apply, bind_apply, bind_apply, bind_apply,
      compile_apply, hrestricted, compileAll, Action.ofExcept, hcompiled]
    dsimp only
    rw [load_fst hintime hevaluates hskip hlimit, load_fst hintime hrestrict hskip hlimit,
      callCount_fst hintime hrestrict, loadFirst_fst hintime hrestrict hskip, hshown]
    exact ⟨rfl, rfl, rfl, rfl⟩

end

/-- Notes by their titles, from the last to the first: of five notes one is not wanted, one is
deleted and one has a marker that is no time. -/
theorem standard_reads_show_titles :
    ∃ (repository : Repository Document) (moment : Moment) (session : Session) (filter : Filter),
      repository.stored session
        = [[("title", .string "a")], [("title", .string "c"), ("deleted", .dateTime ⟨1000⟩)],
          [("title", .string "b"), ("deleted", .int32 5)], [("title", .string "x")],
          [("title", .string "b")]] ∧
      (repository.findWithDeleted filter moment session).1
        = .ok [[("title", .string "c"), ("deleted", .dateTime ⟨1000⟩)],
          [("title", .string "b"), ("deleted", .int32 5)], [("title", .string "b")],
          [("title", .string "a")]] ∧
      (repository.find filter moment session).1
        = .ok [[("title", .string "b"), ("deleted", .int32 5)], [("title", .string "b")],
          [("title", .string "a")]] ∧
      (repository.count filter moment session).1 = .ok 3 ∧
      (repository.findOne filter moment session).1
        = .ok (some [("title", .string "b"), ("deleted", .int32 5)]) := by
  let schema : Schema := ⟨"Note", [("title", ⟨"title", .string⟩)]⟩
  let repository : Repository Document :=
    ⟨Model.raw "Note" "notes" [], schema, { policy := ⟨false, false, true⟩ }⟩
  let moment : Moment := ⟨⟨2000⟩, ⟨0, 0⟩⟩
  let docs : List Document :=
    [[("title", .string "a")], [("title", .string "c"), ("deleted", .dateTime ⟨1000⟩)],
      [("title", .string "b"), ("deleted", .int32 5)], [("title", .string "x")],
      [("title", .string "b")]]
  let session : Session := ⟨⟨[("notes", docs)], .ofSource ⟨0, 0, 0⟩⟩, [], []⟩
  let filter : Filter :=
    { condition := .field "title" (.neq (.string "x")), order := [("title", .descending)] }
  have hevaluates : Query.Evaluates [("title", .document [("$ne", .string "x")])] docs := by
    intro doc hmem
    simp only [docs, List.mem_cons, List.not_mem_nil, or_false] at hmem
    rcases hmem with rfl | rfl | rfl | rfl | rfl <;> exact ⟨_, rfl⟩
  have htransitive : Value.IsTransitiveOn fun value =>
      ∃ doc ∈ docs, Entries.get? doc "title" = some value := by
    refine Value.isTransitiveOn_of_strings fun value ⟨doc, hmem, hvalue⟩ => ?_
    simp only [docs, List.mem_cons, List.not_mem_nil, or_false] at hmem
    rcases hmem with rfl | rfl | rfl | rfl | rfl <;> exact ⟨_, (Option.some.inj hvalue).symm⟩
  have hsorts : CompiledFilter.SortsTransitively
      ⟨[("title", .document [("$ne", .string "x")])],
        { sort := some [("title", .int32 (-1))] }⟩ docs := by
    rintro spec ⟨⟩ field hfield
    rw [List.mem_singleton.mp hfield]
    exact htransitive
  have hdeleted : repository.policy.deleted = true := rfl
  have hintime : moment.latency.exceeds repository.options.timeout = false := rfl
  have hskip : filter.skip = none := rfl
  have hlimit : filter.limit = none := rfl
  exact ⟨repository, moment, session, filter, rfl,
    (standard_reads_show hdeleted hintime hskip hlimit).2 _ rfl hevaluates hsorts⟩

end Repository

end DocStore
