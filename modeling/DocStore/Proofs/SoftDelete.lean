import DocStore.Proofs.DeletionField
import DocStore.Proofs.Meaning
import DocStore.Proofs.Runs
import DocStore.Proofs.Simulation

/-! # Hiding simulates removing

A repository that hides what is deleted behaves like one that removes it. Both keep the same
creation and modification times; the second store holds what is shown of the first. Then every
operation that stores nothing and does not look at deleted documents has the same answer on both
sides and leaves stores that correspond (`Repository.simulates_perform`), and so has every run of
such operations. -/

namespace DocStore

open Outcome (Alike alike_refl)
open Query (Restricts)
open DocStore.Action (Simulates)

/-- The repository that removes documents instead of hiding them, and is the same otherwise. -/
def Repository.removing {α : Type} (repository : Repository α) : Repository α :=
  ⟨repository.model, repository.schema,
    { repository.options with policy := repository.policy.withoutDeletion }⟩

/-- Whether all patterns of a filter are well formed. -/
def Filter.PatternsParse [Runtime] (filter : Filter) : Prop :=
  ∀ test ∈ filter.condition.leaves, test.2.PatternsParse

/-- **An ordinary operation**: it stores nothing and does not look at deleted documents, its patterns
are well formed, and its update does not mention the deletion field. -/
def Operation.IsOrdinary [Runtime] {α : Type} : Operation α → Prop
  | .find filter | .findOne filter | .findById _ filter | .findStream filter | .count filter
  | .deleteOne filter | .deleteMany filter => filter.PatternsParse
  | .updateOne filter spec | .findOneAndUpdate filter spec | .updateMany filter spec =>
    filter.PatternsParse ∧ UpdateSpec.Avoids deletedField spec
  | .updateById _ spec => UpdateSpec.Avoids deletedField spec
  | .hasKey _ | .deleteById _ => True
  | _ => False

namespace Repository

variable {α : Type} {repository : Repository α}

/-! ## Compiling on both sides -/

/-- An update that does not mention the deletion field compiles to one and the same update, and it
hides nothing. -/
theorem simulates_compileUpdate (hmodified : repository.policy.modified = true)
    (hdeleted : repository.policy.deleted = true) {spec : Document}
    (h : UpdateSpec.Avoids deletedField spec) :
    Simulates repository.collection
      (fun update update' => update = update' ∧ ∀ now, Collection.KeepsShown now update)
      (repository.compileUpdate .update spec) (repository.removing.compileUpdate .update spec) := by
  intro moment first second hshows
  have heq : UpdateSpec.compile repository.policy .update moment.now spec
      = UpdateSpec.compile repository.removing.policy .update moment.now spec :=
    UpdateSpec.compile_eq hmodified hdeleted rfl moment.now h
  rw [compileUpdate_apply, compileUpdate_apply, ← heq]
  refine ⟨?_, hshows⟩
  dsimp only
  cases hcompile : (UpdateSpec.compile repository.policy .update moment.now spec).2 with
  | error error => exact Alike.error error
  | ok update =>
    exact Alike.ok ⟨rfl, UpdateSpec.keepsShown_of_compile hdeleted rfl hcompile⟩

/-- A deletion is an update on one side and a removal on the other. -/
theorem simulates_deletionUpdate (hmodified : repository.policy.modified = true)
    (hdeleted : repository.policy.deleted = true) :
    Simulates repository.collection
      (fun update update' => update = some deletionStamp ∧ update' = none)
      repository.deletionUpdate repository.removing.deletionUpdate := by
  intro moment first second hshows
  have hremoving : repository.removing.policy.deletionUpdate moment.now = .ok none := rfl
  rw [deletionUpdate_apply, deletionUpdate_apply, deletionUpdate_eq hmodified hdeleted, hremoving]
  exact ⟨Alike.ok ⟨rfl, rfl⟩, hshows⟩

variable [Runtime]

/-- **Compiled filters that correspond**: the same options, and a query that restricts the other. -/
structure Corresponds (whole shown : CompiledFilter) : Prop where
  query : Restricts whole.query shown.query
  options : whole.options = shown.options

/-- A filter whose patterns are well formed compiles on both sides, or is the same error. -/
theorem alike_restricted (hdeleted : repository.policy.deleted = true)
    (hnames : repository.schema.HasPlainNames) {filter : Filter} (h : filter.PatternsParse) :
    Alike Corresponds (repository.restricted filter) (repository.removing.restricted filter) := by
  have hplain : repository.removing.restricted filter = filter.compile repository.schema := by
    rw [restricted, removing]
    cases filter.compile repository.schema <;> rfl
  rw [hplain]
  cases hcompile : filter.compile repository.schema with
  | error error =>
    rw [restricted, hcompile]
    exact Alike.error error
  | ok compiled =>
    rw [hcompile] at hplain
    obtain ⟨query, hquery, heq⟩ := repository.removing.exists_query_of_restricted hplain
    obtain ⟨query', hquery', hholds⟩ := Condition.exists_query hnames filter.condition
      (Condition.makesSense_of_compile hquery h)
    -- the filter compiles to the query of its condition, and that query is at fault nowhere
    have hsame : query' = compiled.query := by
      rw [heq]
      exact Except.ok.inj (hquery'.symm.trans hquery)
    rw [hsame] at hholds
    rw [restricted, hcompile]
    exact Alike.ok ⟨Query.restricts_restrict hdeleted hholds, rfl⟩

theorem simulates_compile (hdeleted : repository.policy.deleted = true)
    (hnames : repository.schema.HasPlainNames) {filter : Filter} (h : filter.PatternsParse) :
    Simulates repository.collection Corresponds (repository.compile filter)
      (repository.removing.compile filter) := by
  intro moment first second hshows
  rw [compile_apply, compile_apply]
  exact ⟨alike_restricted hdeleted hnames h, hshows⟩

/-! ## Calls on both sides -/

section Calls

variable {whole shown : CompiledFilter} (h : Corresponds whole shown)

include h

theorem simulates_load :
    Simulates repository.collection Eq (repository.load whole) (repository.removing.load shown) := by
  have hcall : Simulates repository.collection Eq
      (repository.call (.find repository.collection whole.query whole.options))
      (repository.removing.call (.find repository.collection shown.query shown.options)) := by
    rw [h.options]
    exact Action.simulates_call _ fun now first second hshows =>
      Store.alike_find h.query hshows shown.options
  refine hcall.bind fun docs docs' heq => ?_
  rw [heq]
  exact Action.simulates_ofExcept_self _

theorem simulates_callFindOne :
    Simulates repository.collection Eq
      (repository.call (.findOne repository.collection whole.query whole.options))
      (repository.removing.call (.findOne repository.collection shown.query shown.options)) := by
  rw [h.options]
  exact Action.simulates_call _ fun now first second hshows =>
    Store.alike_findOne h.query hshows shown.options

theorem simulates_loadFirst :
    Simulates repository.collection Eq (repository.loadFirst whole)
      (repository.removing.loadFirst shown) := by
  refine (simulates_callFindOne h).bind fun doc doc' heq => ?_
  rw [heq]
  exact Action.simulates_ofExcept_self _

end Calls

/-! ## Operations on both sides -/

/-- A filter for a key and something else has no other patterns. -/
theorem patternsParse_hasKey_both (key : Value) {filter : Filter} (h : filter.PatternsParse) :
    Filter.PatternsParse
      { filter with condition := (Condition.hasKey key).both filter.condition } := by
  intro test (hmem : test ∈ ((Condition.hasKey key).both filter.condition).leaves)
  rcases Condition.mem_leaves_both hmem with hkey | hrest
  · rw [List.mem_singleton.mp hkey]
    exact fun entry hentry => absurd hentry List.not_mem_nil
  · exact h test hrest

/-- A filter for a key has no patterns. -/
theorem patternsParse_hasKey (key : Value) (fields : List (String × Bool)) :
    Filter.PatternsParse { condition := .hasKey key, fields := fields } := by
  intro test hmem
  rw [List.mem_singleton.mp hmem]
  exact fun entry hentry => absurd hentry List.not_mem_nil

variable (hmodified : repository.policy.modified = true)
  (hdeleted : repository.policy.deleted = true) (hnames : repository.schema.HasPlainNames)

include hdeleted hnames

theorem simulates_find {filter : Filter} (h : filter.PatternsParse) :
    Simulates repository.collection Eq (repository.find filter)
      (repository.removing.find filter) :=
  (simulates_compile hdeleted hnames h).bind fun _ _ hcompiled => simulates_load hcompiled

theorem simulates_findOne {filter : Filter} (h : filter.PatternsParse) :
    Simulates repository.collection Eq (repository.findOne filter)
      (repository.removing.findOne filter) :=
  (simulates_compile hdeleted hnames h).bind fun _ _ hcompiled => simulates_loadFirst hcompiled

theorem simulates_count {filter : Filter} (h : filter.PatternsParse) :
    Simulates repository.collection Eq (repository.count filter)
      (repository.removing.count filter) :=
  (simulates_compile hdeleted hnames h).bind fun _ _ hcompiled =>
    Action.simulates_call _ fun _ _ _ hshows => Store.alike_count hcompiled.query hshows

theorem simulates_hasKey (key : Value) :
    Simulates repository.collection Eq (repository.hasKey key)
      (repository.removing.hasKey key) := by
  refine (simulates_compile hdeleted hnames (patternsParse_hasKey key _)).bind
    fun _ _ hcompiled => ?_
  refine (simulates_callFindOne hcompiled).bind fun doc doc' heq => ?_
  exact Action.simulates_pure (congrArg Option.isSome heq)

include hmodified

/-- A filter and an update are compiled on both sides, and what follows gets compiled filters that
correspond and an update that hides nothing. -/
theorem simulates_updating {β γ : Type} {related : β → γ → Prop} {filter : Filter} {spec : Document}
    (h : filter.PatternsParse) (hspec : UpdateSpec.Avoids deletedField spec)
    {next : CompiledFilter → Document → Action β} {next' : CompiledFilter → Document → Action γ}
    (hnext : ∀ whole shown update, Corresponds whole shown →
      (∀ now, Collection.KeepsShown now update) →
      Simulates repository.collection related (next whole update) (next' shown update)) :
    Simulates repository.collection related
      (do
        let compiled ← repository.compile filter
        let update ← repository.compileUpdate .update spec
        next compiled update)
      (do
        let compiled ← repository.removing.compile filter
        let update ← repository.removing.compileUpdate .update spec
        next' compiled update) := by
  refine (simulates_compile hdeleted hnames h).bind fun whole shown hcompiled => ?_
  refine (simulates_compileUpdate hmodified hdeleted hspec).bind ?_
  rintro update _ ⟨rfl, hkeeps⟩
  exact hnext whole shown update hcompiled hkeeps

/-- A filter is compiled on both sides, and what follows stamps a deletion on one side and removes
on the other. -/
theorem simulates_deleting {β γ : Type} {related : β → γ → Prop} {filter : Filter}
    (h : filter.PatternsParse) {next : CompiledFilter → Option Document → Action β}
    {next' : CompiledFilter → Option Document → Action γ}
    (hnext : ∀ whole shown, Corresponds whole shown →
      Simulates repository.collection related (next whole (some deletionStamp)) (next' shown none)) :
    Simulates repository.collection related
      (do
        let compiled ← repository.compile filter
        let update ← repository.deletionUpdate
        next compiled update)
      (do
        let compiled ← repository.removing.compile filter
        let update ← repository.removing.deletionUpdate
        next' compiled update) := by
  refine (simulates_compile hdeleted hnames h).bind fun whole shown hcompiled => ?_
  refine (simulates_deletionUpdate hmodified hdeleted).bind ?_
  rintro _ _ ⟨rfl, rfl⟩
  exact hnext whole shown hcompiled

theorem simulates_updateOne {filter : Filter} {spec : Document} (h : filter.PatternsParse)
    (hspec : UpdateSpec.Avoids deletedField spec) :
    Simulates repository.collection Eq (repository.updateOne filter spec)
      (repository.removing.updateOne filter spec) := by
  refine simulates_updating hmodified hdeleted hnames h hspec
    fun whole shown update hcompiled hkeeps => ?_
  have hcall := Action.simulates_call repository.options.timeout
    fun now first second (hshows : Store.Shows repository.collection first second) =>
      Store.alike_updateOne hcompiled.query (hkeeps now) hshows
  refine hcall.bind fun outcome outcome' heq => ?_
  rw [heq]
  exact Action.simulates_ofExcept_self _

theorem simulates_findOneAndUpdate {filter : Filter} {spec : Document} (h : filter.PatternsParse)
    (hspec : UpdateSpec.Avoids deletedField spec) :
    Simulates repository.collection Eq (repository.findOneAndUpdate filter spec)
      (repository.removing.findOneAndUpdate filter spec) := by
  refine simulates_updating hmodified hdeleted hnames h hspec
    fun whole shown update hcompiled hkeeps => ?_
  have hcall := Action.simulates_call repository.options.timeout
    fun now first second (hshows : Store.Shows repository.collection first second) =>
      Store.alike_findOneAndUpdate hcompiled.query (hkeeps now) hshows shown.options
  rw [hcompiled.options]
  refine hcall.bind fun doc doc' heq => ?_
  rw [heq]
  exact Action.simulates_ofExcept_self _

theorem simulates_updateMany {filter : Filter} {spec : Document} (h : filter.PatternsParse)
    (hspec : UpdateSpec.Avoids deletedField spec) :
    Simulates repository.collection Eq (repository.updateMany filter spec)
      (repository.removing.updateMany filter spec) := by
  refine simulates_updating hmodified hdeleted hnames h hspec
    fun whole shown update hcompiled hkeeps => ?_
  have hcall := Action.simulates_call repository.options.timeout
    fun now first second (hshows : Store.Shows repository.collection first second) =>
      Store.alike_updateMany hcompiled.query (hkeeps now) hshows
  exact hcall.bind fun outcome outcome' heq =>
    Action.simulates_pure (congrArg Collection.UpdateOutcome.modified heq)

theorem simulates_deleteOne {filter : Filter} (h : filter.PatternsParse) :
    Simulates repository.collection Eq (repository.deleteOne filter)
      (repository.removing.deleteOne filter) := by
  refine simulates_deleting hmodified hdeleted hnames h fun whole shown hcompiled => ?_
  have hcall := Action.simulates_call repository.options.timeout
    fun now first second (hshows : Store.Shows repository.collection first second) =>
      Store.alike_hideOne hcompiled.query (hides_deletionStamp now) hshows
  -- the one counts matches, the other removals, and the answer looks only at whether there are any
  refine hcall.bind fun outcome count heq => ?_
  rw [heq]
  exact Action.simulates_ofExcept_self _

theorem simulates_deleteMany {filter : Filter} (h : filter.PatternsParse) :
    Simulates repository.collection Eq (repository.deleteMany filter)
      (repository.removing.deleteMany filter) := by
  refine simulates_deleting hmodified hdeleted hnames h fun whole shown hcompiled => ?_
  have hcall := Action.simulates_call repository.options.timeout
    fun now first second (hshows : Store.Shows repository.collection first second) =>
      Store.alike_hideMany hcompiled.query (hides_deletionStamp now) hshows
  exact hcall.returning fun _ _ heq => heq

omit hmodified in
/-- **A stream is the same on both sides**, although one collection may hold more documents. -/
theorem findStream_eq {filter : Filter} (h : filter.PatternsParse) (moment : Moment)
    {first second : Session}
    (hshows : Store.Shows repository.collection first.store second.store) :
    (repository.findStream filter moment first).1
      = (repository.removing.findStream filter moment second).1 := by
  rw [findStream, findStream]
  simp only [Action.perform, compile_apply]
  rcases (alike_restricted hdeleted hnames h).values_or_fault with
    ⟨whole, shown, hwhole, hshown, hcompiled⟩ | ⟨error, hwhole, hshown⟩
  · -- no page changes a store, so every page is read from the stores of the beginning
    have hcalls : ∀ (skip size : Nat) (s t : Session), s.store = first.store →
        t.store = second.store →
        (repository.call (.find repository.collection whole.query
          (pageOptions whole.options skip size)) moment s).1
        = (repository.removing.call (.find repository.collection shown.query
          (pageOptions shown.options skip size)) moment t).1 := by
      intro skip size s t hs ht
      have hcall := Action.simulates_call repository.options.timeout
        fun now first second (hshows : Store.Shows repository.collection first second) =>
          Store.alike_find hcompiled.query hshows (pageOptions shown.options skip size)
      rw [hcompiled.options]
      exact (hcall moment s t (by rw [hs, ht]; exact hshows)).1.eq
    rw [hwhole, hshown]
    dsimp only
    rw [hcompiled.options]
    refine streamPages_eq first.store second.store (repository.keepsStore_readPage whole)
      (repository.removing.keepsStore_readPage shown) ?_ ?_ _ _ first second rfl rfl
    · intro skip size s t hs ht
      rw [readPage_fst, readPage_fst]
      exact congrArg (fun outcome => Except.ok (pageOf repository.model size outcome))
        (hcalls skip size s t hs ht)
    · intro skip size s page hsize hs hpage hfull
      rw [readPage_fst, Except.ok.injEq] at hpage
      rw [← hpage] at hfull
      obtain ⟨docs, hdocs, hne, hread⟩ := exists_of_full hsize hfull
      rw [← hpage, hread]
      refine ⟨List.length_pos_iff.mpr hne, ?_, ?_⟩
      · have hfind := repository.find_of_call hdocs
        rw [hs] at hfind
        exact Collection.lt_of_find_page hfind hne
      · rw [hcalls skip size s second hs rfl] at hdocs
        exact Collection.lt_of_find_page (repository.removing.find_of_call hdocs) hne
  · rw [hwhole, hshown]

/-- **Every ordinary operation** on one side simulates itself on the other. -/
theorem simulates_perform {operation : Operation α} (h : operation.IsOrdinary) :
    Simulates repository.collection Eq (repository.perform operation)
      (repository.removing.perform operation) := by
  cases operation with
  | find filter => exact (simulates_find hdeleted hnames h).map _
  | findOne filter => exact (simulates_findOne hdeleted hnames h).map _
  | findById key filter =>
    exact (simulates_findOne hdeleted hnames (patternsParse_hasKey_both key h)).map _
  | findStream filter =>
    -- a stream is an answer also where it ends with an error
    intro moment first second hshows
    have hstream := findStream_eq hdeleted hnames h moment hshows
    have hstore := repository.store_findStream filter moment first
    have hstore' := repository.removing.store_findStream filter moment second
    simp only [perform]
    rw [hstream, hstore, hstore']
    exact ⟨Alike.ok rfl, hshows⟩
  | count filter => exact (simulates_count hdeleted hnames h).map _
  | hasKey key => exact (simulates_hasKey hdeleted hnames key).map _
  | updateOne filter spec =>
    exact (simulates_updateOne hmodified hdeleted hnames h.1 h.2).map _
  | updateById key spec =>
    exact (simulates_updateOne hmodified hdeleted hnames (patternsParse_hasKey key []) h).map _
  | findOneAndUpdate filter spec =>
    exact (simulates_findOneAndUpdate hmodified hdeleted hnames h.1 h.2).map _
  | updateMany filter spec =>
    exact (simulates_updateMany hmodified hdeleted hnames h.1 h.2).map _
  | deleteOne filter => exact (simulates_deleteOne hmodified hdeleted hnames h).map _
  | deleteById key =>
    exact (simulates_deleteOne hmodified hdeleted hnames (patternsParse_hasKey key [])).map _
  | deleteMany filter => exact (simulates_deleteMany hmodified hdeleted hnames h).map _
  | _ => exact h.elim

/-- **A run of ordinary operations** gives the same answers on both sides, and the stores still
correspond at its end. -/
theorem performAll_simulates {steps : List (Moment × Operation α)}
    (h : ∀ step ∈ steps, step.2.IsOrdinary) {first second : Session}
    (hshows : Store.Shows repository.collection first.store second.store) :
    (repository.performAll steps first).1 = (repository.removing.performAll steps second).1 ∧
      Store.Shows repository.collection (repository.sessionAfter steps first).store
        (repository.removing.sessionAfter steps second).store := by
  induction steps generalizing first second with
  | nil => exact ⟨rfl, hshows⟩
  | cons step rest ih =>
    obtain ⟨halike, hafter⟩ := simulates_perform hmodified hdeleted hnames
      (h step List.mem_cons_self) step.1 first second hshows
    obtain ⟨hanswers, hend⟩ := ih (fun later hmem => h later (List.mem_cons_of_mem _ hmem)) hafter
    rw [sessionAfter_cons, sessionAfter_cons]
    refine ⟨?_, hend⟩
    rw [performAll, performAll]
    dsimp only
    rw [hanswers, halike.eq]

end Repository

/-- **Hiding simulates removing.** Let a repository keep the modification and the deletion time, let
no storage name of its schema look like an operator, and let a second store hold exactly the shown
documents of the first, in the same order. Then any run of ordinary operations, at the same moments,
is answered on the first store as it is answered on the second by the repository that removes what
it deletes, and afterwards the second store again holds exactly the shown documents of the first. -/
theorem hiding_simulates_removing [Runtime] {α : Type} {repository : Repository α}
    (hmodified : repository.policy.modified = true)
    (hdeleted : repository.policy.deleted = true) (hnames : repository.schema.HasPlainNames)
    {steps : List (Moment × Operation α)} (hsteps : ∀ step ∈ steps, step.2.IsOrdinary)
    {first second : Session}
    (hshown : repository.removing.stored second
      = (repository.stored first).filter Document.isShown) :
    (repository.performAll steps first).1 = (repository.removing.performAll steps second).1 ∧
      repository.removing.stored (repository.removing.sessionAfter steps second)
        = (repository.stored (repository.sessionAfter steps first)).filter Document.isShown :=
  Repository.performAll_simulates hmodified hdeleted hnames hsteps hshown

/-- Two notes of which one is deleted already; the other is deleted and can not be found again. -/
theorem hiding_simulates_removing_notes :
    ∃ (repository : Repository Document) (steps : List (Moment × Operation Document))
      (first second : Session),
      repository.policy = ⟨true, true, true⟩ ∧
      (∀ step ∈ steps, step.2.IsOrdinary) ∧
      repository.removing.stored second
        = (repository.stored first).filter Document.isShown ∧
      (repository.removing.performAll steps second).1
        = [.ok .done, .error .notFound] ∧
      (repository.performAll steps first).1 = [.ok .done, .error .notFound] := by
  let repository : Repository Document :=
    ⟨.raw "Note" "notes" [], ⟨"Note", [("id", ⟨"_id", .int32⟩)]⟩,
      { policy := ⟨true, true, true⟩ }⟩
  let steps : List (Moment × Operation Document) :=
    [(⟨⟨2000⟩, ⟨0, 0⟩⟩, .deleteById (.int32 1)), (⟨⟨3000⟩, ⟨0, 0⟩⟩, .deleteById (.int32 1))]
  let first : Session :=
    ⟨⟨[("notes", [[("_id", .int32 0), ("deleted", .dateTime ⟨1000⟩)], [("_id", .int32 1)]])],
      .ofSource ⟨0, 0, 0⟩⟩, [], []⟩
  let second : Session := ⟨⟨[("notes", [[("_id", .int32 1)]])], .ofSource ⟨0, 0, 0⟩⟩, [], []⟩
  have hnames : repository.schema.HasPlainNames := by
    unfold Schema.HasPlainNames
    decide
  have hsteps : ∀ step ∈ steps, step.2.IsOrdinary := by
    intro step hmem
    rcases List.mem_pair.mp hmem with rfl | rfl
    · trivial
    · trivial
  have hshown : repository.removing.stored second
      = (repository.stored first).filter Document.isShown := rfl
  have hanswers : (repository.removing.performAll steps second).1
      = [.ok .done, .error .notFound] := rfl
  obtain ⟨hsame, -⟩ := hiding_simulates_removing rfl rfl hnames hsteps hshown
  exact ⟨repository, steps, first, second, rfl, hsteps, hshown, hanswers, hsame.trans hanswers⟩

end DocStore
