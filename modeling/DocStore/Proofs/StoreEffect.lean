import DocStore.Proofs.Outcome
import DocStore.Repository.Operation

/-! # What an operation does to the store

An operation makes at most one call that writes, `Repository.writeCall`. It makes it unless
something is wrong before: a filter or an update that does not compile, or a value that is no
document. Whatever an operation does after that call reads the store and leaves it as it is, so the
store afterwards is the store after the call (`Repository.store_perform`). -/

namespace DocStore

namespace Action

variable {α β : Type}

/-! ## Running actions -/

/-- The second of two actions runs if the first gives a value. -/
theorem bind_apply (action : Action α) (next : α → Action β) (moment : Moment)
    (session : Session) :
    (action >>= next) moment session
      = match action moment session with
        | (.ok value, session) => next value moment session
        | (.error error, session) => (.error error, session) := by
  show (ReaderT.bind action next) moment session = _
  simp only [ReaderT.bind, bind, ExceptT.bind, ExceptT.mk, StateT.bind, ExceptT.bindCont]
  rcases action moment session with ⟨outcome, after⟩
  cases outcome <;> rfl

theorem map_apply (f : α → β) (action : Action α) (moment : Moment) (session : Session) :
    (f <$> action) moment session
      = ((action moment session).1.map f, (action moment session).2) := by
  have h : (f <$> action) = action >>= fun value => pure (f value) := rfl
  rw [h, bind_apply]
  rcases action moment session with ⟨outcome, after⟩
  cases outcome <;> rfl

/-! ## Actions that keep the store -/

/-- An action that leaves the store as it is. -/
def KeepsStore (action : Action α) : Prop :=
  ∀ moment session, (action moment session).2.store = session.store

theorem keepsStore_ofExcept (outcome : Except Error α) : KeepsStore (ofExcept outcome) :=
  fun _ _ => rfl

theorem keepsStore_pure (value : α) : KeepsStore (pure value : Action α) := fun _ _ => rfl

/-- What follows an action without touching a part of the session leaves that part as the action
did. -/
theorem part_bind {γ : Type} (part : Session → γ) {action : Action α} {next : α → Action β}
    (hnext : ∀ value moment session, part (next value moment session).2 = part session)
    (moment : Moment) (session : Session) :
    part ((action >>= next) moment session).2 = part (action moment session).2 := by
  rw [bind_apply]
  rcases action moment session with ⟨outcome, after⟩
  cases outcome with
  | error error => rfl
  | ok value => exact hnext value moment after

theorem store_bind {action : Action α} {next : α → Action β}
    (hnext : ∀ value, KeepsStore (next value)) (moment : Moment) (session : Session) :
    ((action >>= next) moment session).2.store = (action moment session).2.store :=
  part_bind Session.store hnext moment session

/-- Two actions that keep the store keep it one after the other. -/
theorem KeepsStore.bind {action : Action α} {next : α → Action β} (h : KeepsStore action)
    (hnext : ∀ value, KeepsStore (next value)) : KeepsStore (action >>= next) := by
  intro moment session
  rw [store_bind hnext, h moment session]

theorem KeepsStore.map {action : Action α} (h : KeepsStore action) (f : α → β) :
    KeepsStore (f <$> action) := by
  intro moment session
  rw [map_apply]
  exact h moment session

end Action

/-- Whether an operation only reads. -/
def Operation.isRead {α : Type} : Operation α → Bool
  | .find _ | .findOne _ | .findById _ _ | .findStream _ | .findWithDeleted _
  | .findOneWithDeleted _ | .deletion _ | .count _ | .hasKey _ => true
  | _ => false

/-- The options of a compiled filter have its counts, checked. -/
theorem Filter.counts_of_compile {schema : Schema} {filter : Filter} {compiled : CompiledFilter}
    (h : filter.compile schema = .ok compiled) :
    ∃ skip, checkedCount .negativeSkip filter.skip = .ok skip ∧
      compiled.options.skip = skip.map Int.toNat ∧
      checkedCount .negativeLimit filter.limit = .ok compiled.options.limit := by
  obtain ⟨query, -, hoptions⟩ := Outcome.bind_eq_ok_iff.mp h
  obtain ⟨options, hcompiled, hplain⟩ := Outcome.bind_eq_ok_iff.mp hoptions
  obtain ⟨skip, hskip, hlimited⟩ := Outcome.bind_eq_ok_iff.mp hcompiled
  obtain ⟨limit, hlimit, hsorted⟩ := Outcome.bind_eq_ok_iff.mp hlimited
  obtain ⟨sort, -, hprojected⟩ := Outcome.bind_eq_ok_iff.mp hsorted
  obtain ⟨projection, -, hall⟩ := Outcome.bind_eq_ok_iff.mp hprojected
  cases hall
  cases hplain
  exact ⟨skip, hskip, rfl, hlimit⟩

namespace Repository

open DocStore.Action (KeepsStore bind_apply map_apply keepsStore_ofExcept keepsStore_pure)

variable {α β : Type} (repository : Repository α)

/-! ## Compiling before a call -/

/-- A compiled filter that selects only what is shown, or the error of the filter. -/
def restricted (filter : Filter) : Except Error CompiledFilter :=
  (filter.compile repository.schema).map fun compiled =>
    { compiled with query := repository.policy.restrict compiled.query }

theorem compile_apply (filter : Filter) (moment : Moment) (session : Session) :
    repository.compile filter moment session = (repository.restricted filter, session) := by
  rw [compile, bind_apply, compileAll, Action.ofExcept, restricted]
  cases filter.compile repository.schema <;> rfl

/-- The query of a compiled filter is the query of its condition, restricted. -/
theorem exists_query_of_restricted {filter : Filter} {compiled : CompiledFilter}
    (h : repository.restricted filter = .ok compiled) :
    ∃ query, filter.condition.compile repository.schema = .ok query ∧
      compiled.query = repository.policy.restrict query := by
  obtain ⟨plain, hplain, rfl⟩ := Outcome.map_eq_ok_iff.mp h
  rw [Filter.compile] at hplain
  cases hcondition : filter.condition.compile repository.schema with
  | error error => rw [hcondition] at hplain; cases hplain
  | ok query =>
    rw [hcondition] at hplain
    obtain ⟨options, -, rfl⟩ := Outcome.map_eq_ok_iff.mp hplain
    exact ⟨query, rfl, rfl⟩

theorem compileUpdate_apply (context : UpdateContext) (spec : Document) (moment : Moment)
    (session : Session) :
    repository.compileUpdate context spec moment session
      = let compiled := UpdateSpec.compile repository.policy context moment.now spec
        (compiled.2, { session with warnings := session.warnings ++ compiled.1 }) := by
  rw [compileUpdate, bind_apply]
  rfl

theorem deletionUpdate_apply (moment : Moment) (session : Session) :
    repository.deletionUpdate moment session
      = (repository.policy.deletionUpdate moment.now, session) := by
  rw [deletionUpdate, bind_apply]
  rfl

/-! ## Calls -/

theorem keepsStore_compile (filter : Filter) : KeepsStore (repository.compile filter) := by
  intro moment session
  rw [compile_apply]

/-- A stream keeps the store if its pages do. -/
theorem store_streamPages {readPage : Nat → Nat → Action (Page α)}
    (h : ∀ skip size, KeepsStore (readPage skip size)) (stored : Nat) (moment : Moment)
    (skip : Nat) (remaining : Option Nat) (session : Session) :
    (streamPages readPage stored moment skip remaining session).2.store = session.store := by
  have hpage := h skip (nextPage remaining) moment session
  rw [streamPages]
  split
  · rfl
  · dsimp only
    split
    · exact hpage
    · split
      · split
        · rw [store_streamPages h]
          exact hpage
        · exact hpage
      · exact hpage
termination_by stored - skip
decreasing_by exact sub_add_lt (by assumption)

variable [Runtime]

/-- The store after a call, if there is one: a call that takes too long does nothing. -/
def storeAfter (moment : Moment) (store : Store) : Option AnyCall → Store
  | none => store
  | some ⟨_, call⟩ =>
    if moment.latency.exceeds repository.options.timeout then store
    else (store.answer moment.now call).2

/-- What a call does to the store. -/
theorem store_call {kind : ReplyKind} (call : Call kind) (moment : Moment) (session : Session) :
    (repository.call call moment session).2.store
      = repository.storeAfter moment session.store (some ⟨kind, call⟩) := by
  rw [Repository.call, Action.call, storeAfter]
  by_cases hlate : moment.latency.exceeds repository.options.timeout = true
  · simp only [if_pos hlate]
  · simp only [if_neg hlate]

/-- A call that does not take too long is carried out. -/
theorem call_apply {kind : ReplyKind} (call : Call kind) {moment : Moment}
    (hintime : moment.latency.exceeds repository.options.timeout = false) (session : Session) :
    repository.call call moment session
      = ((session.store.answer moment.now call).1,
          { session with
            calls := session.calls ++ [⟨kind, call⟩]
            store := (session.store.answer moment.now call).2 }) := by
  rw [Repository.call, Action.call]
  dsimp only
  rw [if_neg (by rw [hintime]; exact Bool.false_ne_true)]

/-- A call keeps the store if carrying it out does. -/
theorem keepsStore_call {kind : ReplyKind} {call : Call kind}
    (h : ∀ now store, (Store.answer store now call).2 = store) :
    KeepsStore (repository.call call) := by
  intro moment session
  rw [store_call, storeAfter]
  split
  · rfl
  · exact h moment.now session.store

theorem answer_find (store : Store) (now : DateTime) (collection : String) (query : Document)
    (options : QueryOptions) : (store.answer now (.find collection query options)).2 = store := by
  rw [Store.answer, Call.run]
  cases Collection.find query options (store.documents collection) <;> rfl

theorem answer_findOne (store : Store) (now : DateTime) (collection : String) (query : Document)
    (options : QueryOptions) :
    (store.answer now (.findOne collection query options)).2 = store := by
  rw [Store.answer, Call.run]
  cases Collection.findOne query options (store.documents collection) <;> rfl

theorem answer_count (store : Store) (now : DateTime) (collection : String) (query : Document) :
    (store.answer now (.count collection query)).2 = store := by
  rw [Store.answer, Call.run]
  cases Collection.count query (store.documents collection) <;> rfl

/-! ## Operations that read -/

theorem keepsStore_load (compiled : CompiledFilter) : KeepsStore (repository.load compiled) :=
  (repository.keepsStore_call fun now store => answer_find store now _ _ _).bind
    fun _ => keepsStore_ofExcept _

theorem keepsStore_loadFirst (compiled : CompiledFilter) :
    KeepsStore (repository.loadFirst compiled) :=
  (repository.keepsStore_call fun now store => answer_findOne store now _ _ _).bind
    fun _ => keepsStore_ofExcept _

theorem keepsStore_findOne (filter : Filter) : KeepsStore (repository.findOne filter) :=
  (repository.keepsStore_compile filter).bind fun compiled =>
    repository.keepsStore_loadFirst compiled

theorem keepsStore_readPage (compiled : CompiledFilter) (skip size : Nat) :
    KeepsStore (repository.readPage compiled skip size) := by
  intro moment session
  have hcall := repository.keepsStore_call (fun now store => answer_find store now
    repository.collection compiled.query (pageOptions compiled.options skip size)) moment session
  rw [readPage]
  simp only [Action.perform]
  split
  · rename_i heq
    rw [heq] at hcall
    exact hcall
  · rename_i heq
    rw [heq] at hcall
    exact hcall

theorem store_findStream (filter : Filter) (moment : Moment) (session : Session) :
    (repository.findStream filter moment session).2.store = session.store := by
  have hcompile := repository.keepsStore_compile filter moment session
  rw [findStream, Action.perform]
  split
  · rename_i heq
    rw [heq] at hcompile
    exact hcompile
  · rename_i heq
    rw [heq] at hcompile
    exact (store_streamPages (repository.keepsStore_readPage _) _ _ _ _ _).trans hcompile

/-! ## The call that writes -/

/-- The call of an update, if the filter and the update compile. -/
def updateCall (context : UpdateContext) (now : DateTime) (filter : Filter) (spec : Document)
    (call : CompiledFilter → Document → AnyCall) : Option AnyCall := do
  let compiled ← (repository.restricted filter).toOption
  let update ← (UpdateSpec.compile repository.policy context now spec).2.toOption
  return call compiled update

/-- The call of a deletion, if the filter compiles: `hide` where the policy hides documents instead
of removing them. -/
def deletionCall (now : DateTime) (filter : Filter) (hide : CompiledFilter → Document → AnyCall)
    (remove : CompiledFilter → AnyCall) : Option AnyCall := do
  let compiled ← (repository.restricted filter).toOption
  let update ← (repository.policy.deletionUpdate now).toOption
  return match update with
    | some update => hide compiled update
    | none => remove compiled

/-- **The call that writes** in an operation, if it gets that far. -/
def writeCall (now : DateTime) : Operation α → Option AnyCall
  | .insert value | .create value => do
    let doc ← (repository.model.toDocument value).toOption
    return ⟨_, .insertOne repository.collection (repository.policy.stamp now doc)⟩
  | .findOneOrCreate filter value => do
    let doc ← (repository.model.toDocument value).toOption
    repository.updateCall .upsert now filter doc fun compiled update =>
      ⟨_, .findOneAndUpdate repository.collection compiled.query update compiled.options true⟩
  | .upsert filter spec =>
    repository.updateCall .upsert now filter spec fun compiled update =>
      ⟨_, .updateOne repository.collection compiled.query update true⟩
  | .updateOne filter spec =>
    repository.updateCall .update now filter spec fun compiled update =>
      ⟨_, .updateOne repository.collection compiled.query update false⟩
  | .updateById key spec =>
    repository.updateCall .update now { condition := .hasKey key } spec fun compiled update =>
      ⟨_, .updateOne repository.collection compiled.query update false⟩
  | .findOneAndUpdate filter spec =>
    repository.updateCall .update now filter spec fun compiled update =>
      ⟨_, .findOneAndUpdate repository.collection compiled.query update compiled.options false⟩
  | .updateMany filter spec =>
    repository.updateCall .update now filter spec fun compiled update =>
      ⟨_, .updateMany repository.collection compiled.query update⟩
  | .deleteOne filter =>
    repository.deletionCall now filter
      (fun compiled update => ⟨_, .updateOne repository.collection compiled.query update false⟩)
      fun compiled => ⟨_, .deleteOne repository.collection compiled.query⟩
  | .deleteById key =>
    repository.deletionCall now { condition := .hasKey key }
      (fun compiled update => ⟨_, .updateOne repository.collection compiled.query update false⟩)
      fun compiled => ⟨_, .deleteOne repository.collection compiled.query⟩
  | .deleteMany filter =>
    repository.deletionCall now filter
      (fun compiled update => ⟨_, .updateMany repository.collection compiled.query update⟩)
      fun compiled => ⟨_, .deleteMany repository.collection compiled.query⟩
  | .find _ | .findOne _ | .findById _ _ | .findStream _ | .findWithDeleted _
  | .findOneWithDeleted _ | .deletion _ | .count _ | .hasKey _ => none

/-! ## Every operation makes that call -/

/-- An action that does to the store what a call does. -/
def Makes (call : AnyCall) (action : Action β) : Prop :=
  ∀ moment session, (action moment session).2.store
    = repository.storeAfter moment session.store (some call)

theorem makes_call_bind {kind : ReplyKind} (call : Call kind) {next : kind.Reply → Action β}
    (hnext : ∀ reply, KeepsStore (next reply)) :
    repository.Makes ⟨kind, call⟩ (repository.call call >>= next) := fun moment session =>
  (Action.store_bind hnext moment session).trans (repository.store_call call moment session)

/-- Compiling a filter and an update in front of a call adds nothing to what the call does. -/
theorem store_updateCall {context : UpdateContext} {filter : Filter} {spec : Document}
    {call : CompiledFilter → Document → AnyCall} {next : CompiledFilter → Document → Action β}
    (hnext : ∀ compiled update, repository.Makes (call compiled update) (next compiled update))
    (moment : Moment) (session : Session) :
    ((do
      let compiled ← repository.compile filter
      let update ← repository.compileUpdate context spec
      next compiled update : Action β) moment session).2.store
      = repository.storeAfter moment session.store
          (repository.updateCall context moment.now filter spec call) := by
  rw [bind_apply, compile_apply, updateCall]
  cases repository.restricted filter with
  | error error => rfl
  | ok compiled =>
    dsimp only
    rw [bind_apply, compileUpdate_apply]
    dsimp only
    cases (UpdateSpec.compile repository.policy context moment.now spec).2 with
    | error error => rfl
    | ok update => exact hnext compiled update moment _

/-- Compiling a filter in front of a deletion adds nothing to what its call does. -/
theorem store_deletionCall {filter : Filter} {hide : CompiledFilter → Document → AnyCall}
    {remove : CompiledFilter → AnyCall} (next : CompiledFilter → Option Document → Action β)
    (hhide : ∀ compiled update, repository.Makes (hide compiled update) (next compiled (some update)))
    (hremove : ∀ compiled, repository.Makes (remove compiled) (next compiled none))
    (moment : Moment) (session : Session) :
    ((do
      let compiled ← repository.compile filter
      let update ← repository.deletionUpdate
      next compiled update : Action β) moment session).2.store
      = repository.storeAfter moment session.store
          (repository.deletionCall moment.now filter hide remove) := by
  rw [bind_apply, compile_apply, deletionCall]
  cases repository.restricted filter with
  | error error => rfl
  | ok compiled =>
    dsimp only
    rw [bind_apply, deletionUpdate_apply]
    cases repository.policy.deletionUpdate moment.now with
    | error error => rfl
    | ok update =>
      cases update with
      | none => exact hremove compiled moment session
      | some update => exact hhide compiled update moment session

theorem store_insert (value : α) (moment : Moment) (session : Session) :
    (repository.insert value moment session).2.store
      = repository.storeAfter moment session.store
          (repository.writeCall moment.now (.insert value)) := by
  rw [insert, bind_apply, Action.ofExcept, writeCall]
  cases repository.model.toDocument value with
  | error error => rfl
  | ok doc => exact repository.store_call (.insertOne _ _) moment session

/-- Once a value is a document, storing or overwriting with it is an update with that document: the
value becomes one between the two compilations, without touching the session. -/
theorem findOneOrCreate_of_document {value : α} {doc : Document}
    (hdoc : repository.model.toDocument value = .ok doc) (filter : Filter) (moment : Moment)
    (session : Session) :
    repository.findOneOrCreate filter value moment session
      = (do
          let compiled ← repository.compile filter
          let update ← repository.compileUpdate .upsert doc
          let reply ← repository.call (.findOneAndUpdate repository.collection compiled.query
            update compiled.options true)
          let value ← Action.ofExcept (repository.model.decodeOption reply)
          found value : Action α) moment session := by
  rw [findOneOrCreate, bind_apply, bind_apply, compile_apply]
  cases repository.restricted filter with
  | error error => rfl
  | ok compiled =>
    dsimp only
    rw [bind_apply, Action.ofExcept, hdoc]

theorem store_findOneOrCreate (filter : Filter) (value : α) (moment : Moment)
    (session : Session) :
    (repository.findOneOrCreate filter value moment session).2.store
      = repository.storeAfter moment session.store
          (repository.writeCall moment.now (.findOneOrCreate filter value)) := by
  rw [writeCall]
  cases hdoc : repository.model.toDocument value with
  | error error =>
    rw [findOneOrCreate, bind_apply, compile_apply]
    cases repository.restricted filter with
    | error error => rfl
    | ok compiled =>
      dsimp only
      rw [bind_apply, Action.ofExcept, hdoc]
      rfl
  | ok doc =>
    rw [repository.findOneOrCreate_of_document hdoc]
    refine repository.store_updateCall (fun compiled update => ?_) moment session
    exact repository.makes_call_bind _ fun _ =>
      (keepsStore_ofExcept _).bind fun _ => keepsStore_ofExcept _

theorem store_updateOne (filter : Filter) (spec : Document) (moment : Moment)
    (session : Session) :
    (repository.updateOne filter spec moment session).2.store
      = repository.storeAfter moment session.store
          (repository.writeCall moment.now (.updateOne filter spec)) := by
  refine repository.store_updateCall (fun compiled update => ?_) moment session
  exact repository.makes_call_bind _ fun _ => keepsStore_ofExcept _

theorem store_deleteOne (filter : Filter) (moment : Moment) (session : Session) :
    (repository.deleteOne filter moment session).2.store
      = repository.storeAfter moment session.store
          (repository.writeCall moment.now (.deleteOne filter)) := by
  refine repository.store_deletionCall (fun compiled update => match update with
    | some update => do
      let outcome ← repository.call (.updateOne repository.collection compiled.query update false)
      affected outcome.matched
    | none => do
      affected (← repository.call (.deleteOne repository.collection compiled.query)))
    (fun compiled update => ?_) (fun compiled => ?_) moment session
  · exact repository.makes_call_bind _ fun _ => keepsStore_ofExcept _
  · exact repository.makes_call_bind _ fun _ => keepsStore_ofExcept _

theorem store_deleteMany (filter : Filter) (moment : Moment) (session : Session) :
    (repository.deleteMany filter moment session).2.store
      = repository.storeAfter moment session.store
          (repository.writeCall moment.now (.deleteMany filter)) := by
  refine repository.store_deletionCall (fun compiled update => match update with
    | some update => do
      let outcome ← repository.call (.updateMany repository.collection compiled.query update)
      return outcome.modified
    | none => repository.call (.deleteMany repository.collection compiled.query))
    (fun compiled update => ?_) (fun compiled => ?_) moment session
  · exact repository.makes_call_bind _ fun _ => keepsStore_pure _
  · exact repository.store_call _

/-- An operation that reads keeps the store. -/
theorem keepsStore_read {operation : Operation α} (h : operation.isRead = true) :
    KeepsStore (repository.perform operation) := by
  have hcompileAll : ∀ filter, KeepsStore (repository.compileAll filter) := fun _ =>
    keepsStore_ofExcept _
  cases operation with
  | find filter =>
    exact ((repository.keepsStore_compile filter).bind repository.keepsStore_load).map _
  | findOne filter => exact (repository.keepsStore_findOne filter).map _
  | findById key filter => exact (repository.keepsStore_findOne _).map _
  | findStream filter => exact repository.store_findStream filter
  | findWithDeleted filter =>
    exact ((hcompileAll filter).bind repository.keepsStore_load).map _
  | findOneWithDeleted filter =>
    exact ((hcompileAll filter).bind repository.keepsStore_loadFirst).map _
  | deletion key =>
    exact ((hcompileAll _).bind fun _ => (repository.keepsStore_call fun now store =>
      answer_findOne store now _ _ _).bind fun _ => keepsStore_pure _).map _
  | count filter =>
    exact ((repository.keepsStore_compile filter).bind fun _ =>
      repository.keepsStore_call fun now store => answer_count store now _ _).map _
  | hasKey key =>
    exact ((repository.keepsStore_compile _).bind fun _ => (repository.keepsStore_call
      fun now store => answer_findOne store now _ _ _).bind fun _ => keepsStore_pure _).map _
  | _ => cases h

/-- **What an operation does to the store** is what its call does. -/
theorem store_perform (operation : Operation α) (moment : Moment) (session : Session) :
    (repository.perform operation moment session).2.store
      = repository.storeAfter moment session.store
          (repository.writeCall moment.now operation) := by
  cases operation with
  | insert value =>
    rw [perform, map_apply]
    exact repository.store_insert value moment session
  | create value =>
    have hfind : ∀ key, KeepsStore (repository.findById key .all >>= found) := fun key =>
      (repository.keepsStore_findOne _).bind fun _ => keepsStore_ofExcept _
    rw [perform, map_apply]
    exact (Action.store_bind hfind moment session).trans
      (repository.store_insert value moment session)
  | findOneOrCreate filter value =>
    rw [perform, map_apply]
    exact repository.store_findOneOrCreate filter value moment session
  | upsert filter spec =>
    rw [perform, map_apply]
    exact repository.store_updateCall (fun _ _ => repository.store_call _) moment session
  | updateOne filter spec =>
    rw [perform, map_apply]
    exact repository.store_updateOne filter spec moment session
  | updateById key spec =>
    rw [perform, map_apply]
    exact repository.store_updateOne _ spec moment session
  | findOneAndUpdate filter spec =>
    rw [perform, map_apply]
    exact repository.store_updateCall (fun _ _ => repository.makes_call_bind _ fun _ =>
      keepsStore_ofExcept _) moment session
  | updateMany filter spec =>
    rw [perform, map_apply]
    exact repository.store_updateCall (fun _ _ => repository.makes_call_bind _ fun _ =>
      keepsStore_pure _) moment session
  | deleteOne filter =>
    rw [perform, map_apply]
    exact repository.store_deleteOne filter moment session
  | deleteById key =>
    rw [perform, map_apply]
    exact repository.store_deleteOne _ moment session
  | deleteMany filter =>
    rw [perform, map_apply]
    exact repository.store_deleteMany filter moment session
  | _ => exact repository.keepsStore_read rfl moment session

end Repository

end DocStore
