import DocStore.Model.Record
import DocStore.Proofs.KeyedAccess

/-! # Failed operations

An operation does everything that can fail before its call writes, and a call that is refused writes
nothing. So an operation that fails has no effect on its collection (`Action.FailsCleanly`), but for
the three that read a document after they have written it: where only that fails, the write stands
(`Repository.FailsToReadBack`), and nothing takes it back. -/

namespace DocStore

/-- Whether an operation reads a document that it has written. -/
def Operation.readsBack {α : Type} : Operation α → Bool
  | .create _ | .findOneOrCreate _ _ | .findOneAndUpdate _ _ => true
  | _ => false

/-- The error that an operation ends with, if it does; a stream ends with its own. -/
def failure? {α : Type} : Except Error (Answer α) → Option Error
  | .error error => some error
  | .ok (.stream stream) => stream.failure
  | .ok _ => none

/-- Reading what may be there fails on a document. -/
theorem Model.exists_of_decodeOption {α : Type} {model : Model α} {found : Option Document}
    {error : Error} (h : model.decodeOption found = .error error) :
    ∃ doc, found = some doc ∧ model.decode doc = .error error := by
  cases found with
  | none => cases h
  | some doc =>
    rw [decodeOption] at h
    cases hdoc : model.decode doc with
    | ok value => rw [hdoc] at h; cases h
    | error fault => rw [hdoc] at h; cases h; exact ⟨doc, rfl, hdoc⟩

namespace Store

variable {store store' : Store} {now : DateTime} {collection : String} {query update : Document}

variable [Runtime]

/-- An update of the first match that finds none writes nothing. -/
theorem eq_of_updateOne {outcome : Collection.UpdateOutcome}
    (h : store.updateOne now collection query update false = .ok (outcome, store'))
    (hnone : outcome.matched = 0) : store' = store := by
  rw [updateOne] at h
  dsimp only at h
  split at h
  · cases h
  · split at h
    · cases h
    · cases h
      cases hnone
  · rw [if_neg Bool.false_ne_true] at h
    cases h
    rfl

/-- A removal of the first match that finds none removes nothing. -/
theorem documents_of_deleteOne {count : Nat}
    (h : store.deleteOne collection query = .ok (count, store')) (hnone : count = 0) :
    store'.documents collection = store.documents collection := by
  obtain ⟨⟨found, docs⟩, hdelete, heq⟩ := Outcome.map_eq_ok_iff.mp h
  cases heq
  obtain ⟨first, -, heq⟩ := Outcome.map_eq_ok_iff.mp hdelete
  cases first with
  | none =>
    cases heq
    exact documents_withDocuments_self _ _ _
  | some match_ =>
    cases heq
    cases hnone

/-- An update that stores a document where it finds none always gives one. -/
theorem exists_of_findOneAndUpdate {options : QueryOptions} {reply : Option Document}
    (h : store.findOneAndUpdate now collection query update options true = .ok (reply, store')) :
    ∃ doc, reply = some doc := by
  rw [findOneAndUpdate] at h
  dsimp only at h
  split at h
  · cases h
  · split at h
    · cases h
    · cases h
      exact ⟨_, rfl⟩
  · rw [if_pos rfl] at h
    obtain ⟨stored, -, heq⟩ := Outcome.map_eq_ok_iff.mp h
    cases heq
    exact ⟨_, rfl⟩

end Store

namespace Action

variable {α β : Type} {collection : String}

/-- An action that **fails without effect** on a collection: where it gives an error, the documents
are what they were before. -/
def FailsCleanly (collection : String) (action : Action α) : Prop :=
  ∀ moment session error, (action moment session).1 = .error error →
    (action moment session).2.store.documents collection = session.store.documents collection

theorem KeepsStore.failsCleanly {action : Action α} (h : KeepsStore action) :
    FailsCleanly collection action := by
  intro moment session error _
  rw [h]

theorem error_of_map {f : α → β} {action : Action α} {moment : Moment} {session : Session}
    {error : Error} (h : ((f <$> action) moment session).1 = .error error) :
    (action moment session).1 = .error error := by
  rw [map_apply] at h
  dsimp only at h
  cases houtcome : (action moment session).1 with
  | ok value => rw [houtcome] at h; cases h
  | error fault => rw [houtcome] at h; cases h; rfl

theorem FailsCleanly.map {action : Action α} (h : FailsCleanly collection action) (f : α → β) :
    FailsCleanly collection (f <$> action) := by
  intro moment session error herror
  rw [map_apply]
  exact h moment session error (error_of_map herror)

/-- What comes before an action without touching the store adds nothing to what the action does. -/
theorem FailsCleanly.after {action : Action α} (hkeeps : KeepsStore action)
    {next : α → Action β} (h : ∀ value, FailsCleanly collection (next value)) :
    FailsCleanly collection (action >>= next) := by
  intro moment session error herror
  have hkept := hkeeps moment session
  rw [bind_apply] at herror ⊢
  generalize action moment session = result at hkept herror ⊢
  obtain ⟨outcome, after⟩ := result
  dsimp only at hkept
  rw [← hkept]
  cases outcome with
  | error fault => rfl
  | ok value => exact h value moment after error herror

end Action

namespace Repository

open DocStore.Action

variable {α β : Type} (repository : Repository α)

/-! ## Actions that fail without effect -/

theorem keepsStore_compileUpdate (context : UpdateContext) (spec : Document) :
    KeepsStore (repository.compileUpdate context spec) := by
  intro moment session
  rw [compileUpdate_apply]

theorem keepsStore_deletionUpdate : KeepsStore repository.deletionUpdate := by
  intro moment session
  rw [deletionUpdate_apply]

section

variable [Runtime]

/-- **A call fails without effect**, also with what follows it, if the documents are what they were
wherever what follows can fail. -/
theorem failsCleanly_call_bind {kind : ReplyKind} (call : Call kind)
    {next : kind.Reply → Action β} (hkeeps : ∀ reply, KeepsStore (next reply))
    (hnext : ∀ now store reply store', call.run now store = .ok (reply, store') →
      (∀ moment session, ∃ value, (next reply moment session).1 = .ok value) ∨
        store'.documents repository.collection = store.documents repository.collection) :
    FailsCleanly repository.collection (repository.call call >>= next) := by
  intro moment session error herror
  rw [store_bind hkeeps, store_call, storeAfter]
  by_cases hlate : moment.latency.exceeds repository.options.timeout = true
  · -- a call that takes too long is given up before the store does anything
    rw [if_pos hlate]
  · rw [if_neg hlate, Store.answer]
    rw [bind_apply, repository.call_apply call (Bool.not_eq_true _ ▸ hlate), Store.answer] at herror
    cases hrun : call.run moment.now session.store with
    | error fault => rfl
    | ok result =>
      rw [hrun] at herror
      -- the call is carried out, so it is what follows that has failed
      rcases hnext _ _ _ _ hrun with hok | hkept
      · obtain ⟨value, hvalue⟩ := hok moment
          { session with calls := session.calls ++ [⟨kind, call⟩], store := result.2 }
        rw [hvalue] at herror
        cases herror
      · exact hkept

theorem failsCleanly_call {kind : ReplyKind} (call : Call kind) :
    FailsCleanly repository.collection (repository.call call) := by
  rw [← bind_pure (repository.call call)]
  exact repository.failsCleanly_call_bind call keepsStore_pure
    fun _ _ reply _ _ => Or.inl fun _ _ => ⟨reply, rfl⟩

/-- A call that is refused where it touches nothing fails without effect. -/
theorem failsCleanly_affected {kind : ReplyKind} (call : Call kind) (count : kind.Reply → Nat)
    (h : ∀ now store reply store', call.run now store = .ok (reply, store') → count reply = 0 →
      store'.documents repository.collection = store.documents repository.collection) :
    FailsCleanly repository.collection (do
      let reply ← repository.call call
      affected (count reply)) := by
  refine repository.failsCleanly_call_bind call (fun _ => keepsStore_ofExcept _) ?_
  intro now store reply store' hrun
  by_cases hnone : count reply = 0
  · exact Or.inr (h now store reply store' hrun hnone)
  · refine Or.inl fun moment session => ⟨(), ?_⟩
    rw [affected, if_neg hnone]
    rfl

/-- An update of the first match that has to be there fails without effect. -/
theorem failsCleanly_updateFirst (query update : Document) :
    FailsCleanly repository.collection (do
      let outcome ← repository.call (.updateOne repository.collection query update false)
      affected outcome.matched) := by
  refine repository.failsCleanly_affected (.updateOne repository.collection query update false)
    Collection.UpdateOutcome.matched fun now store outcome store' hrun hnone => ?_
  rw [Store.eq_of_updateOne hrun hnone]

/-- An update of all matches fails without effect. -/
theorem failsCleanly_updateAll (query update : Document) :
    FailsCleanly repository.collection (do
      let outcome ← repository.call (.updateMany repository.collection query update)
      return outcome.modified) :=
  repository.failsCleanly_call_bind _ (fun _ => keepsStore_pure _)
    fun _ _ outcome _ _ => Or.inl fun _ _ => ⟨outcome.modified, rfl⟩

theorem failsCleanly_insert (value : α) :
    FailsCleanly repository.collection (repository.insert value) :=
  .after (keepsStore_ofExcept _) fun _ => .after (fun _ _ => rfl) fun _ =>
    repository.failsCleanly_call _

theorem failsCleanly_updateOne (filter : Filter) (spec : Document) :
    FailsCleanly repository.collection (repository.updateOne filter spec) :=
  .after (repository.keepsStore_compile filter) fun _ =>
    .after (repository.keepsStore_compileUpdate _ spec) fun _ =>
      repository.failsCleanly_updateFirst _ _

theorem failsCleanly_deleteOne (filter : Filter) :
    FailsCleanly repository.collection (repository.deleteOne filter) := by
  refine .after (repository.keepsStore_compile filter) fun compiled =>
    .after repository.keepsStore_deletionUpdate fun update => ?_
  cases update with
  | some update => exact repository.failsCleanly_updateFirst _ _
  | none =>
    exact repository.failsCleanly_affected (.deleteOne repository.collection compiled.query) id
      fun _ _ _ _ hrun hnone => Store.documents_of_deleteOne hrun hnone

theorem failsCleanly_deleteMany (filter : Filter) :
    FailsCleanly repository.collection (repository.deleteMany filter) := by
  refine .after (repository.keepsStore_compile filter) fun compiled =>
    .after repository.keepsStore_deletionUpdate fun update => ?_
  cases update with
  | some update => exact repository.failsCleanly_updateAll _ _
  | none => exact repository.failsCleanly_call _

/-- **An operation that does not read what it has written** fails without effect. -/
theorem failsCleanly_perform {operation : Operation α} (h : operation.readsBack = false) :
    FailsCleanly repository.collection (repository.perform operation) := by
  cases operation with
  | create value | findOneOrCreate filter value | findOneAndUpdate filter spec => cases h
  | insert value => exact (repository.failsCleanly_insert value).map _
  | upsert filter spec =>
    exact (FailsCleanly.after (repository.keepsStore_compile filter) fun _ =>
      .after (repository.keepsStore_compileUpdate _ spec) fun _ =>
        repository.failsCleanly_call _).map _
  | updateOne filter spec => exact (repository.failsCleanly_updateOne filter spec).map _
  | updateById key spec => exact (repository.failsCleanly_updateOne _ spec).map _
  | updateMany filter spec =>
    exact (FailsCleanly.after (repository.keepsStore_compile filter) fun _ =>
      .after (repository.keepsStore_compileUpdate _ spec) fun _ =>
        repository.failsCleanly_updateAll _ _).map _
  | deleteOne filter => exact (repository.failsCleanly_deleteOne filter).map _
  | deleteById key => exact (repository.failsCleanly_deleteOne _).map _
  | deleteMany filter => exact (repository.failsCleanly_deleteMany filter).map _
  | _ => exact (repository.keepsStore_read rfl).failsCleanly

/-! ## Reading back -/

/-- **Failing to read back**: the write of an operation is carried out, and only reading the written
document fails. The documents are then what the write has made of them. -/
inductive FailsToReadBack (moment : Moment) (session : Session) :
    Operation α → Error → List Document → Prop
  /-- The value is stored, but reading it by its key fails or finds nothing. -/
  | stored {value : α} {key : Value} {after : Session} {error : Error} :
    repository.insert value moment session = (.ok key, after) →
    ((repository.findById key .all moment after).1 = .error error ∨
      ((repository.findById key .all moment after).1 = .ok none ∧ error = .notFound)) →
    FailsToReadBack moment session (.create value) error (repository.stored after)
  /-- The document is updated or stored, but what is shown of it can not be read. -/
  | updated {operation : Operation α} {query update : Document} {options : QueryOptions}
      {upsert : Bool} {doc : Document} {store : Store} {error : Error} :
    repository.writeCall moment.now operation
      = some ⟨_, .findOneAndUpdate repository.collection query update options upsert⟩ →
    session.store.findOneAndUpdate moment.now repository.collection query update options upsert
      = .ok (some doc, store) →
    repository.model.decode doc = .error error →
    FailsToReadBack moment session operation error (store.documents repository.collection)

/-- Storing a value and reading it back fails without effect, or fails to read it back. -/
theorem failed_create {value : α} {moment : Moment} {session : Session} {error : Error}
    (h : (repository.create value moment session).1 = .error error) :
    repository.stored (repository.create value moment session).2 = repository.stored session ∨
      repository.FailsToReadBack moment session (.create value) error
        (repository.stored (repository.create value moment session).2) := by
  -- reading leaves the store as storing has left it
  have hstored : repository.stored (repository.create value moment session).2
      = repository.stored (repository.insert value moment session).2 := by
    rw [Repository.stored, store_create, ← Repository.stored]
  have hinsert := repository.failsCleanly_insert value moment session
  rw [create, bind_apply] at h
  rw [hstored]
  rcases hgiven : repository.insert value moment session with ⟨outcome, after⟩
  rw [hgiven] at h hinsert
  cases outcome with
  | error fault => exact Or.inl (hinsert fault rfl)
  | ok key =>
    refine Or.inr (.stored hgiven ?_)
    dsimp only at h
    rw [bind_apply] at h
    rcases hread : repository.findById key .all moment after with ⟨answer, later⟩
    rw [hread] at h
    cases answer with
    | error fault => cases h; exact Or.inl rfl
    | ok found? =>
      cases found? with
      | none => cases h; exact Or.inr ⟨rfl, rfl⟩
      | some value => cases h

/-- **An update that reads what it has written** fails without effect, or on a document that it has
written. -/
theorem failed_call {query update : Document} {options : QueryOptions} {upsert : Bool}
    {next : Option Document → Action β} {moment : Moment} {session : Session} {error : Error}
    (hkeeps : ∀ reply, KeepsStore (next reply))
    (hnext : ∀ reply session, (next reply moment session).1 = .error error →
      (reply = none ∧ upsert = true) ∨
        ∃ doc, reply = some doc ∧ repository.model.decode doc = .error error)
    (h : ((repository.call (.findOneAndUpdate repository.collection query update options upsert)
      >>= next) moment session).1 = .error error) :
    let after := ((repository.call (.findOneAndUpdate repository.collection query update options
      upsert) >>= next) moment session).2
    repository.stored after = repository.stored session ∨
      ∃ doc store, session.store.findOneAndUpdate moment.now repository.collection query update
          options upsert = .ok (some doc, store) ∧
        repository.model.decode doc = .error error ∧
        repository.stored after = store.documents repository.collection := by
  dsimp only
  rw [Repository.stored, store_bind hkeeps, store_call, storeAfter]
  by_cases hlate : moment.latency.exceeds repository.options.timeout = true
  · rw [if_pos hlate]
    exact Or.inl rfl
  · rw [bind_apply, repository.call_apply _ (Bool.not_eq_true _ ▸ hlate), Store.answer] at h
    rw [if_neg hlate, Store.answer]
    cases hrun : Call.run (.findOneAndUpdate repository.collection query update options upsert)
        moment.now session.store with
    | error fault => exact Or.inl rfl
    | ok result =>
      obtain ⟨reply, store⟩ := result
      rw [hrun] at h
      rcases hnext _ _ h with ⟨rfl, rfl⟩ | ⟨doc, rfl, hdoc⟩
      · -- an update that stores a document where it finds none always gives one
        obtain ⟨doc, hdoc⟩ := Store.exists_of_findOneAndUpdate hrun
        cases hdoc
      · exact Or.inr ⟨doc, store, hrun, hdoc, rfl⟩

/-- An operation that compiles a filter and an update, and then updates and reads a document, fails
without effect, or fails to read it back. -/
theorem failed_updating {operation : Operation α} {context : UpdateContext} {filter : Filter}
    {spec : Document} {upsert : Bool} {next : Option Document → Action β} {moment : Moment}
    {session : Session} {error : Error}
    (hcall : repository.writeCall moment.now operation
      = repository.updateCall context moment.now filter spec fun compiled update =>
        ⟨_, .findOneAndUpdate repository.collection compiled.query update compiled.options upsert⟩)
    (hkeeps : ∀ reply, KeepsStore (next reply))
    (hnext : ∀ reply session, (next reply moment session).1 = .error error →
      (reply = none ∧ upsert = true) ∨
        ∃ doc, reply = some doc ∧ repository.model.decode doc = .error error) :
    let action : Action β := do
      let compiled ← repository.compile filter
      let update ← repository.compileUpdate context spec
      let reply ← repository.call (.findOneAndUpdate repository.collection compiled.query update
        compiled.options upsert)
      next reply
    (action moment session).1 = .error error →
    repository.stored (action moment session).2 = repository.stored session ∨
      repository.FailsToReadBack moment session operation error
        (repository.stored (action moment session).2) := by
  intro action h
  simp only [action] at h ⊢
  rw [bind_apply, compile_apply] at h ⊢
  cases hfilter : repository.restricted filter with
  | error fault => exact Or.inl rfl
  | ok compiled =>
    rw [hfilter] at h
    dsimp only at h ⊢
    rw [bind_apply, compileUpdate_apply] at h ⊢
    dsimp only at h ⊢
    cases hcompile : (UpdateSpec.compile repository.policy context moment.now spec).2 with
    | error fault => exact Or.inl rfl
    | ok update =>
      rw [hcompile] at h
      rw [updateCall, hfilter, hcompile] at hcall
      rcases repository.failed_call hkeeps hnext h with hkept | ⟨doc, store, hrun, hdoc, hstored⟩
      · exact Or.inl hkept
      · refine Or.inr ?_
        dsimp only
        rw [hstored]
        exact .updated hcall hrun hdoc

theorem failed_findOneAndUpdate {filter : Filter} {spec : Document} {moment : Moment}
    {session : Session} {error : Error}
    (h : (repository.findOneAndUpdate filter spec moment session).1 = .error error) :
    repository.stored (repository.findOneAndUpdate filter spec moment session).2
        = repository.stored session ∨
      repository.FailsToReadBack moment session (.findOneAndUpdate filter spec) error
        (repository.stored (repository.findOneAndUpdate filter spec moment session).2) :=
  repository.failed_updating rfl (fun _ => keepsStore_ofExcept _)
    (fun _ _ herror => Or.inr (Model.exists_of_decodeOption herror)) h

theorem failed_findOneOrCreate {filter : Filter} {value : α} {moment : Moment}
    {session : Session} {error : Error}
    (h : (repository.findOneOrCreate filter value moment session).1 = .error error) :
    repository.stored (repository.findOneOrCreate filter value moment session).2
        = repository.stored session ∨
      repository.FailsToReadBack moment session (.findOneOrCreate filter value) error
        (repository.stored (repository.findOneOrCreate filter value moment session).2) := by
  cases hdoc : repository.model.toDocument value with
  | error fault =>
    rw [Repository.stored, store_findOneOrCreate, writeCall, hdoc]
    exact Or.inl rfl
  | ok doc =>
    rw [repository.findOneOrCreate_of_document hdoc] at h ⊢
    refine repository.failed_updating (by rw [writeCall, hdoc]; rfl)
      (fun _ => (keepsStore_ofExcept _).bind fun _ => keepsStore_ofExcept _) ?_ h
    intro reply session herror
    rw [bind_apply, Action.ofExcept] at herror
    cases hread : repository.model.decodeOption reply with
    | error fault =>
      rw [hread] at herror
      cases herror
      exact Or.inr (Model.exists_of_decodeOption hread)
    | ok found? =>
      rw [hread] at herror
      cases reply with
      | none => exact Or.inl ⟨rfl, rfl⟩
      | some doc =>
        obtain ⟨value, -, rfl⟩ := Outcome.map_eq_ok_iff.mp hread
        cases herror

/-- Only an operation that reads is answered with a stream. -/
theorem isRead_of_stream {operation : Operation α} {moment : Moment} {session : Session}
    {stream : Streamed α}
    (h : (repository.perform operation moment session).1 = .ok (.stream stream)) :
    operation.isRead = true := by
  cases operation with
  | findStream filter => rfl
  | _ =>
    rw [perform, map_apply] at h
    obtain ⟨reply, -, heq⟩ := Outcome.map_eq_ok_iff.mp h
    cases heq

/-- **An operation that fails has no effect** on the documents of the collection, whatever the error
is, unless it is one of the three that read a document which they have written, and only that
reading fails. -/
theorem stored_of_failed {operation : Operation α} {moment : Moment} {session : Session}
    {error : Error}
    (h : failure? (repository.perform operation moment session).1 = some error) :
    repository.stored (repository.perform operation moment session).2
        = repository.stored session ∨
      (operation.readsBack = true ∧
        repository.FailsToReadBack moment session operation error
          (repository.stored (repository.perform operation moment session).2)) := by
  cases hanswer : (repository.perform operation moment session).1 with
  | error fault =>
    rw [hanswer] at h
    cases h
    cases hreads : operation.readsBack with
    | false => exact Or.inl (repository.failsCleanly_perform hreads moment session error hanswer)
    | true =>
      refine Or.imp_right (⟨rfl, ·⟩) ?_
      cases operation with
      | create value =>
        rw [perform, map_apply]
        exact repository.failed_create (error_of_map hanswer)
      | findOneOrCreate filter value =>
        rw [perform, map_apply]
        exact repository.failed_findOneOrCreate (error_of_map hanswer)
      | findOneAndUpdate filter spec =>
        rw [perform, map_apply]
        exact repository.failed_findOneAndUpdate (error_of_map hanswer)
      | _ => cases hreads
  | ok answer =>
    cases answer with
    | stream stream =>
      rw [Repository.stored, repository.keepsStore_read (repository.isRead_of_stream hanswer)]
      exact Or.inl rfl
    | _ => rw [hanswer] at h; cases h

end

/-- Posts that have to have a title. -/
def posts : Repository Document :=
  ⟨.ofRecords "Post" "Posts" "posts" "default"
      [⟨"id", "_id", "ObjectId", .objectId, .optional, true⟩,
        ⟨"title", "title", "String", .string, .required, true⟩,
        ⟨"views", "views", "i64", .int64, .default (.int64 0), true⟩],
    ⟨"Post", [("id", ⟨"_id", .objectId⟩), ("title", ⟨"title", .string⟩),
      ("views", ⟨"views", .int64⟩)]⟩, {}⟩

/-- An update of a post that is to be read without its title fails, and the post is updated. -/
theorem update_stands_where_reading_fails :
    ∃ (filter : Filter) (spec : Document) (moment : Moment) (session : Session),
      moment.latency.exceeds posts.options.timeout = false ∧
      (posts.perform (.findOneAndUpdate filter spec) moment session).1
        = .error .deserialization ∧
      posts.stored session
        = [[("_id", .objectId ⟨1⟩), ("title", .string "a"), ("views", .int64 1)]] ∧
      posts.stored (posts.perform (.findOneAndUpdate filter spec) moment session).2
        = [[("_id", .objectId ⟨1⟩), ("title", .string "a"), ("views", .int64 5)]] := by
  refine ⟨{ condition := .field "title" (.eq (.string "a")), fields := [("title", false)] },
    [("views", .int64 5)], ⟨⟨2000⟩, ⟨0, 0⟩⟩,
    ⟨⟨[("posts", [[("_id", .objectId ⟨1⟩), ("title", .string "a"), ("views", .int64 1)]])],
      .ofSource ⟨0, 0, 0⟩⟩, [], []⟩, rfl, rfl, rfl, rfl⟩

/-- A post that is not there is not updated; one that is updated and can not be read without its
title stays updated. -/
theorem stored_of_failed_posts :
    ∃ (missing read : Operation Document) (moment : Moment) (session : Session),
      (posts.perform missing moment session).1 = .error .notFound ∧
      posts.stored (posts.perform missing moment session).2 = posts.stored session ∧
      (posts.perform read moment session).1 = .error .deserialization ∧
      posts.FailsToReadBack moment session read .deserialization
        (posts.stored (posts.perform read moment session).2) := by
  let post (views : Int64) : Document :=
    [("_id", .objectId ⟨1⟩), ("title", .string "a"), ("views", .int64 views)]
  let missing : Operation Document :=
    .updateOne { condition := .field "title" (.eq (.string "b")) } [("views", .int64 5)]
  let read : Operation Document :=
    .findOneAndUpdate
      { condition := .field "title" (.eq (.string "a")), fields := [("title", false)] }
      [("views", .int64 5)]
  let moment : Moment := ⟨⟨2000⟩, ⟨0, 0⟩⟩
  let session : Session := ⟨⟨[("posts", [post 1])], .ofSource ⟨0, 0, 0⟩⟩, [], []⟩
  have hmissing : failure? (posts.perform missing moment session).1 = some .notFound := rfl
  have hread : failure? (posts.perform read moment session).1 = some .deserialization := rfl
  have hwritten : posts.stored (posts.perform read moment session).2 ≠ posts.stored session := by
    show [post 5] ≠ [post 1]
    simp [post]
  refine ⟨missing, read, moment, session, rfl, ?_, rfl,
    ((posts.stored_of_failed hread).resolve_left hwritten).2⟩
  rcases posts.stored_of_failed hmissing with hkept | ⟨hreads, -⟩
  · exact hkept
  · cases hreads

end Repository

end DocStore
