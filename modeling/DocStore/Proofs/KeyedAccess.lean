import DocStore.Proofs.Birth
import DocStore.Proofs.KeyQueries

/-! # Access by key

A repository reads, updates and deletes by a key through a query for the key. Where that query has
an only match, each of these acts on that document and on no other (`Repository.ActsByKey`), and what
is created is read back from the document that was stored for it. After any run of insertions this is
so for every stored key that stands alone (`keys_of_insertions`). -/

namespace DocStore

open Collection (OnlyMatch)

/-- Whether filters refer to the key of documents by its name. -/
def Schema.ResolvesKey (schema : Schema) : Prop :=
  ∃ info, schema.resolve idField = .ok info ∧ info.storageName = idField

namespace Collection

variable [Runtime] {query : Document} {docs : List Document} {position : Nat} {doc : Document}

/-- Where all documents are shown, a restricted query has the same only match. -/
theorem OnlyMatch.restrict (h : OnlyMatch query position doc docs) {policy : Policy}
    (hshown : policy.deleted = true → ∀ doc ∈ docs, doc.isShown = true) :
    OnlyMatch (policy.restrict query) position doc docs := by
  refine ⟨h.stored, fun other doc' hdoc' => ?_⟩
  rw [holds_restrict, h.holds other doc' hdoc']
  split
  · rename_i hdeleted
    rw [hshown hdeleted doc' (List.mem_of_getElem? hdoc'), FieldTest.both_true_right]
  · rfl

/-- The only match is what a reader finds. -/
theorem OnlyMatch.findOne (h : OnlyMatch query position doc docs) :
    findOne query {} docs = .ok (some doc) := by
  rw [Collection.findOne, Collection.find, h.select]
  rfl

theorem OnlyMatch.deleteOne (h : OnlyMatch query position doc docs) :
    deleteOne query docs = .ok (1, docs.eraseIdx position) := by
  rw [Collection.deleteOne, h.first?]
  rfl

end Collection

/-- Whether an operation stores a value and does nothing else. -/
def Operation.isInsertion {α : Type} : Operation α → Bool
  | .insert _ | .create _ => true
  | _ => false

namespace Repository

open DocStore.Action (bind_apply map_apply)
open Collection (AllKeyed DistinctKeys)

variable {α : Type} {repository : Repository α} {moment : Moment} {session : Session}
  {key : Value} {position : Nat} {doc : Document}

/-! ## Inserting -/

/-- **What an insertion does**: it fails and the store stays, or it stores a stamped document behind
all others under a key that is free, and answers with that key. -/
inductive Insertion (repository : Repository α) (moment : Moment) (session : Session) :
    Except Error Value × Session → Prop
  | refused {error : Error} {after : Session} (h : after.store = session.store) :
    Insertion repository moment session (.error error, after)
  | stored {key : Value} {after : Session} (doc asked : Document)
      (hkey : Entries.get? doc idField = some key)
      (hfree : Collection.hasKey key (repository.stored session) = false)
      (hstamped : Collection.IsKeyed (repository.policy.stamp moment.now asked) doc)
      (h : repository.stored after = repository.stored session ++ [doc]) :
    Insertion repository moment session (.ok key, after)

/-- **Documents that were inserted**: they have distinct keys, and a repository that hides documents
shows them. -/
structure Inserted (repository : Repository α) (docs : List Document) : Prop where
  keyed : AllKeyed docs
  distinct : DistinctKeys docs
  shown : repository.policy.deleted = true → ∀ doc ∈ docs, doc.isShown = true

/-- An insertion goes on with inserted documents. -/
theorem Insertion.inserted {result : Except Error Value × Session}
    (h : repository.Insertion moment session result)
    (hinserted : repository.Inserted (repository.stored session)) :
    repository.Inserted (repository.stored result.2) := by
  cases h with
  | refused hkept =>
    rw [Repository.stored, hkept]
    exact hinserted
  | @stored key after doc asked hkey hfree hstamped hafter =>
    have hkeys : Collection.primaryKeys (repository.stored session ++ [doc])
        = Collection.primaryKeys (repository.stored session) ++ [some key] := by
      rw [Collection.primaryKeys_append, Collection.primaryKeys, Collection.primaryKeys,
        List.map_singleton, hkey]
    dsimp only
    rw [hafter]
    refine ⟨hinserted.keyed.append hkeys,
      (Collection.distinctKeys_append_iff hkeys).mpr ⟨hinserted.distinct, hfree⟩, ?_⟩
    intro hdeleted stored hmem
    rcases List.mem_append.mp hmem with hold | hnew
    · exact hinserted.shown hdeleted stored hold
    · have hnull := hstamped deletedField (by decide)
      rw [get?_deletedField_stamp hdeleted] at hnull
      rw [List.mem_singleton.mp hnew, Document.isShown, Deletion.ofDocument, hnull]
      rfl

/-! ## Reading by a key -/

/-- The filter for a key compiles to the query for the key. -/
theorem restricted_hasKey (h : repository.schema.ResolvesKey) (key : Value) :
    repository.restricted { condition := .hasKey key }
      = .ok ⟨repository.policy.restrict (Query.byKey key), {}⟩ := by
  obtain ⟨info, hresolve, hname⟩ := h
  rw [restricted, Filter.compile_hasKey hresolve, hname]
  rfl

variable [Runtime]

/-- Reading by a key gives the document that alone matches. -/
theorem findById_of_onlyMatch (hschema : repository.schema.ResolvesKey)
    (hintime : moment.latency.exceeds repository.options.timeout = false)
    (h : OnlyMatch (repository.policy.restrict (Query.byKey key)) position doc
      (repository.stored session)) :
    (repository.findById key .all moment session).1 = repository.model.decodeOption (some doc) := by
  have hfind : repository.findById key .all = repository.findOne { condition := .hasKey key } := rfl
  rw [hfind, findOne, bind_apply, compile_apply, restricted_hasKey hschema]
  dsimp only
  rw [loadFirst, bind_apply, repository.call_apply _ hintime, Store.answer, Call.run]
  have hread := h.findOne
  rw [stored] at hread
  rw [hread]
  rfl

/-! ## Updating and deleting by a key -/

/-- What an update makes of a document on its own. -/
def revision (now : DateTime) (update doc : Document) : Except Error (Option Document) :=
  match Collection.updated now update doc with
  | .error fault => .error (.store fault)
  | .ok doc' => .ok (some doc')

/-- What the caller's update makes of a document on its own. -/
def updatedAlone (repository : Repository α) (now : DateTime) (spec doc : Document) :
    Except Error (Option Document) :=
  (UpdateSpec.compile repository.policy .update now spec).2.bind fun update =>
    revision now update doc

/-- What a deletion makes of a document on its own: it is hidden or removed. -/
def deletedAlone (repository : Repository α) (now : DateTime) (doc : Document) :
    Except Error (Option Document) :=
  (repository.policy.deletionUpdate now).bind fun update? =>
    match update? with
    | some update => revision now update doc
    | none => .ok none

/-- The answer of an action that comes to an outcome for the document at a position, and the documents
afterwards: it fails and they stay, or that one is replaced or removed and all others stay. -/
def settled (docs : List Document) (position : Nat) :
    Except Error (Option Document) → Except Error Unit × List Document
  | .error error => (.error error, docs)
  | .ok (some doc') => (.ok (), docs.set position doc')
  | .ok none => (.ok (), docs.eraseIdx position)

/-- **An action on one document**, the one at a position, comes to an outcome for that document and
touches no other. -/
def ActsOn (repository : Repository α) (action : Action Unit) (moment : Moment) (session : Session)
    (position : Nat) (outcome : Except Error (Option Document)) : Prop :=
  ((action moment session).1, repository.stored (action moment session).2)
    = settled (repository.stored session) position outcome

/-- An update of the document that alone matches acts on it. -/
theorem actsOn_updateOne {query update : Document}
    (hintime : moment.latency.exceeds repository.options.timeout = false)
    (h : OnlyMatch query position doc (repository.stored session)) :
    ActsOn repository (do
      let outcome ← repository.call (.updateOne repository.collection query update false)
      affected outcome.matched) moment session position (revision moment.now update doc) := by
  have hfirst := h.first?
  rw [stored] at hfirst
  rw [ActsOn, revision, bind_apply, repository.call_apply _ hintime, Store.answer, Call.run,
    Store.updateOne]
  dsimp only
  rw [hfirst]
  dsimp only
  cases Collection.updated moment.now update doc with
  | error fault => rfl
  | ok doc' => exact Prod.ext rfl (Store.documents_withDocuments_self _ _ _)

/-- Removing the document that alone matches acts on it. -/
theorem actsOn_deleteOne {query : Document}
    (hintime : moment.latency.exceeds repository.options.timeout = false)
    (h : OnlyMatch query position doc (repository.stored session)) :
    ActsOn repository (do
      affected (← repository.call (.deleteOne repository.collection query))) moment session position
      (.ok none) := by
  have hdelete := h.deleteOne
  rw [stored] at hdelete
  rw [ActsOn, bind_apply, repository.call_apply _ hintime, Store.answer, Call.run,
    Store.deleteOne, hdelete]
  exact Prod.ext rfl (Store.documents_withDocuments_self _ _ _)

/-- Updating by a key acts on the document that alone matches, as the update does on its own. -/
theorem actsOn_updateById (hschema : repository.schema.ResolvesKey)
    (hintime : moment.latency.exceeds repository.options.timeout = false)
    (h : OnlyMatch (repository.policy.restrict (Query.byKey key)) position doc
      (repository.stored session)) (spec : Document) :
    ActsOn repository (repository.updateById key spec) moment session position
      (repository.updatedAlone moment.now spec doc) := by
  have haction : (repository.updateById key spec) moment session
      = (do
        let update ← repository.compileUpdate .update spec
        let outcome ← repository.call (.updateOne repository.collection
          (repository.policy.restrict (Query.byKey key)) update false)
        affected outcome.matched : Action Unit) moment session := by
    rw [updateById, updateOne, bind_apply, compile_apply, restricted_hasKey hschema]
  rw [ActsOn, updatedAlone, haction, bind_apply, compileUpdate_apply]
  dsimp only
  cases (UpdateSpec.compile repository.policy .update moment.now spec).2 with
  | error error => rfl
  | ok update => exact actsOn_updateOne hintime h

/-- Deleting by a key acts on the document that alone matches, as the deletion does on its own. -/
theorem actsOn_deleteById (hschema : repository.schema.ResolvesKey)
    (hintime : moment.latency.exceeds repository.options.timeout = false)
    (h : OnlyMatch (repository.policy.restrict (Query.byKey key)) position doc
      (repository.stored session)) :
    ActsOn repository (repository.deleteById key) moment session position
      (repository.deletedAlone moment.now doc) := by
  rw [ActsOn, deletedAlone, deleteById, deleteOne, bind_apply, compile_apply,
    restricted_hasKey hschema]
  dsimp only
  rw [bind_apply, deletionUpdate_apply]
  cases repository.policy.deletionUpdate moment.now with
  | error error => rfl
  | ok update? =>
    cases update? with
    | none => exact actsOn_deleteOne hintime h
    | some update => exact actsOn_updateOne hintime h

/-! ## Creating -/

/-- Inserting is an insertion. -/
theorem insertion_insert (repository : Repository α) (value : α) (moment : Moment)
    (session : Session) :
    repository.Insertion moment session (repository.insert value moment session) := by
  rw [insert, bind_apply, Action.ofExcept]
  cases repository.model.toDocument value with
  | error error => exact .refused rfl
  | ok asked =>
    dsimp only
    rw [bind_apply]
    show repository.Insertion moment session (repository.call (.insertOne repository.collection
      (repository.policy.stamp moment.now asked)) moment session)
    by_cases hlate : moment.latency.exceeds repository.options.timeout = true
    · rw [Repository.call, Action.call]
      dsimp only
      rw [if_pos hlate]
      exact .refused rfl
    · rw [repository.call_apply _ (Bool.not_eq_true _ ▸ hlate), Store.answer, Call.run,
        Store.insertOne]
      dsimp only
      split
      · rename_i hok
        split at hok
        · cases hok
        · rename_i hfree
          cases hok
          refine .stored (Store.keyed session.store.ids _).2.1 asked
            (Store.get?_keyed_idField _ _) (Bool.not_eq_true _ ▸ hfree)
            (fun field hne => Store.get?_keyed _ _ hne) ?_
          exact Store.documents_withDocuments_self _ _ _
      · exact .refused rfl

/-- Reading a document back does not change what was stored. -/
theorem store_create (repository : Repository α) (value : α) (moment : Moment)
    (session : Session) :
    (repository.create value moment session).2.store
      = (repository.insert value moment session).2.store :=
  Action.store_bind (fun _ => (repository.keepsStore_findOne _).bind
    fun _ => Action.keepsStore_ofExcept _) moment session

/-- Creating a value gives what is read from the document that was stored for it, if that one alone
matches its key. -/
theorem create_of_onlyMatch (hschema : repository.schema.ResolvesKey)
    (hintime : moment.latency.exceeds repository.options.timeout = false) {value : α}
    (hstored : repository.stored (repository.create value moment session).2
      = repository.stored session ++ [doc]) (hkey : Entries.get? doc idField = some key)
    (h : OnlyMatch (repository.policy.restrict (Query.byKey key)) position doc
      (repository.stored session ++ [doc])) :
    (repository.create value moment session).1 = repository.model.decode doc := by
  rw [Repository.stored, store_create] at hstored
  have hinsertion := repository.insertion_insert value moment session
  rw [create, bind_apply]
  generalize repository.insert value moment session = result at hstored hinsertion
  cases hinsertion with
  | refused hkept =>
    -- a collection is not itself with one document more
    rw [hkept, Repository.stored] at hstored
    exact absurd (List.self_eq_append_right.mp hstored) (List.cons_ne_nil _ _)
  | @stored key' after found asked hfound _ _ hafter =>
    have hstored' : repository.stored after = repository.stored session ++ [doc] := hstored
    rw [hafter] at hstored'
    cases List.singleton_inj.mp (List.append_cancel_left hstored')
    rw [hfound, Option.some.injEq] at hkey
    subst hkey
    rw [← hafter] at h
    have hread := findById_of_onlyMatch hschema hintime h
    dsimp only
    rw [bind_apply]
    generalize repository.findById _ .all moment after = read at hread
    obtain ⟨outcome, last⟩ := read
    dsimp only at hread
    rw [hread, Model.decodeOption]
    cases repository.model.decode doc <;> rfl

/-- **Acting by a key** on the document at a position: reading gives that document, updating and
deleting do to it what they do on its own, and no other document is touched. -/
structure ActsByKey (repository : Repository α) (moment : Moment) (session : Session)
    (position : Nat) (doc : Document) (key : Value) : Prop where
  reads : (repository.findById key .all moment session).1
      = repository.model.decodeOption (some doc) ∧
    repository.stored (repository.findById key .all moment session).2 = repository.stored session
  updates : ∀ spec, ActsOn repository (repository.updateById key spec) moment session position
    (repository.updatedAlone moment.now spec doc)
  deletes : ActsOn repository (repository.deleteById key) moment session position
    (repository.deletedAlone moment.now doc)

theorem actsByKey_of_onlyMatch (hschema : repository.schema.ResolvesKey)
    (hintime : moment.latency.exceeds repository.options.timeout = false)
    (h : OnlyMatch (repository.policy.restrict (Query.byKey key)) position doc
      (repository.stored session)) : ActsByKey repository moment session position doc key where
  reads := ⟨findById_of_onlyMatch hschema hintime h, by
    rw [stored, stored, findById, repository.keepsStore_findOne]⟩
  updates := actsOn_updateById hschema hintime h
  deletes := actsOn_deleteById hschema hintime h

/-! ## Runs of insertions -/

/-- Inserting and creating store alike. -/
theorem exists_insertion_of_perform (repository : Repository α) {operation : Operation α}
    (h : operation.isInsertion = true) (moment : Moment) (session : Session) :
    ∃ result, repository.Insertion moment session result ∧
      (repository.perform operation moment session).2.store = result.2.store := by
  cases operation with
  | insert value =>
    refine ⟨_, repository.insertion_insert value moment session, ?_⟩
    rw [perform, map_apply]
  | create value =>
    refine ⟨_, repository.insertion_insert value moment session, ?_⟩
    rw [perform, map_apply]
    exact repository.store_create value moment session
  | _ => cases h

/-- What a run of insertions leaves was inserted, by induction on the last of them. -/
theorem inserted_sessionAfter {steps : List (Moment × Operation α)}
    (hempty : repository.stored session = [])
    (hinsert : ∀ step ∈ steps, step.2.isInsertion = true) :
    repository.Inserted (repository.stored (repository.sessionAfter steps session)) := by
  induction steps using List.reverseRecOn with
  | nil =>
    rw [sessionAfter_nil, hempty]
    exact ⟨fun key hmem => absurd hmem List.not_mem_nil, List.Pairwise.nil,
      fun _ doc hmem => absurd hmem List.not_mem_nil⟩
  | append_singleton before step ih =>
    have hbefore := ih fun other hmem => hinsert other (List.mem_append_left _ hmem)
    have hstep := hinsert step (List.mem_append_right _ List.mem_cons_self)
    obtain ⟨result, hinsertion, hstore⟩ :=
      repository.exists_insertion_of_perform hstep step.1
        (repository.sessionAfter before session)
    rw [sessionAfter_concat, Repository.stored, hstore]
    exact hinsertion.inserted hbefore

end Repository

/-- Whether a request stores a document and does nothing else. -/
def Request.isInsertion : Request → Bool
  | .make ⟨_, .insertOne _ _⟩ => true
  | _ => false

/-- An insertion updates nothing and never collides. -/
theorem Request.sparesKey_of_isInsertion [Runtime] {request : Request}
    (h : request.isInsertion = true) :
    request.SparesKey ∧ ∀ (store : Store) (now : DateTime), ¬ store.Collides now request := by
  cases request with
  | drop name => cases h
  | make call =>
    obtain ⟨kind, call⟩ := call
    cases call with
    | insertOne name doc => exact ⟨fun _ hupdate => (nomatch hupdate), fun _ _ => id⟩
    | _ => cases h

open Collection (AllKeyed DistinctKeys RegularlyKeyed StandsAlone)

/-- Insertions into an empty collection leave every document with a key of its own. -/
theorem Store.keyed_of_insertions [Runtime] {store : Store} {name : String}
    (hempty : store.documents name = []) {requests : List (DateTime × Request)}
    (hinsert : ∀ step ∈ requests, step.2.isInsertion = true) :
    AllKeyed ((store.serveAll requests).documents name) ∧
      DistinctKeys ((store.serveAll requests).documents name) := by
  refine store.documents_serveAll_induction (fun docs => AllKeyed docs ∧ DistinctKeys docs)
    ?_ fun step hmem store hdocs => ?_
  · rw [hempty]
    exact ⟨fun key hmem => absurd hmem List.not_mem_nil, List.Pairwise.nil⟩
  · obtain ⟨hspares, hfree⟩ := Request.sparesKey_of_isInsertion (hinsert step hmem)
    have hstep := keyStep_serve store step.1 hspares
    exact ⟨hstep.allKeyed hdocs.1, (hstep.distinctKeys_iff hdocs.2).mpr (hfree store step.1)⟩

/-- **Stored keys after insertions.** Let a collection be empty. After any insertions into the store,
if the keys of the collection are regular, a query for a stored key selects exactly the document that
is stored under it if and only if the key is equal to itself and stands alone; if it does not stand
alone, there is another key that may be confused with it. After any values were inserted and created
through a repository of the collection, acting by such a key acts on its document only, and creating
a value gives what is read from the very document that was stored for it. -/
theorem keys_of_insertions [Runtime] {store : Store} {name : String}
    (hempty : store.documents name = []) :
    (∀ requests : List (DateTime × Request),
      (∀ step ∈ requests, step.2.isInsertion = true) →
      let docs := (store.serveAll requests).documents name
      RegularlyKeyed docs → ∀ (position : Nat) (doc : Document) (key : Value),
        docs[position]? = some doc → Entries.get? doc idField = some key →
        (Query.select (Query.byKey key) docs = .ok [doc]
          ↔ key.equal key = true ∧ StandsAlone docs position key) ∧
        (¬ StandsAlone docs position key → ∃ doc' ∈ docs, ∃ key',
          Entries.get? doc' idField = some key' ∧ key'.Confusable key)) ∧
    (∀ (α : Type) (repository : Repository α) (session : Session)
      (steps : List (Moment × Operation α)), repository.collection = name →
      repository.schema.ResolvesKey → session.store = store →
      (∀ step ∈ steps, step.2.isInsertion = true) →
      let reached := repository.sessionAfter steps session
      let docs := repository.stored reached
      RegularlyKeyed docs → ∀ (position : Nat) (doc : Document) (key : Value),
        docs[position]? = some doc → Entries.get? doc idField = some key →
        key.equal key = true → StandsAlone docs position key →
        (∀ moment : Moment, moment.latency.exceeds repository.options.timeout = false →
          repository.ActsByKey moment reached position doc key) ∧
        (∀ before (moment : Moment) value, steps = before ++ [(moment, .create value)] →
          moment.latency.exceeds repository.options.timeout = false →
          docs = repository.stored (repository.sessionAfter before session) ++ [doc] →
          (repository.create value moment (repository.sessionAfter before session)).1
            = repository.model.decode doc)) := by
  refine ⟨?_, ?_⟩
  · intro requests hinsert docs hregular position doc key hdoc hkey
    obtain ⟨hkeyed, hdistinct⟩ := Store.keyed_of_insertions hempty hinsert
    exact ⟨Collection.select_byKey_iff hkeyed hdistinct hregular hdoc hkey,
      Collection.exists_confusable_of_not_standsAlone hdistinct hregular hdoc hkey⟩
  · intro α repository session steps hname hschema hstore hinsert reached docs hregular position doc
      key hdoc hkey hself halone
    have hstart : repository.stored session = [] := by
      rw [Repository.stored, hstore, hname, hempty]
    have hinserted := Repository.inserted_sessionAfter hstart hinsert
    have honly := ((Collection.onlyMatch_byKey_iff hinserted.keyed hinserted.distinct hregular hdoc
      hkey).mpr ⟨hself, halone⟩).restrict hinserted.shown
    refine ⟨fun moment hintime => Repository.actsByKey_of_onlyMatch hschema hintime honly, ?_⟩
    intro before moment value hsteps hintime hlast
    have hdocs : repository.stored (repository.sessionAfter steps session)
        = repository.stored (repository.sessionAfter before session) ++ [doc] := hlast
    have hafter : repository.stored
        (repository.create value moment (repository.sessionAfter before session)).2
        = repository.stored (repository.sessionAfter before session) ++ [doc] := by
      rw [← hdocs, hsteps, Repository.sessionAfter_concat, Repository.perform, Action.map_apply]
    rw [hdocs] at honly
    exact Repository.create_of_onlyMatch hschema hintime hafter hkey honly

/-- Two keys beyond what a double tells apart: the query for the second does not give its note alone,
because the first is the same number. A note under a small key is read back as it was stored. -/
theorem keys_of_insertions_large :
    (∃ (steps : List (DateTime × Request)) (second : Document),
      (((Store.empty (.ofSource ⟨0, 0, 0⟩)).serveAll steps).documents "notes")[1]? = some second ∧
      Entries.get? second idField = some (.int64 9007199254740993) ∧
      Query.select (Query.byKey (.int64 9007199254740993))
        (((Store.empty (.ofSource ⟨0, 0, 0⟩)).serveAll steps).documents "notes") ≠ .ok [second]) ∧
    (∃ (repository : Repository Document) (session : Session) (note : Document),
      repository.stored session = [] ∧ Entries.get? note idField = some (.int32 1) ∧
      (repository.create note ⟨⟨1000⟩, ⟨0, 0⟩⟩ session).1 = .ok note ∧
      repository.ActsByKey ⟨⟨2000⟩, ⟨0, 0⟩⟩
        (repository.sessionAfter [(⟨⟨1000⟩, ⟨0, 0⟩⟩, .create note)] session) 0 note (.int32 1)) := by
  have hempty : (Store.empty (.ofSource ⟨0, 0, 0⟩)).documents "notes" = [] := rfl
  obtain ⟨hqueries, hrepositories⟩ := keys_of_insertions hempty
  refine ⟨?_, ?_⟩
  · let first : Document := [("_id", .int64 9007199254740992)]
    let second : Document := [("_id", .int64 9007199254740993)]
    let steps : List (DateTime × Request) := [(⟨1000⟩, .make ⟨_, .insertOne "notes" first⟩),
      (⟨2000⟩, .make ⟨_, .insertOne "notes" second⟩)]
    have hdocs : ((Store.empty (.ofSource ⟨0, 0, 0⟩)).serveAll steps).documents "notes"
        = [first, second] := rfl
    have hregular : RegularlyKeyed [first, second] := by
      intro doc hmem key hkey
      simp only [List.mem_cons, List.not_mem_nil, or_false] at hmem
      rcases hmem with rfl | rfl
      · cases hkey; exact ⟨trivial, rfl⟩
      · cases hkey; exact ⟨trivial, rfl⟩
    have hinsert : ∀ step ∈ steps, step.2.isInsertion = true := by
      intro step hmem
      simp only [steps, List.mem_cons, List.not_mem_nil, or_false] at hmem
      rcases hmem with rfl | rfl <;> rfl
    refine ⟨steps, second, rfl, rfl, fun hselect => ?_⟩
    have halone := ((hqueries steps hinsert (hdocs ▸ hregular) 1 second (.int64 9007199254740993)
      rfl rfl).1.mp hselect).2
    exact absurd (halone 0 first (.int64 9007199254740992) rfl rfl ⟨_, _, rfl, rfl, by decide⟩)
      (by decide)
  · let repository : Repository Document :=
      ⟨.raw "Note" "notes" [], ⟨"Note", [("_id", ⟨"_id", .objectId⟩)]⟩, {}⟩
    let session : Session := ⟨.empty (.ofSource ⟨0, 0, 0⟩), [], []⟩
    let note : Document := [("_id", .int32 1), ("title", .string "a")]
    have hdocs : repository.stored
        (repository.sessionAfter [(⟨⟨1000⟩, ⟨0, 0⟩⟩, .create note)] session) = [note] := rfl
    have hregular : RegularlyKeyed [note] := by
      intro doc hmem key hkey
      rw [List.mem_singleton] at hmem
      subst hmem
      cases hkey
      exact ⟨trivial, rfl⟩
    have halone : StandsAlone [note] 0 (.int32 1) := by
      intro other doc' key' hdoc' _ _
      obtain ⟨hlt, -⟩ := List.getElem?_eq_some_iff.mp hdoc'
      exact Nat.lt_one_iff.mp hlt
    have hinsert : ∀ step ∈ [((⟨⟨1000⟩, ⟨0, 0⟩⟩, .create note) : Moment × Operation Document)],
        step.2.isInsertion = true := by
      intro step hmem
      rw [List.mem_singleton.mp hmem]
      rfl
    obtain ⟨hacts, hcreates⟩ := hrepositories Document repository session _ rfl ⟨_, rfl, rfl⟩ rfl
      hinsert (hdocs ▸ hregular) 0 note (.int32 1) rfl rfl rfl (hdocs ▸ halone)
    exact ⟨repository, session, note, rfl, rfl, hcreates [] _ note rfl rfl rfl, hacts _ rfl⟩

end DocStore
