import DocStore.Proofs.Requests
import DocStore.Proofs.UpdateFrame
import DocStore.Proofs.Writes
import Mathlib.Data.List.Induction

/-! # Primary keys

Every stored document has a key. The keys of a collection are pairwise different as long as no
upsert stores a document under a key that is there already: an insertion asks for the key first and
is refused, an upsert does not ask, and it takes its key from the query, so a query for a key that
finds nothing, such as one that asks for something else besides, stores the key a second time.
`Store.keyStep_serve` says what one request does to the keys of a collection, and
`primaryKeys_of_requests` says when the keys stay different over a whole run. -/

namespace DocStore

/-- Whether an update **spares the key** of documents: it mentions it neither in a bucket nor as the
target of a renaming. -/
def Update.SparesKey (update : Document) : Prop :=
  ∀ operator bucket, (operator, Value.document bucket) ∈ update →
    Update.Spares idField operator bucket

namespace Collection

/-! ## Keys of a collection -/

/-- The keys of documents, in stored order. -/
def primaryKeys (docs : List Document) : List (Option Value) :=
  docs.map fun doc => Entries.get? doc idField

/-- Whether two keys differ; a key that is missing differs from all others. -/
def KeysDiffer (first second : Option Value) : Prop :=
  ∀ key key', first = some key → second = some key' → key.equal key' = false

/-- Whether every document has a key. -/
def AllKeyed (docs : List Document) : Prop := ∀ key ∈ primaryKeys docs, key.isSome = true

/-- **Distinct keys**: no document has a key equal to the key of an earlier one. -/
def DistinctKeys (docs : List Document) : Prop := (primaryKeys docs).Pairwise KeysDiffer

theorem primaryKeys_append (docs docs' : List Document) :
    primaryKeys (docs ++ docs') = primaryKeys docs ++ primaryKeys docs' := List.map_append

/-- A key is free if it differs from the keys of all documents. -/
theorem hasKey_eq_false_iff (key : Value) (docs : List Document) :
    hasKey key docs = false ↔ ∀ stored ∈ primaryKeys docs, KeysDiffer stored (some key) := by
  rw [hasKey, List.any_eq_false]
  simp only [primaryKeys, List.forall_mem_map, KeysDiffer, Option.some.injEq]
  refine forall₂_congr fun doc _ => ?_
  cases Entries.get? doc idField with
  | none => simp
  | some stored => simp

variable {docs docs' : List Document}

/-- A document behind distinct keys keeps them distinct if and only if its key is free. -/
theorem distinctKeys_append_iff {key : Value}
    (h : primaryKeys docs' = primaryKeys docs ++ [some key]) :
    DistinctKeys docs' ↔ DistinctKeys docs ∧ hasKey key docs = false := by
  rw [DistinctKeys, DistinctKeys, h, List.pairwise_append, hasKey_eq_false_iff]
  simp

theorem AllKeyed.append {key : Value} (h : AllKeyed docs)
    (heq : primaryKeys docs' = primaryKeys docs ++ [some key]) : AllKeyed docs' := by
  intro stored hmem
  rw [heq, List.mem_append, List.mem_singleton] at hmem
  rcases hmem with hold | rfl
  · exact h stored hold
  · rfl

/-- **What a request may do to the keys** of a collection: some of them are left, in order, or one
more goes behind them. That one is there already if and only if the request collides. -/
inductive KeyStep (collides : Prop) (docs docs' : List Document) : Prop
  | fewer (hfree : ¬ collides) (hkeys : (primaryKeys docs').Sublist (primaryKeys docs))
  | more (key : Value) (hkeys : primaryKeys docs' = primaryKeys docs ++ [some key])
      (hthere : hasKey key docs = true ↔ collides)

/-- A request leaves every document with a key. -/
theorem KeyStep.allKeyed {collides : Prop} (h : KeyStep collides docs docs') (hkeyed : AllKeyed docs) :
    AllKeyed docs' := by
  cases h with
  | fewer _ hkeys => exact fun key hmem => hkeyed key (hkeys.subset hmem)
  | more key hkeys _ => exact hkeyed.append hkeys

/-- Distinct keys stay distinct if and only if the request does not collide. -/
theorem KeyStep.distinctKeys_iff {collides : Prop} (h : KeyStep collides docs docs')
    (hdistinct : DistinctKeys docs) : DistinctKeys docs' ↔ ¬ collides := by
  cases h with
  | fewer hfree hkeys => exact iff_of_true (hdistinct.sublist hkeys) hfree
  | more key hkeys hthere =>
    rw [distinctKeys_append_iff hkeys, ← hthere, Bool.not_eq_true]
    exact and_iff_right hdistinct

/-! ## Keys under rewriting and removal -/

variable [Runtime] {now : DateTime} {query update : Document}

/-- Rewriting documents leaves the keys as they are. -/
theorem primaryKeys_of_rewritten {positions : List Nat} (hspares : Update.SparesKey update)
    (h : Rewritten now query update positions docs docs') :
    primaryKeys docs' = primaryKeys docs := by
  refine List.ext_getElem? fun position => ?_
  rw [primaryKeys, primaryKeys, List.getElem?_map, List.getElem?_map]
  by_cases hmem : position ∈ positions
  · obtain ⟨doc, doc', hdoc, -, hupdate, hdoc'⟩ := h.written position hmem
    rw [hdoc, hdoc', Option.map_some, Option.map_some, Update.get?_apply_of_spares hspares hupdate]
  · rw [h.kept position hmem]

theorem sublist_of_rewritten {positions : List Nat} (hspares : Update.SparesKey update)
    (h : Rewritten now query update positions docs docs') :
    (primaryKeys docs').Sublist (primaryKeys docs) := by
  rw [primaryKeys_of_rewritten hspares h]

/-- The documents that a deletion leaves are some of the documents, in order. -/
theorem sublist_of_deleteOne {count : Nat} (h : deleteOne query docs = .ok (count, docs')) :
    docs'.Sublist docs := by
  obtain ⟨found, -, heq⟩ := Outcome.map_eq_ok_iff.mp h
  cases found with
  | none => cases heq; exact List.Sublist.refl _
  | some found => cases heq; exact List.eraseIdx_sublist _ _

theorem sublist_of_remaining (h : remaining query docs = .ok docs') : docs'.Sublist docs := by
  induction docs generalizing docs' with
  | nil => cases h; exact List.Sublist.refl _
  | cons doc rest ih =>
    rw [remaining] at h
    split at h
    · cases h
    · rename_i matched _
      obtain ⟨kept, hkept, rfl⟩ := Outcome.map_eq_ok_iff.mp h
      cases matched with
      | true => exact (ih hkept).cons doc
      | false => exact (ih hkept).cons_cons doc

theorem sublist_of_deleteMany {count : Nat} (h : deleteMany query docs = .ok (count, docs')) :
    docs'.Sublist docs := by
  obtain ⟨kept, hkept, heq⟩ := Outcome.map_eq_ok_iff.mp h
  cases heq
  exact sublist_of_remaining hkept

/-- A query has no matches if and only if it holds of no document. -/
theorem locate_eq_nil_iff (start : Nat) :
    locate query start docs = .ok [] ↔ ∀ doc ∈ docs, Query.holds doc query = .ok false := by
  induction docs generalizing start with
  | nil => simp [locate]
  | cons doc rest ih =>
    rw [locate, List.forall_mem_cons]
    cases Query.holds doc query with
    | error fault => simp
    | ok matched =>
      cases matched with
      | true => simp [Outcome.map_eq_ok_iff]
      | false => simp [Outcome.map_eq_ok_iff, ih]

/-- A query has no first match if and only if it holds of no document. -/
theorem first?_eq_none_iff {sort : Option Document} :
    first? query sort docs = .ok none ↔ ∀ doc ∈ docs, Query.holds doc query = .ok false := by
  rw [first?, Outcome.map_eq_ok_iff, ← locate_eq_nil_iff 0]
  constructor
  · rintro ⟨found, hfound, hnone⟩
    cases sort with
    | none => rw [List.head?_eq_none_iff] at hnone; rw [hfound, hnone]
    | some spec =>
      dsimp only at hnone
      rw [List.head?_eq_none_iff] at hnone
      -- a sort loses nothing, so there was nothing to sort
      have hperm := Sorting.sortPositions_perm spec found
      rw [hnone, List.nil_perm] at hperm
      rw [hfound, hperm]
  · intro hnil
    refine ⟨[], hnil, ?_⟩
    cases sort with
    | none => rfl
    | some spec => exact congrArg List.head? (Sorting.sortPositions_perm spec []).eq_nil

end Collection

/-! ## Requests -/

/-- The update of a call that has one. -/
def AnyCall.update? : AnyCall → Option Document
  | ⟨_, .updateOne _ _ update _⟩ | ⟨_, .updateMany _ _ update⟩
  | ⟨_, .findOneAndUpdate _ _ update _ _⟩ => some update
  | _ => none

/-- Whether the update of a call, if it has one, spares the key of documents. -/
def AnyCall.SparesKey (call : AnyCall) : Prop :=
  ∀ update, call.update? = some update → Update.SparesKey update

namespace Request

/-- Whether the update of a request, if it has one, spares the key of documents. -/
def SparesKey : Request → Prop
  | .make call => call.SparesKey
  | .drop _ => True

end Request

namespace Store

/-- The key of the document that an upsert stores: the one that the query fixes, or else one that is
issued. -/
def seededKey (store : Store) (query : Document) : Value :=
  (Entries.get? (Query.seed query) idField).getD (.objectId store.ids.peek)

open Collection (primaryKeys hasKey DistinctKeys AllKeyed KeyStep)

variable (store : Store) (now : DateTime) {collection : String} {query update doc : Document}

/-- A document that is given its key and stored puts that key behind the others. -/
theorem primaryKeys_store_keyed (ids : ObjectId.Supply) :
    primaryKeys (({ store with ids := ids }.withDocuments collection
        (store.documents collection ++ [(keyed store.ids doc).2.1])).documents collection)
      = primaryKeys (store.documents collection) ++ [some (keyed store.ids doc).1] := by
  rw [documents_withDocuments_self, Collection.primaryKeys_append, primaryKeys, primaryKeys,
    List.map_singleton, get?_keyed_idField]

/-- An update that spares the key leaves the document that it stores with the key of the seed. -/
theorem keyed_fresh (hspares : Update.SparesKey update) {asked : Document}
    (h : Collection.fresh now query update = .ok asked) :
    (keyed store.ids asked).1 = store.seededKey query := by
  have hget : Entries.get? asked idField = Entries.get? (Query.seed query) idField :=
    Update.get?_apply_of_spares hspares h
  rw [keyed, seededKey, ← hget]
  cases Entries.get? asked idField <;> rfl

variable [Runtime]

/-- Whether an upsert stores a document, because the query holds of none, and the key of that
document is there already. -/
def StoresKeyAgain (store : Store) (now : DateTime) (collection : String)
    (query update : Document) : Prop :=
  (∀ doc ∈ store.documents collection, Query.holds doc query = .ok false) ∧
    (∃ doc, Collection.fresh now query update = .ok doc) ∧
    Collection.hasKey (store.seededKey query) (store.documents collection) = true

/-- **A collision**: the request is an upsert that stores a key again. -/
def Collides (store : Store) (now : DateTime) : Request → Prop
  | .make ⟨_, .updateOne collection query update true⟩
  | .make ⟨_, .findOneAndUpdate collection query update _ true⟩ =>
    store.StoresKeyAgain now collection query update
  | _ => False

/-! ## What each call does to keys -/

/-- An insertion under a key that is there already is refused and changes nothing. -/
theorem answer_insertOne_of_hasKey
    (h : hasKey (keyed store.ids doc).1 (store.documents collection) = true) :
    store.answer now (.insertOne collection doc)
      = (.error (.store (.duplicateKey (keyed store.ids doc).1 collection)), store) := by
  rw [answer, Call.run, insertOne]
  dsimp only
  rw [if_pos h]

/-- An insertion stores a key that is free, or nothing. -/
theorem keyStep_insertOne :
    KeyStep False (store.documents collection)
      ((store.answer now (.insertOne collection doc)).2.documents collection) := by
  cases hfree : hasKey (keyed store.ids doc).1 (store.documents collection) with
  | true =>
    rw [answer_insertOne_of_hasKey store now hfree]
    exact .fewer id (List.Sublist.refl _)
  | false =>
    rw [answer, Call.run, insertOne]
    dsimp only
    rw [if_neg (by rw [hfree]; exact Bool.false_ne_true)]
    exact .more (keyed store.ids doc).1 (primaryKeys_store_keyed store _) (by simp [hfree])

variable {store now}

/-- Where nothing matches, an upsert stores the key of the seed, whether that key is free or not. -/
theorem keyStep_insertSeeded (hspares : Update.SparesKey update)
    (hnone : ∀ doc ∈ store.documents collection, Query.holds doc query = .ok false)
    {grown : Store} {key : Value} {stored : Document}
    (h : store.insertSeeded now collection query update = .ok (key, stored, grown)) :
    KeyStep (store.StoresKeyAgain now collection query update) (store.documents collection)
      (grown.documents collection) := by
  rw [insertSeeded] at h
  cases hasked : Collection.fresh now query update with
  | error fault => rw [hasked] at h; cases h
  | ok asked =>
    rw [hasked] at h
    cases h
    have hkey := keyed_fresh store now hspares hasked
    refine .more (store.seededKey query) ?_ ⟨fun hthere => ⟨hnone, ⟨asked, hasked⟩, hthere⟩,
      fun hagain => hagain.2.2⟩
    rw [← hkey]
    exact primaryKeys_store_keyed store _

/-- An update of the first match keeps the keys; where there is none it may store one more. -/
theorem keyStep_firstUpdated (hspares : Update.SparesKey update) (sort : Option Document)
    (upsert : Bool) :
    KeyStep (upsert = true ∧ store.StoresKeyAgain now collection query update)
      (store.documents collection)
      ((store.firstUpdated now collection query update sort upsert).documents collection) := by
  -- a document is stored only where nothing matches
  have hmatch : ∀ found, Collection.first? query sort (store.documents collection) = found →
      found ≠ .ok none → ¬ (upsert = true ∧ store.StoresKeyAgain now collection query update) := by
    rintro found hfirst hfound ⟨-, hnone, -⟩
    exact hfound (hfirst.symm.trans (Collection.first?_eq_none_iff.mpr hnone))
  rw [firstUpdated]
  split
  · rename_i hfirst
    exact .fewer (hmatch _ hfirst (by simp)) (List.Sublist.refl _)
  · rename_i position found hfirst
    have hkept := hmatch _ hfirst (by simp)
    split
    · exact .fewer hkept (List.Sublist.refl _)
    · rename_i replacement hupdate
      rw [documents_withDocuments_self]
      exact .fewer hkept (Collection.sublist_of_rewritten hspares
        (Collection.rewritten_set hfirst hupdate))
  · rename_i hfirst
    have hnone := Collection.first?_eq_none_iff.mp hfirst
    split
    · rename_i hupsert
      rw [hupsert]
      split
      · rename_i hrefused
        refine .fewer (fun hcollides => ?_) (List.Sublist.refl _)
        obtain ⟨asked, hasked⟩ := hcollides.2.2.1
        rw [insertSeeded, hasked] at hrefused
        cases hrefused
      · rename_i hseeded
        simpa only [true_and] using keyStep_insertSeeded hspares hnone hseeded
    · rename_i hupsert
      exact .fewer (fun hcollides => hupsert hcollides.1) (List.Sublist.refl _)

variable (store now)

/-- A call that replaces the documents by some with fewer keys. -/
theorem keyStep_of_replacing {kind : ReplyKind} {call : Call kind}
    {outcome : Except Fault (kind.Reply × List Document)}
    (hrun : call.run now store
      = outcome.map fun result => (result.1, store.withDocuments collection result.2))
    (hkeys : ∀ result, outcome = .ok result →
      (primaryKeys result.2).Sublist (primaryKeys (store.documents collection))) :
    KeyStep False (store.documents collection)
      ((store.answer now call).2.documents collection) := by
  refine .fewer id ?_
  rcases store.answer_of_replacing now hrun with hkept | ⟨result, hresult, hreplaced⟩
  · rw [hkept]
  · rw [hreplaced, documents_withDocuments_self]
    exact hkeys result hresult

/-- Updating all matches keeps the keys. -/
theorem keyStep_updateMany (hspares : Update.SparesKey update) :
    KeyStep False (store.documents collection)
      ((store.answer now (.updateMany collection query update)).2.documents collection) :=
  store.keyStep_of_replacing now rfl fun _ hmany =>
    Collection.sublist_of_rewritten hspares (Collection.rewritten_updateMany hmany)

/-- Removing documents removes their keys. -/
theorem keyStep_deleteOne :
    KeyStep False (store.documents collection)
      ((store.answer now (.deleteOne collection query)).2.documents collection) :=
  store.keyStep_of_replacing now rfl fun _ hdelete =>
    (Collection.sublist_of_deleteOne hdelete).map _

theorem keyStep_deleteMany :
    KeyStep False (store.documents collection)
      ((store.answer now (.deleteMany collection query)).2.documents collection) :=
  store.keyStep_of_replacing now rfl fun _ hdelete =>
    (Collection.sublist_of_deleteMany hdelete).map _

/-! ## What each request does to keys -/

/-- The upsert of an update that may store a document collides if it stores a key again. -/
theorem collides_updateOne_iff (upsert : Bool) :
    store.Collides now (.make ⟨_, .updateOne collection query update upsert⟩)
      ↔ upsert = true ∧ store.StoresKeyAgain now collection query update := by
  cases upsert <;> simp [Collides]

theorem collides_findOneAndUpdate_iff (options : QueryOptions) (upsert : Bool) :
    store.Collides now (.make ⟨_, .findOneAndUpdate collection query update options upsert⟩)
      ↔ upsert = true ∧ store.StoresKeyAgain now collection query update := by
  cases upsert <;> simp [Collides]

/-- **What a request does to the keys of its collection.** -/
theorem keyStep_serve {request : Request} (hspares : request.SparesKey) :
    KeyStep (store.Collides now request) (store.documents request.collection)
      ((store.serve now request).documents request.collection) := by
  have hread : ∀ {docs : List Document}, KeyStep False docs docs :=
    .fewer id (List.Sublist.refl _)
  cases request with
  | drop name =>
    have hnil : (store.drop name).documents name = [] := by
      rw [documents, drop, Entries.get?_remove_self, Option.getD_none]
    exact .fewer id (by rw [serve, Request.collection, hnil]; exact List.nil_sublist _)
  | make call =>
    obtain ⟨kind, call⟩ := call
    cases call with
    | find name query options =>
      rw [serve, Repository.answer_find]
      exact hread
    | findOne name query options =>
      rw [serve, Repository.answer_findOne]
      exact hread
    | count name query =>
      rw [serve, Repository.answer_count]
      exact hread
    | insertOne name doc => exact keyStep_insertOne store now
    | updateOne name query update upsert =>
      rw [serve, answer_updateOne, collides_updateOne_iff]
      exact keyStep_firstUpdated (hspares update rfl) none upsert
    | findOneAndUpdate name query update options upsert =>
      rw [serve, answer_findOneAndUpdate, collides_findOneAndUpdate_iff]
      exact keyStep_firstUpdated (hspares update rfl) options.sort upsert
    | updateMany name query update => exact keyStep_updateMany store now (hspares update rfl)
    | deleteOne name query => exact keyStep_deleteOne store now
    | deleteMany name query => exact keyStep_deleteMany store now

/-! ## Runs of requests -/

variable {store now}

/-- Whether the keys of all collections are distinct. -/
def DistinctlyKeyed (store : Store) : Prop :=
  ∀ collection, DistinctKeys (store.documents collection)

/-- A request leaves the keys of all collections distinct if and only if it does not collide. -/
theorem distinctlyKeyed_serve_iff {request : Request} (hspares : request.SparesKey) (h : store.DistinctlyKeyed) :
    (store.serve now request).DistinctlyKeyed ↔ ¬ store.Collides now request := by
  have hstep := (keyStep_serve store now hspares).distinctKeys_iff (h request.collection)
  refine ⟨fun hafter => hstep.mp (hafter _), fun hfree name => ?_⟩
  by_cases hname : name = request.collection
  · rw [hname]
    exact hstep.mpr hfree
  · rw [documents_serve_of_ne store now hname]
    exact h name

/-- Every document of a run has a key. -/
theorem allKeyed_serveAll (ids : ObjectId.Supply) {steps : List (DateTime × Request)}
    (hspares : ∀ step ∈ steps, step.2.SparesKey) (name : String) :
    AllKeyed (((empty ids).serveAll steps).documents name) := by
  refine (empty ids).documents_serveAll_induction AllKeyed
    (fun key hmem => absurd hmem List.not_mem_nil) ?_
  intro step hmem store hkeyed
  exact (keyStep_serve store step.1 (hspares step hmem)).allKeyed hkeyed

/-- The keys are distinct throughout a run if and only if no request of it collides. -/
theorem distinctlyKeyed_serveAll_iff (ids : ObjectId.Supply) {steps : List (DateTime × Request)}
    (hspares : ∀ step ∈ steps, step.2.SparesKey) :
    (∀ before after, steps = before ++ after → ((empty ids).serveAll before).DistinctlyKeyed) ↔
      ∀ before step after, steps = before ++ step :: after →
        ¬ ((empty ids).serveAll before).Collides step.1 step.2 := by
  constructor
  · intro hdistinct before step after heq
    have hstep : step.2.SparesKey := hspares step (by rw [heq]; simp)
    have hafter := hdistinct (before ++ [step]) after (by rw [heq]; simp)
    rw [serveAll_concat] at hafter
    exact (distinctlyKeyed_serve_iff hstep (hdistinct before _ heq)).mp hafter
  · intro hfree before
    induction before using List.reverseRecOn with
    | nil => exact fun _ _ name => List.Pairwise.nil
    | append_singleton before step ih =>
      intro after heq
      have heq' : steps = before ++ step :: after := by rw [heq]; simp
      have hstep : step.2.SparesKey := hspares step (by rw [heq']; simp)
      rw [serveAll_concat]
      exact (distinctlyKeyed_serve_iff hstep (ih _ heq')).mpr (hfree before step after heq')

end Store

open Collection (AllKeyed hasKey primaryKeys)

/-- **Primary keys over whole runs.** From an empty store, requests are served one after the other,
each of which may be refused, and no update of them mentions a key. Then every document has a key;
an insertion under a key that is there already is refused and changes nothing; and the keys of all
collections stay distinct throughout if and only if no upsert on the way stores a key again. -/
theorem primaryKeys_of_requests [Runtime] (ids : ObjectId.Supply)
    {steps : List (DateTime × Request)} (hspares : ∀ step ∈ steps, step.2.SparesKey) :
    let store := (Store.empty ids).serveAll steps
    (∀ name, AllKeyed (store.documents name)) ∧
    (∀ now name doc, hasKey (Store.keyed store.ids doc).1 (store.documents name) = true →
      store.answer now (.insertOne name doc)
        = (.error (.store (.duplicateKey (Store.keyed store.ids doc).1 name)), store)) ∧
    ((∀ before after, steps = before ++ after →
        ((Store.empty ids).serveAll before).DistinctlyKeyed) ↔
      ∀ before step after, steps = before ++ step :: after →
        ¬ ((Store.empty ids).serveAll before).Collides step.1 step.2) := by
  intro store
  refine ⟨Store.allKeyed_serveAll ids hspares, fun now name doc hthere => ?_,
    Store.distinctlyKeyed_serveAll_iff ids hspares⟩
  exact Store.answer_insertOne_of_hasKey store now hthere

/-- An upsert that names the key of a document which the rest of its query hides: the key is there
twice, and the keys are not distinct. -/
theorem primaryKeys_of_requests_hidden :
    ∃ (ids : ObjectId.Supply) (steps : List (DateTime × Request)),
      (∀ step ∈ steps, step.2.SparesKey) ∧
      primaryKeys (((Store.empty ids).serveAll steps).documents "notes")
        = [some (.int32 1), some (.int32 1)] ∧
      ¬ ∀ before after, steps = before ++ after →
        ((Store.empty ids).serveAll before).DistinctlyKeyed := by
  let hidden : Document := [("_id", .int32 1), ("deleted", .dateTime ⟨1000⟩)]
  let query : Document := [("_id", .document [("$eq", .int32 1)]),
    ("deleted", .document [("$not", .document [("$type", .string "date")])])]
  let update : Document := [("$set", .document [("a", .int32 1)])]
  let first : DateTime × Request := (⟨1000⟩, .make ⟨_, .insertOne "notes" hidden⟩)
  let second : DateTime × Request := (⟨2000⟩, .make ⟨_, .updateOne "notes" query update true⟩)
  have hspares : ∀ step ∈ [first, second], step.2.SparesKey := by
    intro step hmem
    rcases List.mem_cons.mp hmem with rfl | hmem
    · intro update hupdate
      cases hupdate
    · rw [List.mem_singleton] at hmem
      subst hmem
      intro own hown operator bucket hmem
      cases hown
      rw [List.mem_singleton, Prod.mk.injEq, Value.document.injEq] at hmem
      obtain ⟨rfl, rfl⟩ := hmem
      exact ⟨by decide, fun hrename => absurd hrename (by decide)⟩
  refine ⟨.ofSource ⟨0, 0, 0⟩, [first, second], hspares, rfl, fun hdistinct => ?_⟩
  obtain ⟨-, -, hiff⟩ := primaryKeys_of_requests (.ofSource ⟨0, 0, 0⟩) hspares
  refine hiff.mp hdistinct [first] second [] rfl ⟨?_, ⟨_, rfl⟩, rfl⟩
  intro doc hmem
  have hdocs : ((Store.empty (.ofSource ⟨0, 0, 0⟩)).serveAll [first]).documents "notes"
      = [hidden] := rfl
  rw [hdocs, List.mem_singleton] at hmem
  rw [hmem]
  rfl

end DocStore
