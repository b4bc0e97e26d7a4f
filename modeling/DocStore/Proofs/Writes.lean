import DocStore.Proofs.Entries
import DocStore.Proofs.Matches
import DocStore.Store.Call

/-! # What the writes of a store do to a collection

Every write that is carried out either rewrites documents where they stand, or stores one new
document behind all others, or does neither; what comes of it is said by `Collection.Written`. A new
document is the one that was asked for, but for the key that it may be given. -/

namespace DocStore

namespace Store

/-! ## Keys of new documents -/

/-- Giving a document a key changes no other field. -/
theorem get?_keyed (ids : ObjectId.Supply) (doc : Document) {field : String}
    (h : field ≠ idField) : Entries.get? (keyed ids doc).2.1 field = Entries.get? doc field := by
  rw [keyed]
  split
  · rfl
  · exact Entries.get?_insert_of_ne doc _ h

/-- A document has the key that it is given. -/
theorem get?_keyed_idField (ids : ObjectId.Supply) (doc : Document) :
    Entries.get? (keyed ids doc).2.1 idField = some (keyed ids doc).1 := by
  rw [keyed]
  split
  · assumption
  · exact Entries.get?_insert_self doc _ _

/-- A document keeps the key that it has, and is given the next one of the source if it has none. -/
theorem get?_keyed_idField_eq (ids : ObjectId.Supply) (doc : Document) :
    Entries.get? (keyed ids doc).2.1 idField
      = some ((Entries.get? doc idField).getD (.objectId ids.peek)) := by
  rw [get?_keyed_idField, keyed]
  cases Entries.get? doc idField with
  | none => rfl
  | some key => rfl

/-- A document keeps what it holds when it is given a key. -/
theorem get?_keyed_of_some (ids : ObjectId.Supply) {doc : Document} {field : String} {value : Value}
    (h : Entries.get? doc field = some value) :
    Entries.get? (keyed ids doc).2.1 field = some value := by
  rw [keyed]
  split
  · exact h
  · rename_i hnone
    have hne : field ≠ idField := by
      rintro rfl
      rw [hnone] at h
      cases h
    rw [Entries.get?_insert_of_ne doc _ hne, h]

end Store

namespace Collection

/-- A **new document**: one that was asked for, with its key. -/
def IsKeyed (asked stored : Document) : Prop :=
  ∀ field, field ≠ idField → Entries.get? stored field = Entries.get? asked field

variable [Runtime]

/-- **What a write does** to the documents of a collection: some are rewritten where they stand, and
at most one is stored behind all others. -/
def Written (now : DateTime) (query update : Document) (positions : List Nat)
    (isNew : Document → Prop) (docs docs' : List Document) : Prop :=
  ∃ kept, Rewritten now query update positions docs kept ∧
    (docs' = kept ∨ ∃ doc, isNew doc ∧ docs' = kept ++ [doc])

/-- The position of the first match, if there is one. -/
def firstPosition (query : Document) (sort : Option Document) (docs : List Document) : List Nat :=
  match first? query sort docs with
  | .ok (some (position, _)) => [position]
  | _ => []

/-- Nothing is rewritten at no position. -/
theorem rewritten_nil (now : DateTime) (query update : Document) (docs : List Document) :
    Rewritten now query update [] docs docs :=
  ⟨rfl, fun _ hmem => absurd hmem List.not_mem_nil, fun _ _ => rfl⟩

/-- What an update stores where nothing matches: the update of the seed, with a key. -/
def IsSeeded (now : DateTime) (query update stored : Document) : Prop :=
  ∃ asked, fresh now query update = .ok asked ∧ IsKeyed asked stored

end Collection

namespace Store

open Collection (Rewritten Written IsKeyed IsSeeded)

variable {store store' : Store} {now : DateTime} {collection : String}
  {query update doc : Document}

/-! ## What each write does -/

/-- Storing a document appends it with its key. -/
theorem documents_insertOne_keyed {key : Value}
    (h : store.insertOne collection doc = .ok (key, store')) :
    store'.documents collection = store.documents collection ++ [(keyed store.ids doc).2.1] := by
  rw [insertOne] at h
  dsimp only at h
  split at h
  · cases h
  · cases h
    exact documents_withDocuments_self _ _ _

/-- Storing a document appends it. -/
theorem documents_insertOne {key : Value} (h : store.insertOne collection doc = .ok (key, store')) :
    ∃ stored, IsKeyed doc stored ∧
      store'.documents collection = store.documents collection ++ [stored] :=
  ⟨_, fun _ hne => get?_keyed store.ids doc hne, documents_insertOne_keyed h⟩

/-- Storing the update of a seed appends it. -/
theorem documents_insertSeeded {key : Value} {stored : Document}
    (h : store.insertSeeded now collection query update = .ok (key, stored, store')) :
    IsSeeded now query update stored ∧
      store'.documents collection = store.documents collection ++ [stored] := by
  rw [insertSeeded] at h
  split at h
  · cases h
  · rename_i asked hasked
    dsimp only at h
    cases h
    refine ⟨⟨asked, hasked, fun field hne => get?_keyed store.ids asked hne⟩, ?_⟩
    exact documents_withDocuments_self _ _ _

variable [Runtime]

/-- Updating the first match rewrites its position; if there is none, the update of the seed may be
stored. -/
theorem documents_updateOne {upsert : Bool} {outcome : Collection.UpdateOutcome}
    (h : store.updateOne now collection query update upsert = .ok (outcome, store')) :
    Written now query update
      (Collection.firstPosition query none (store.documents collection))
      (fun stored => upsert = true ∧ IsSeeded now query update stored)
      (store.documents collection) (store'.documents collection) := by
  rw [updateOne] at h
  dsimp only at h
  rw [Collection.firstPosition]
  split at h
  · cases h
  · rename_i position found hfirst
    split at h
    · cases h
    · rename_i replacement hupdate
      cases h
      rw [hfirst, documents_withDocuments_self]
      exact ⟨_, Collection.rewritten_set hfirst hupdate, Or.inl rfl⟩
  · rename_i hfirst
    rw [hfirst]
    refine ⟨_, Collection.rewritten_nil now query update _, ?_⟩
    split at h
    · rename_i hupsert
      obtain ⟨⟨key, stored, grown⟩, hseeded, heq⟩ := Outcome.map_eq_ok_iff.mp h
      cases heq
      obtain ⟨hnew, hdocs⟩ := documents_insertSeeded hseeded
      exact Or.inr ⟨stored, ⟨hupsert, hnew⟩, hdocs⟩
    · cases h
      exact Or.inl rfl

/-- Updating and reading the first match rewrites its position; if there is none, the update of the
seed may be stored. -/
theorem documents_findOneAndUpdate {options : QueryOptions} {upsert : Bool}
    {reply : Option Document}
    (h : store.findOneAndUpdate now collection query update options upsert
      = .ok (reply, store')) :
    Written now query update
      (Collection.firstPosition query options.sort (store.documents collection))
      (fun stored => upsert = true ∧ IsSeeded now query update stored)
      (store.documents collection) (store'.documents collection) := by
  rw [findOneAndUpdate] at h
  dsimp only at h
  rw [Collection.firstPosition]
  split at h
  · cases h
  · rename_i position found hfirst
    split at h
    · cases h
    · rename_i replacement hupdate
      cases h
      rw [hfirst, documents_withDocuments_self]
      exact ⟨_, Collection.rewritten_set hfirst hupdate, Or.inl rfl⟩
  · rename_i hfirst
    rw [hfirst]
    refine ⟨_, Collection.rewritten_nil now query update _, ?_⟩
    split at h
    · rename_i hupsert
      obtain ⟨⟨key, stored, grown⟩, hseeded, heq⟩ := Outcome.map_eq_ok_iff.mp h
      cases heq
      obtain ⟨hnew, hdocs⟩ := documents_insertSeeded hseeded
      exact Or.inr ⟨stored, ⟨hupsert, hnew⟩, hdocs⟩
    · cases h
      exact Or.inl rfl

/-- Updating all matches rewrites their positions. -/
theorem documents_updateMany {outcome : Collection.UpdateOutcome}
    (h : store.updateMany now collection query update = .ok (outcome, store')) :
    Written now query update
      (Collection.matchPositions query (store.documents collection))
      (fun _ => False) (store.documents collection) (store'.documents collection) := by
  obtain ⟨⟨counts, docs'⟩, hmany, heq⟩ := Outcome.map_eq_ok_iff.mp h
  cases heq
  rw [documents_withDocuments_self]
  exact ⟨docs', Collection.rewritten_updateMany hmany, Or.inl rfl⟩

end Store

end DocStore
