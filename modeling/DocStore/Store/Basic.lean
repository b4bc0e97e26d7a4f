import DocStore.Store.Collection

/-! # The store

A store holds collections by name and issues keys to documents that come without one. A collection
that was never written to is empty. -/

namespace DocStore

/-- **A store** of documents. -/
structure Store where
  /-- The collections by name. -/
  collections : Entries (List Document)
  /-- The keys that will be issued. -/
  ids : ObjectId.Supply

namespace Store

/-- A store without documents. -/
def empty (ids : ObjectId.Supply) : Store := ⟨[], ids⟩

/-- The documents of a collection, in stored order. -/
def documents (store : Store) (collection : String) : List Document :=
  (Entries.get? store.collections collection).getD []

/-- Replace the documents of a collection. -/
def withDocuments (store : Store) (collection : String) (docs : List Document) : Store :=
  { store with collections := Entries.insert store.collections collection docs }

/-- Remove a collection. -/
def drop (store : Store) (collection : String) : Store :=
  { store with collections := Entries.remove store.collections collection }

@[simp] theorem documents_withDocuments_self (store : Store) (collection : String)
    (docs : List Document) :
    (store.withDocuments collection docs).documents collection = docs := by
  simp [documents, withDocuments]

/-- Replacing one collection leaves every other as it is. -/
theorem documents_withDocuments_of_ne (store : Store) {collection other : String}
    (docs : List Document) (h : other ≠ collection) :
    (store.withDocuments collection docs).documents other = store.documents other := by
  simp [documents, withDocuments, Entries.get?_insert_of_ne _ _ h]

/-- A document with its key: its own, or one that is issued. -/
def keyed (ids : ObjectId.Supply) (doc : Document) : Value × Document × ObjectId.Supply :=
  match Entries.get? doc idField with
  | some key => (key, doc, ids)
  | none =>
    let key := Value.objectId ids.peek
    (key, Entries.insert doc idField key, ids.advance)

/-- Store a document and give its key. Two documents of a collection must not have equal keys. -/
def insertOne (store : Store) (collection : String) (doc : Document) :
    Except Fault (Value × Store) :=
  let (key, doc, ids) := keyed store.ids doc
  let docs := store.documents collection
  if Collection.hasKey key docs then .error (.duplicateKey key collection)
  else .ok (key, { store with ids := ids }.withDocuments collection (docs ++ [doc]))

/-- Store the document that an update makes of a query's seed, at the end of the collection. -/
def insertSeeded (store : Store) (now : DateTime) (collection : String)
    (query update : Document) : Except Fault (Value × Document × Store) :=
  match Collection.fresh now query update with
  | .error fault => .error fault
  | .ok doc =>
    -- unlike `insertOne`, this does not ask whether the key is there already
    let (key, doc, ids) := keyed store.ids doc
    let docs := store.documents collection ++ [doc]
    .ok (key, doc, { store with ids := ids }.withDocuments collection docs)

variable [Runtime]

/-- Update the first matching document; if there is none and `upsert` says so, store one. -/
def updateOne (store : Store) (now : DateTime) (collection : String) (query update : Document)
    (upsert : Bool) : Except Fault (Collection.UpdateOutcome × Store) :=
  let docs := store.documents collection
  match Collection.first? query none docs with
  | .error fault => .error fault
  | .ok (some (position, doc)) =>
    match Collection.updated now update doc with
    | .error fault => .error fault
    | .ok replacement =>
      let modified := if doc.equal replacement then 0 else 1
      .ok ({ matched := 1, modified := modified },
        store.withDocuments collection (docs.set position replacement))
  | .ok none =>
    if upsert then
      (store.insertSeeded now collection query update).map fun (key, _, store) =>
        ({ upsertedKey := some key }, store)
    else .ok ({}, store)

/-- Update the first matching document by the sort specification of the options, and give it as it
is afterwards, projected. If there is none and `upsert` says so, store one. -/
def findOneAndUpdate (store : Store) (now : DateTime) (collection : String)
    (query update : Document) (options : QueryOptions) (upsert : Bool) :
    Except Fault (Option Document × Store) :=
  let docs := store.documents collection
  match Collection.first? query options.sort docs with
  | .error fault => .error fault
  | .ok (some (position, doc)) =>
    match Collection.updated now update doc with
    | .error fault => .error fault
    | .ok replacement =>
      .ok (some (options.view replacement),
        store.withDocuments collection (docs.set position replacement))
  | .ok none =>
    if upsert then
      (store.insertSeeded now collection query update).map fun (_, doc, store) =>
        (some (options.view doc), store)
    else .ok (none, store)

/-- Update all matching documents. -/
def updateMany (store : Store) (now : DateTime) (collection : String) (query update : Document) :
    Except Fault (Collection.UpdateOutcome × Store) :=
  (Collection.updateMany now query update (store.documents collection)).map fun (outcome, docs) =>
    (outcome, store.withDocuments collection docs)

/-- Remove the first matching document. -/
def deleteOne (store : Store) (collection : String) (query : Document) :
    Except Fault (Nat × Store) :=
  (Collection.deleteOne query (store.documents collection)).map fun (count, docs) =>
    (count, store.withDocuments collection docs)

/-- Remove all matching documents. -/
def deleteMany (store : Store) (collection : String) (query : Document) :
    Except Fault (Nat × Store) :=
  (Collection.deleteMany query (store.documents collection)).map fun (count, docs) =>
    (count, store.withDocuments collection docs)

end Store

end DocStore
