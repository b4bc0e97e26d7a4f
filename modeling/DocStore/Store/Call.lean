import DocStore.Store.Basic

/-! # Calls to the store

A request to the store as a value, typed by the kind of its reply. Carrying out a call either
changes the store as a whole and gives a reply, or is refused and changes nothing. -/

namespace DocStore

/-- The **kinds of replies**. -/
inductive ReplyKind where
  | documents
  | document
  | key
  | outcome
  | count
  deriving DecidableEq

/-- What a reply of a kind consists of. -/
abbrev ReplyKind.Reply : ReplyKind → Type
  | .documents => List Document
  | .document => Option Document
  | .key => Value
  | .outcome => Collection.UpdateOutcome
  | .count => Nat

/-- **A call** to the store. -/
inductive Call : ReplyKind → Type where
  /-- The documents that a query selects. -/
  | find (collection : String) (query : Document) (options : QueryOptions) : Call .documents
  /-- The first of them. -/
  | findOne (collection : String) (query : Document) (options : QueryOptions) : Call .document
  /-- Store a document. -/
  | insertOne (collection : String) (doc : Document) : Call .key
  /-- Update the first match, or store a document if asked to. -/
  | updateOne (collection : String) (query update : Document) (upsert : Bool) : Call .outcome
  /-- Update all matches. -/
  | updateMany (collection : String) (query update : Document) : Call .outcome
  /-- Update the first match and read it. -/
  | findOneAndUpdate (collection : String) (query update : Document) (options : QueryOptions)
      (upsert : Bool) : Call .document
  /-- Remove the first match. -/
  | deleteOne (collection : String) (query : Document) : Call .count
  /-- Remove all matches. -/
  | deleteMany (collection : String) (query : Document) : Call .count
  /-- Count the matches. -/
  | count (collection : String) (query : Document) : Call .count

namespace Call

variable [Runtime]

/-- Carry out a call at a time. -/
def run {kind : ReplyKind} (call : Call kind) (now : DateTime) (store : Store) :
    Except Fault (kind.Reply × Store) :=
  match call with
  | .find collection query options =>
    (Collection.find query options (store.documents collection)).map (·, store)
  | .findOne collection query options =>
    (Collection.findOne query options (store.documents collection)).map (·, store)
  | .insertOne collection doc => store.insertOne collection doc
  | .updateOne collection query update upsert =>
    store.updateOne now collection query update upsert
  | .updateMany collection query update => store.updateMany now collection query update
  | .findOneAndUpdate collection query update options upsert =>
    store.findOneAndUpdate now collection query update options upsert
  | .deleteOne collection query => store.deleteOne collection query
  | .deleteMany collection query => store.deleteMany collection query
  | .count collection query =>
    (Collection.count query (store.documents collection)).map (·, store)

end Call

namespace Store

variable [Runtime]

/-- Carry out a call at a time: its reply or why it is refused, and the store afterwards. -/
def answer {kind : ReplyKind} (store : Store) (now : DateTime) (call : Call kind) :
    Except Error kind.Reply × Store :=
  match call.run now store with
  | .ok (reply, store) => (.ok reply, store)
  | .error fault => (.error (.store fault), store)

/-- Store documents one after the other, leaving out those that are refused. -/
def insertAll (store : Store) (collection : String) (docs : List Document) : Store :=
  docs.foldl
    (fun store doc =>
      match store.insertOne collection doc with
      | .ok (_, store) => store
      | .error _ => store)
    store

end Store

end DocStore
