import DocStore.Query.Match
import DocStore.Query.Options
import DocStore.Query.Seed
import DocStore.Update.Apply

/-! # Collections

A collection is a list of documents in the order in which they were stored. Each operation reads
the whole list before it changes anything, so a fault on any document leaves the list as it was. -/

namespace DocStore

namespace Collection

variable [Runtime]

/-- The outcome of an update. -/
structure UpdateOutcome where
  /-- How many documents matched. -/
  matched : Nat := 0
  /-- How many documents the update made different. -/
  modified : Nat := 0
  /-- The key of the document that was stored because none matched. -/
  upsertedKey : Option Value := none

/-- The matching documents with their positions, counted from `start`. -/
def locate (query : Document) : Nat → List Document → Except Fault (List (Nat × Document))
  | _, [] => .ok []
  | start, doc :: rest =>
    match Query.holds doc query with
    | .error fault => .error fault
    | .ok matched =>
      (locate query (start + 1) rest).map fun found =>
        if matched then (start, doc) :: found else found

/-- The first matching document with its position, in stored order or by a sort specification. -/
def first? (query : Document) (sort : Option Document) (docs : List Document) :
    Except Fault (Option (Nat × Document)) :=
  (locate query 0 docs).map fun found =>
    match sort with
    | some spec => (Sorting.sortPositions spec found).head?
    | none => found.head?

/-- The documents that a query selects, presented as the options say. -/
def find (query : Document) (options : QueryOptions) (docs : List Document) :
    Except Fault (List Document) :=
  (Query.select query docs).map options.present

/-- The first document that `find` gives. -/
def findOne (query : Document) (options : QueryOptions) (docs : List Document) :
    Except Fault (Option Document) :=
  (find query { options with limit := some 1 } docs).map List.head?

/-- How many documents match. -/
def count (query : Document) (docs : List Document) : Except Fault Nat :=
  (Query.select query docs).map List.length

/-- Whether one of the documents has a key equal to `key`. -/
def hasKey (key : Value) (docs : List Document) : Bool :=
  docs.any fun doc => (Entries.get? doc idField).any fun stored => stored.equal key

/-- The update of a document that is stored already. -/
def updated (now : DateTime) (update doc : Document) : Except Fault Document :=
  Update.apply ⟨now, false⟩ update doc

/-- The document that an update stores if none matches, before it is given a key. -/
def fresh (now : DateTime) (query update : Document) : Except Fault Document :=
  Update.apply ⟨now, true⟩ update (Query.seed query)

/-- Every document with its replacement if it matches, or nothing if it does not. -/
def replacements (now : DateTime) (query update : Document) :
    List Document → Except Fault (List (Document × Option Document))
  | [] => .ok []
  | doc :: rest =>
    match Query.holds doc query with
    | .error fault => .error fault
    | .ok false => (replacements now query update rest).map ((doc, none) :: ·)
    | .ok true =>
      match updated now update doc with
      | .error fault => .error fault
      | .ok replacement => (replacements now query update rest).map ((doc, some replacement) :: ·)

/-- Replace all matching documents by their updates. -/
def updateMany (now : DateTime) (query update : Document) (docs : List Document) :
    Except Fault (UpdateOutcome × List Document) :=
  (replacements now query update docs).map fun pairs =>
    let replaced := pairs.filterMap fun (doc, replacement) => replacement.map (doc, ·)
    ({ matched := replaced.length
       modified := (replaced.filter fun (doc, replacement) => !doc.equal replacement).length },
      pairs.map fun (doc, replacement) => replacement.getD doc)

/-- Remove the first matching document. -/
def deleteOne (query : Document) (docs : List Document) : Except Fault (Nat × List Document) :=
  (first? query none docs).map fun found =>
    match found with
    | some (position, _) => (1, docs.eraseIdx position)
    | none => (0, docs)

/-- The documents that do not match, in order. -/
def remaining (query : Document) : List Document → Except Fault (List Document)
  | [] => .ok []
  | doc :: rest =>
    match Query.holds doc query with
    | .error fault => .error fault
    | .ok matched => (remaining query rest).map fun kept => if matched then kept else doc :: kept

/-- Remove all matching documents. -/
def deleteMany (query : Document) (docs : List Document) : Except Fault (Nat × List Document) :=
  (remaining query docs).map fun kept => (docs.length - kept.length, kept)

end Collection

end DocStore
