import DocStore.Store.Call

/-! # Calls that change the store where it is

The calls to the store as programs that change documents and collections where they are, one step
after the other. A step that is refused ends the program, and what the steps before it have done
stays done: nothing is taken back. An update is made on a copy of the document, which is dropped if
an operator is refused, and positions are found before any document is replaced or removed. -/

namespace DocStore

variable [Runtime]

/-- **A program** that changes a state where it is: it gives a value or a fault, and either way leaves
the state that its steps have made. -/
abbrev InPlace (σ α : Type) : Type := ExceptT Fault (StateM σ) α

namespace InPlace

variable {σ α : Type}

/-- A value or a fault, without touching the state. -/
def ofExcept (outcome : Except Fault α) : InPlace σ α := fun state => (outcome, state)

/-- The state that a program makes of a copy; if the program is refused, the copy is dropped. -/
def onCopy (program : InPlace σ Unit) (state : σ) : Except Fault σ :=
  match program state with
  | (.ok (), copy) => .ok copy
  | (.error fault, _) => .error fault

end InPlace

/-! ## Updating a document -/

namespace Update

/-- Add the amounts of a bucket to the fields of the document, one after the other. -/
def incrementInPlace : List (String × Value) → InPlace Document Unit
  | [] => pure ()
  | (field, amount) :: rest => do
    let sum ← InPlace.ofExcept (increment field (Entries.get? (← get) field) amount)
    modify fun doc => Entries.insert doc field sum
    incrementInPlace rest

/-- Move the fields of the document as a bucket says, one after the other. -/
def renameInPlace : List (String × Value) → InPlace Document Unit
  | [] => pure ()
  | (source, .string target) :: rest => do
    match Entries.get? (← get) source with
    | some value => modify fun doc => Entries.insert (Entries.remove doc source) target value
    | none => pure ()
    renameInPlace rest
  | _ :: _ => throw .renameTargetExpected

/-- Apply one operator with its bucket to the document. -/
def Operator.applyInPlace (operator : Operator) (occasion : Occasion) (bucket : Document) :
    InPlace Document Unit :=
  match operator with
  | .set => modify fun doc => Entries.insertAll doc bucket
  | .setOnInsert => if occasion.inserting then modify fun doc => Entries.insertAll doc bucket
    else pure ()
  | .unset => modify fun doc => removeAll doc (Entries.keys bucket)
  | .inc => incrementInPlace bucket
  | .currentDate => modify fun doc => stampAll doc (Entries.keys bucket) (.dateTime occasion.now)
  | .rename => renameInPlace bucket

/-- Apply one entry of an update to the document. -/
def applyEntryInPlace (occasion : Occasion) (key : String) (operand : Value) :
    InPlace Document Unit :=
  match operand with
  | .document bucket =>
    match Operator.ofKey? key with
    | some operator => operator.applyInPlace occasion bucket
    | none => throw (.unknownUpdateOperator key)
  | _ => throw (.documentExpected key)

/-- Apply an update to the document, entry by entry. -/
def applyInPlace (occasion : Occasion) : List (String × Value) → InPlace Document Unit
  | [] => pure ()
  | (key, operand) :: rest => do
    applyEntryInPlace occasion key operand
    applyInPlace occasion rest

end Update

/-! ## What is found before anything is written -/

namespace Collection

/-- The updated copy of a document. -/
def updatedCopy (now : DateTime) (update doc : Document) : Except Fault Document :=
  (Update.applyInPlace ⟨now, false⟩ update).onCopy doc

/-- The positions of the matching documents, counted from `start`, each with the updated copy. -/
def pending (now : DateTime) (query update : Document) :
    Nat → List Document → Except Fault (List (Nat × Document))
  | _, [] => .ok []
  | start, doc :: rest =>
    match Query.holds doc query with
    | .error fault => .error fault
    | .ok false => pending now query update (start + 1) rest
    | .ok true =>
      match updatedCopy now update doc with
      | .error fault => .error fault
      | .ok replacement =>
        (pending now query update (start + 1) rest).map ((start, replacement) :: ·)

/-- For each document whether it is doomed, that is, matches. -/
def doomed (query : Document) : List Document → Except Fault (List Bool)
  | [] => .ok []
  | doc :: rest =>
    match Query.holds doc query with
    | .error fault => .error fault
    | .ok matched => (doomed query rest).map (matched :: ·)

/-- Go through documents and marks in step and keep the documents without a mark. -/
def retain : List Bool → List Document → List Document
  | mark :: marks, doc :: rest => if mark then retain marks rest else doc :: retain marks rest
  | [], docs => docs
  | _ :: _, [] => []

end Collection

/-! ## Changing the store -/

namespace Store

/-- Issue a key to a document that has none. -/
def keyInPlace (doc : Document) : InPlace Store (Value × Document) := do
  let store ← get
  let (key, doc, ids) := keyed store.ids doc
  set { store with ids := ids }
  return (key, doc)

/-- The documents of a collection, which is there from now on. -/
def openInPlace (collection : String) : InPlace Store (List Document) := do
  modify fun store => store.withDocuments collection (store.documents collection)
  return (← get).documents collection

/-- Put a document at the end of a collection. -/
def pushInPlace (collection : String) (doc : Document) : InPlace Store Unit :=
  modify fun store => store.withDocuments collection (store.documents collection ++ [doc])

/-- Replace the document at a position and say whether it was different. -/
def commitInPlace (collection : String) (position : Nat) (replacement : Document) :
    InPlace Store Bool := do
  let docs := (← get).documents collection
  modify fun store => store.withDocuments collection (docs.set position replacement)
  return docs[position]?.any fun doc => !doc.equal replacement

/-- Replace the documents at several positions and count them. -/
def commitAllInPlace (collection : String) :
    List (Nat × Document) → Collection.UpdateOutcome → InPlace Store Collection.UpdateOutcome
  | [], outcome => return outcome
  | (position, replacement) :: rest, outcome => do
    let modified ← commitInPlace collection position replacement
    commitAllInPlace collection rest
      { outcome with
        matched := outcome.matched + 1
        modified := outcome.modified + modified.toNat }

/-- Store a document. The key is issued before the collection is asked whether it has it already. -/
def insertOneInPlace (collection : String) (doc : Document) : InPlace Store Value := do
  let (key, doc) ← keyInPlace doc
  let docs ← openInPlace collection
  if Collection.hasKey key docs then throw (.duplicateKey key collection)
  pushInPlace collection doc
  return key

/-- Store the document that an update makes of a query's seed. -/
def upsertInPlace (now : DateTime) (collection : String) (query update : Document) :
    InPlace Store Value := do
  let doc ← InPlace.ofExcept ((Update.applyInPlace ⟨now, true⟩ update).onCopy (Query.seed query))
  let (key, doc) ← keyInPlace doc
  pushInPlace collection doc
  return key

/-- Update the first matching document, or store one. -/
def updateOneInPlace (now : DateTime) (collection : String) (query update : Document)
    (upsert : Bool) : InPlace Store Collection.UpdateOutcome := do
  let docs ← openInPlace collection
  match ← InPlace.ofExcept (Collection.first? query none docs) with
  | some (position, doc) =>
    let replacement ← InPlace.ofExcept (Collection.updatedCopy now update doc)
    let modified ← commitInPlace collection position replacement
    return { matched := 1, modified := modified.toNat }
  | none =>
    if upsert then
      let key ← upsertInPlace now collection query update
      return { upsertedKey := some key }
    else return {}

/-- Update all matching documents. All copies are made before the first one is put in place. -/
def updateManyInPlace (now : DateTime) (collection : String) (query update : Document) :
    InPlace Store Collection.UpdateOutcome := do
  let docs := (← get).documents collection
  let pending ← InPlace.ofExcept (Collection.pending now query update 0 docs)
  commitAllInPlace collection pending {}

/-- The position of the document that an update of the first match has written, if any. -/
def touchInPlace (now : DateTime) (collection : String) (query update : Document)
    (sort : Option Document) (upsert : Bool) : InPlace Store (Option Nat) := do
  let docs ← openInPlace collection
  match ← InPlace.ofExcept (Collection.first? query sort docs) with
  | some (position, doc) =>
    let replacement ← InPlace.ofExcept (Collection.updatedCopy now update doc)
    let _ ← commitInPlace collection position replacement
    return some position
  | none =>
    if upsert then
      let _ ← upsertInPlace now collection query update
      return some (((← get).documents collection).length - 1)
    else return none

/-- Update the first matching document, or store one, and read what is at its position then. -/
def findOneAndUpdateInPlace (now : DateTime) (collection : String) (query update : Document)
    (options : QueryOptions) (upsert : Bool) : InPlace Store (Option Document) := do
  match ← touchInPlace now collection query update options.sort upsert with
  | some position => return ((← get).documents collection)[position]?.map options.view
  | none => return none

/-- Remove the first matching document. -/
def deleteOneInPlace (collection : String) (query : Document) : InPlace Store Nat := do
  let docs := (← get).documents collection
  match ← InPlace.ofExcept (Collection.first? query none docs) with
  | some (position, _) =>
    modify fun store => store.withDocuments collection (docs.eraseIdx position)
    return 1
  | none => return 0

/-- Remove all matching documents. All are marked before the first one is removed. -/
def deleteManyInPlace (collection : String) (query : Document) : InPlace Store Nat := do
  let docs := (← get).documents collection
  let marks ← InPlace.ofExcept (Collection.doomed query docs)
  modify fun store => store.withDocuments collection (Collection.retain marks docs)
  return marks.count true

/-- Read from a collection. -/
def readInPlace {α : Type} (collection : String) (read : List Document → Except Fault α) :
    InPlace Store α := do
  InPlace.ofExcept (read ((← get).documents collection))

end Store

/-- Carry out a call at a time where the store is. -/
def Call.inPlace {kind : ReplyKind} (call : Call kind) (now : DateTime) :
    InPlace Store kind.Reply :=
  match call with
  | .find collection query options => Store.readInPlace collection (Collection.find query options)
  | .findOne collection query options =>
    Store.readInPlace collection (Collection.findOne query options)
  | .insertOne collection doc => Store.insertOneInPlace collection doc
  | .updateOne collection query update upsert =>
    Store.updateOneInPlace now collection query update upsert
  | .updateMany collection query update => Store.updateManyInPlace now collection query update
  | .findOneAndUpdate collection query update options upsert =>
    Store.findOneAndUpdateInPlace now collection query update options upsert
  | .deleteOne collection query => Store.deleteOneInPlace collection query
  | .deleteMany collection query => Store.deleteManyInPlace collection query
  | .count collection query => Store.readInPlace collection (Collection.count query)

end DocStore
