import DocStore.Filter.Compile
import DocStore.Lifecycle.Deletion
import DocStore.Model.Basic
import DocStore.Repository.Session
import DocStore.Settings

/-! # Repositories

A repository reads and writes the documents of one model. It compiles filters and updates, keeps
the lifecycle fields of its policy, hides what is deleted, and makes the calls to the store. -/

namespace DocStore

/-- **A repository** of the values of a model. -/
structure Repository (α : Type) where
  /-- The model. -/
  model : Model α
  /-- The schema of the model. -/
  schema : Schema
  /-- The options. -/
  options : RepositoryOptions

namespace Repository

variable [Runtime] {α : Type}

/-- The repository of a model, if the model has a schema. -/
def build (model : Model α) (options : RepositoryOptions) : Except Error (Repository α) :=
  model.schema.map fun schema => ⟨model, schema, options⟩

/-- The policy. -/
def policy (repository : Repository α) : Policy := repository.options.policy

/-- The collection. -/
def collection (repository : Repository α) : String := repository.model.collection

/-- Make a call that may take as long as the options say. -/
def call {kind : ReplyKind} (repository : Repository α) (call : Call kind) : Action kind.Reply :=
  Action.call repository.options.timeout call

/-- A compiled filter that also selects what is deleted. -/
def compileAll (repository : Repository α) (filter : Filter) : Action CompiledFilter :=
  Action.ofExcept (filter.compile repository.schema)

/-- A compiled filter that selects only what is shown. -/
def compile (repository : Repository α) (filter : Filter) : Action CompiledFilter := do
  let compiled ← repository.compileAll filter
  return { compiled with query := repository.policy.restrict compiled.query }

/-- A compiled update; the warnings are given whether it compiles or not. -/
def compileUpdate (repository : Repository α) (context : UpdateContext) (spec : Document) :
    Action Document := do
  let compiled := UpdateSpec.compile repository.policy context (← Action.now) spec
  Action.warn compiled.1
  Action.ofExcept compiled.2

/-! ## Reading -/

/-- Read what a compiled filter selects. -/
def load (repository : Repository α) (compiled : CompiledFilter) : Action (List α) := do
  let docs ← repository.call (.find repository.collection compiled.query compiled.options)
  Action.ofExcept (repository.model.decodeAll docs)

/-- Read the first document that a compiled filter selects. -/
def loadFirst (repository : Repository α) (compiled : CompiledFilter) : Action (Option α) := do
  let doc ← repository.call (.findOne repository.collection compiled.query compiled.options)
  Action.ofExcept (repository.model.decodeOption doc)

/-- The values that a filter selects. -/
def find (repository : Repository α) (filter : Filter) : Action (List α) := do
  repository.load (← repository.compile filter)

/-- The first value that a filter selects. -/
def findOne (repository : Repository α) (filter : Filter) : Action (Option α) := do
  repository.loadFirst (← repository.compile filter)

/-- The value with a key, if the filter selects it. -/
def findById (repository : Repository α) (key : Value) (filter : Filter) : Action (Option α) :=
  repository.findOne { filter with condition := (Condition.hasKey key).both filter.condition }

/-- The values that a filter selects, deleted ones included. -/
def findWithDeleted (repository : Repository α) (filter : Filter) : Action (List α) := do
  repository.load (← repository.compileAll filter)

/-- The first value that a filter selects, deleted ones included. -/
def findOneWithDeleted (repository : Repository α) (filter : Filter) : Action (Option α) := do
  repository.loadFirst (← repository.compileAll filter)

/-- Whether and when the document with a key was deleted, if there is one. -/
def deletion (repository : Repository α) (key : Value) : Action (Option Deletion) := do
  -- a deleted document has to be found here, so nothing is hidden
  let compiled ← repository.compileAll { condition := .hasKey key }
  let doc ← repository.call (.findOne repository.collection compiled.query compiled.options)
  return doc.map Deletion.ofDocument

/-- How many values a filter selects. -/
def count (repository : Repository α) (filter : Filter) : Action Nat := do
  let compiled ← repository.compile filter
  repository.call (.count repository.collection compiled.query)

/-- Whether there is a value with a key. -/
def hasKey (repository : Repository α) (key : Value) : Action Bool := do
  let compiled ← repository.compile
    { condition := .hasKey key, fields := [(idField, true)] }
  let doc ← repository.call (.findOne repository.collection compiled.query compiled.options)
  return doc.isSome

/-! ## Storing -/

/-- Store a value and give its key. -/
def insert (repository : Repository α) (value : α) : Action Value := do
  let doc ← Action.ofExcept (repository.model.toDocument value)
  let stamped := repository.policy.stamp (← Action.now) doc
  repository.call (.insertOne repository.collection stamped)

/-- A value that has to be there. -/
def found (value : Option α) : Action α :=
  Action.ofExcept (match value with
    | some value => .ok value
    | none => .error .notFound)

/-- Store a value and read it back. -/
def create (repository : Repository α) (value : α) : Action α := do
  let key ← repository.insert value
  found (← repository.findById key .all)

/-- Write a value over the first document that a filter selects, or store it if there is none, and
read the document. -/
def findOneOrCreate (repository : Repository α) (filter : Filter) (value : α) : Action α := do
  let compiled ← repository.compile filter
  let doc ← Action.ofExcept (repository.model.toDocument value)
  let update ← repository.compileUpdate .upsert doc
  let doc ← repository.call
    (.findOneAndUpdate repository.collection compiled.query update compiled.options true)
  let value ← Action.ofExcept (repository.model.decodeOption doc)
  found value

/-! ## Updating -/

/-- Update the first document that a filter selects, or store one if there is none. -/
def upsert (repository : Repository α) (filter : Filter) (spec : Document) :
    Action Collection.UpdateOutcome := do
  let compiled ← repository.compile filter
  let update ← repository.compileUpdate .upsert spec
  repository.call (.updateOne repository.collection compiled.query update true)

/-- Refuse a request that touched no document. -/
def affected (count : Nat) : Action Unit :=
  Action.ofExcept (if count = 0 then .error .notFound else .ok ())

/-- Update the first document that a filter selects; there has to be one. -/
def updateOne (repository : Repository α) (filter : Filter) (spec : Document) : Action Unit := do
  let compiled ← repository.compile filter
  let update ← repository.compileUpdate .update spec
  let outcome ← repository.call (.updateOne repository.collection compiled.query update false)
  affected outcome.matched

/-- Update the document with a key; there has to be one. -/
def updateById (repository : Repository α) (key : Value) (spec : Document) : Action Unit :=
  repository.updateOne { condition := .hasKey key } spec

/-- Update the first document that a filter selects and read it. -/
def findOneAndUpdate (repository : Repository α) (filter : Filter) (spec : Document) :
    Action (Option α) := do
  let compiled ← repository.compile filter
  let update ← repository.compileUpdate .update spec
  let doc ← repository.call
    (.findOneAndUpdate repository.collection compiled.query update compiled.options false)
  Action.ofExcept (repository.model.decodeOption doc)

/-- Update all documents that a filter selects and say how many became different. -/
def updateMany (repository : Repository α) (filter : Filter) (spec : Document) : Action Nat := do
  let compiled ← repository.compile filter
  let update ← repository.compileUpdate .update spec
  let outcome ← repository.call (.updateMany repository.collection compiled.query update)
  return outcome.modified

/-! ## Deleting -/

/-- The update that stands for a deletion, if the policy hides documents. -/
def deletionUpdate (repository : Repository α) : Action (Option Document) := do
  Action.ofExcept (repository.policy.deletionUpdate (← Action.now))

/-- Delete the first document that a filter selects; there has to be one. -/
def deleteOne (repository : Repository α) (filter : Filter) : Action Unit := do
  let compiled ← repository.compile filter
  match ← repository.deletionUpdate with
  | some update =>
    let outcome ← repository.call (.updateOne repository.collection compiled.query update false)
    affected outcome.matched
  | none => affected (← repository.call (.deleteOne repository.collection compiled.query))

/-- Delete the document with a key; there has to be one. -/
def deleteById (repository : Repository α) (key : Value) : Action Unit :=
  repository.deleteOne { condition := .hasKey key }

/-- Delete all documents that a filter selects and say how many. -/
def deleteMany (repository : Repository α) (filter : Filter) : Action Nat := do
  let compiled ← repository.compile filter
  match ← repository.deletionUpdate with
  | some update =>
    let outcome ← repository.call (.updateMany repository.collection compiled.query update)
    return outcome.modified
  | none => repository.call (.deleteMany repository.collection compiled.query)

end Repository

end DocStore
