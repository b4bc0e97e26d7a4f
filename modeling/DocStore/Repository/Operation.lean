import DocStore.Repository.Stream

/-! # Operations

Everything that a repository can be asked to do, as a value, with the answer that it gives. A run
of operations is a list of such values. -/

namespace DocStore

/-- **An operation** of a repository. -/
inductive Operation (α : Type) where
  | find (filter : Filter)
  | findOne (filter : Filter)
  | findById (key : Value) (filter : Filter)
  | findStream (filter : Filter)
  | findWithDeleted (filter : Filter)
  | findOneWithDeleted (filter : Filter)
  | deletion (key : Value)
  | insert (value : α)
  | create (value : α)
  | findOneOrCreate (filter : Filter) (value : α)
  | upsert (filter : Filter) (spec : Document)
  | updateOne (filter : Filter) (spec : Document)
  | updateById (key : Value) (spec : Document)
  | findOneAndUpdate (filter : Filter) (spec : Document)
  | updateMany (filter : Filter) (spec : Document)
  | count (filter : Filter)
  | hasKey (key : Value)
  | deleteOne (filter : Filter)
  | deleteById (key : Value)
  | deleteMany (filter : Filter)

/-- **The answer** to an operation. -/
inductive Answer (α : Type) where
  /-- Values. -/
  | values (values : List α)
  /-- A value or none. -/
  | value (value : Option α)
  /-- A stream. -/
  | stream (stream : Repository.Streamed α)
  /-- The key of a stored document. -/
  | key (key : Value)
  /-- The outcome of an update. -/
  | outcome (outcome : Collection.UpdateOutcome)
  /-- A number of documents. -/
  | count (count : Nat)
  /-- Yes or no. -/
  | flag (flag : Bool)
  /-- The deletion state of a document, if there is one. -/
  | deletion (deletion : Option Deletion)
  /-- Nothing more than that it is done. -/
  | done

namespace Repository

variable [Runtime] {α : Type}

/-- Carry out an operation. -/
def perform (repository : Repository α) : Operation α → Action (Answer α)
  | .find filter => .values <$> repository.find filter
  | .findOne filter => .value <$> repository.findOne filter
  | .findById key filter => .value <$> repository.findById key filter
  | .findStream filter => fun moment session =>
    let (stream, session) := repository.findStream filter moment session
    (.ok (.stream stream), session)
  | .findWithDeleted filter => .values <$> repository.findWithDeleted filter
  | .findOneWithDeleted filter => .value <$> repository.findOneWithDeleted filter
  | .deletion key => .deletion <$> repository.deletion key
  | .insert value => .key <$> repository.insert value
  | .create value => (fun value => .value (some value)) <$> repository.create value
  | .findOneOrCreate filter value =>
    (fun value => .value (some value)) <$> repository.findOneOrCreate filter value
  | .upsert filter spec => .outcome <$> repository.upsert filter spec
  | .updateOne filter spec => (fun _ => .done) <$> repository.updateOne filter spec
  | .updateById key spec => (fun _ => .done) <$> repository.updateById key spec
  | .findOneAndUpdate filter spec => .value <$> repository.findOneAndUpdate filter spec
  | .updateMany filter spec => .count <$> repository.updateMany filter spec
  | .count filter => .count <$> repository.count filter
  | .hasKey key => .flag <$> repository.hasKey key
  | .deleteOne filter => (fun _ => .done) <$> repository.deleteOne filter
  | .deleteById key => (fun _ => .done) <$> repository.deleteById key
  | .deleteMany filter => .count <$> repository.deleteMany filter

end Repository

end DocStore
