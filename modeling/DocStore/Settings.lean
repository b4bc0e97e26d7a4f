import DocStore.Error
import DocStore.Lifecycle.Policy

/-! # Settings

Connectors and repositories are configured by documents. A connector needs a name, an address and a
database; a repository may say which lifecycle fields it keeps and how long a store call may
take. -/

namespace DocStore

/-- The **options of a connector**. -/
structure ConnectorOptions where
  /-- The name. -/
  name : String
  /-- The address. -/
  uri : String
  /-- The database. -/
  database : String

namespace ConnectorOptions

/-- A field that has to be a string. -/
def stringField (doc : Document) (field : String) : Except Error String :=
  match Entries.get? doc field with
  | some (.string text) => .ok text
  | _ => .error .deserialization

/-- Read the options of a connector; all three are required, other fields do not matter. -/
def ofDocument (doc : Document) : Except Error ConnectorOptions := do
  let name ← stringField doc "name"
  let uri ← stringField doc "uri"
  let database ← stringField doc "database"
  return ⟨name, uri, database⟩

/-- The schemes that an address can have. -/
def schemes : List String := ["mongodb://", "mongodb+srv://"]

/-- Whether a text begins with a given one. -/
def startsWith (start text : String) : Bool := start.toList.isPrefixOf text.toList

/-- The options themselves if they name a database and an address of a known scheme. -/
def validate (options : ConnectorOptions) : Except Error ConnectorOptions :=
  if options.database.isEmpty then .error (.missingDatabase options.name)
  else if schemes.any fun scheme => startsWith scheme options.uri then .ok options
  else .error (.invalidConnectionUri options.uri)

end ConnectorOptions

/-- The **options of a repository**. -/
structure RepositoryOptions where
  /-- The lifecycle fields that it keeps. -/
  policy : Policy := {}
  /-- How long a store call may take. -/
  timeout : Duration := ⟨10, 0⟩
  deriving DecidableEq

namespace RepositoryOptions

/-- A flag that is cleared where it is missing. -/
def flagField (doc : Document) (field : String) : Except Error Bool :=
  match Entries.get? doc field with
  | none => .ok false
  | some (.bool flag) => .ok flag
  | some _ => .error .deserialization

/-- A whole number from zero to below a bound. -/
def countBelow (bound : Nat) (value : Value) : Except Error Nat :=
  let check (n : Int) : Except Error Nat :=
    if 0 ≤ n ∧ n < bound then .ok n.toNat else .error .deserialization
  match value with
  | .int32 n => check n.toInt
  | .int64 n => check n.toInt
  | _ => .error .deserialization

/-- A duration of seconds and nanoseconds, which may add up to whole seconds. -/
def durationOf (secs nanos : Value) : Except Error Duration := do
  let secs ← countBelow (Nat.pow 2 64) secs
  let nanos ← countBelow (Nat.pow 2 32) nanos
  let duration := Duration.ofParts secs nanos
  if duration.secs < Nat.pow 2 64 then .ok duration else .error .deserialization

/-- Read a duration: a document of exactly `secs` and `nanos`, or an array that begins with
both. -/
def readDuration : Value → Except Error Duration
  | .array (secs :: nanos :: _) => durationOf secs nanos
  | .document fields =>
    match fields.length, Entries.get? fields "secs", Entries.get? fields "nanos" with
    | 2, some secs, some nanos => durationOf secs nanos
    | _, _, _ => .error .deserialization
  | _ => .error .deserialization

/-- Read the options of a repository; what is missing has its default, other fields do not
matter. -/
def ofDocument (doc : Document) : Except Error RepositoryOptions := do
  let created ← flagField doc "created"
  let modified ← flagField doc "modified"
  let deleted ← flagField doc "deleted"
  let timeout ← match Entries.get? doc "timeout" with
    | none => .ok ({} : RepositoryOptions).timeout
    | some value => readDuration value
  return { policy := ⟨created, modified, deleted⟩, timeout := timeout }

end RepositoryOptions

end DocStore
