import DocStore.Error
import DocStore.Lifecycle.Stamp
import DocStore.Update.Apply

/-! # Compiling updates

What a caller asks an update to do is either a document of fields to write or a document of
operators. Compilation brings both into one form, drops what would touch a field that the policy
keeps, with a warning for each, and adds the stamps of the policy. -/

namespace DocStore

/-- The **style** of an update. -/
inductive UpdateStyle where
  /-- Fields to write. -/
  | fields
  /-- Operators with buckets of fields. -/
  | operators
  deriving DecidableEq

/-- What an update does with the creation time. -/
inductive CreatedStamp where
  /-- It is left as it is. -/
  | never
  /-- It is written if the update stores a new document. -/
  | onInsert
  /-- It is written anew. -/
  | restamp
  deriving DecidableEq

/-- **What an update is for**, as far as lifecycle fields are concerned. -/
structure UpdateContext where
  /-- What it does with the creation time. -/
  created : CreatedStamp := .never
  /-- Whether it stands for a deletion. -/
  softDelete : Bool := false

namespace UpdateContext

/-- An update of documents that are stored. -/
def update : UpdateContext := {}

/-- An update that may store a new document. -/
def upsert : UpdateContext := { created := .onInsert }

/-- An update that stands for a deletion. -/
def deletion : UpdateContext := { softDelete := true }

end UpdateContext

/-- A **warning**: a part of an update was dropped. -/
inductive UpdateWarning where
  /-- A lifecycle field stood in the bucket of an operator. -/
  | managedField (field operator : String)
  /-- A field was to be renamed to a lifecycle field. -/
  | managedRename (source : String)
  deriving DecidableEq

/-- The wording of a warning. -/
def UpdateWarning.message : UpdateWarning → String
  | .managedField field operator =>
    "ignoring caller write to " ++ field ++ " in " ++ operator ++ "; the repository manages it"
  | .managedRename source => "ignoring rename of " ++ source ++ " onto a managed field"

/-- Operators with their buckets. -/
abbrev Buckets : Type := Entries Document

namespace UpdateSpec

/-- The style of an update. An empty one has operators, but none. -/
def style (spec : Document) : Except Error UpdateStyle :=
  let keys := Entries.keys spec
  match keys.any fun key => !isOperator key, keys.any isOperator with
  | true, true => .error .mixedUpdate
  | true, false => .ok .fields
  | false, _ => .ok .operators

/-- Whether an entry of a `$rename` bucket moves a field onto one that the policy keeps. -/
def renamesOntoOwned (policy : Policy) : Value → Bool
  | .string target => policy.owns target
  | _ => false

/-- Drop the fields that the policy keeps from a bucket. -/
def stripFields (policy : Policy) (operator : String) (bucket : Document) :
    List UpdateWarning × Document :=
  let owned := policy.ownedFields.filter fun field => Entries.contains bucket field
  (owned.map fun field => .managedField field operator, owned.foldl Entries.remove bucket)

/-- Drop the entries that rename a field onto one that the policy keeps. -/
def stripRenames (policy : Policy) (bucket : Document) : List UpdateWarning × Document :=
  ((bucket.filter fun entry => renamesOntoOwned policy entry.2).map fun entry =>
      .managedRename entry.1,
    bucket.filter fun entry => !renamesOntoOwned policy entry.2)

/-- Drop from the bucket of an operator what touches a field that the policy keeps. -/
def strip (policy : Policy) (operator : String) (bucket : Document) :
    List UpdateWarning × Document :=
  let (warnings, bucket) := stripFields policy operator bucket
  if operator = Update.Operator.rename.key then
    let (more, bucket) := stripRenames policy bucket
    (warnings ++ more, bucket)
  else (warnings, bucket)

/-- Strip the buckets of operators and leave out those that have nothing left. The first operand
that is no bucket is the error; the warnings before it still count. -/
def stripAll (policy : Policy) :
    List (String × Value) → List UpdateWarning × Except Error Buckets
  | [] => ([], .ok [])
  | (operator, .document bucket) :: rest =>
    let (warnings, bucket) := strip policy operator bucket
    let (more, buckets) := stripAll policy rest
    (warnings ++ more,
      buckets.map fun buckets => if bucket.isEmpty then buckets else (operator, bucket) :: buckets)
  | (operator, _) :: _ => ([], .error (.invalidUpdate operator))

/-- The bucket of `$set` and the other operators of an update. -/
def split (spec : Document) : Except Error (Document × Document) :=
  match style spec with
  | .error error => .error error
  | .ok .fields => .ok (spec, [])
  | .ok .operators =>
    -- the operand of `$set` is looked at before all others, wherever it stands
    let others := Entries.remove spec Update.Operator.set.key
    match Entries.get? spec Update.Operator.set.key with
    | none => .ok ([], others)
    | some (.document bucket) => .ok (bucket, others)
    | some _ => .error (.invalidUpdate Update.Operator.set.key)

/-- The bucket of an operator. -/
def bucketOf (buckets : Buckets) (operator : Update.Operator) : Document :=
  (Entries.get? buckets operator.key).getD []

/-- Move an operator to the end with a bucket; an empty bucket is left out. -/
def moveToEnd (buckets : Buckets) (operator : Update.Operator) (bucket : Document) : Buckets :=
  let others := Entries.remove buckets operator.key
  if bucket.isEmpty then others else others ++ [(operator.key, bucket)]

/-- The fields of the policy that an update stamps with the time at which it is carried out. -/
def timeStamps (policy : Policy) (context : UpdateContext) (bucket : Document) : Document :=
  let bucket := Entries.insertIf bucket policy.modified modifiedField (.bool true)
  let bucket := Entries.insertIf bucket (policy.deleted && context.softDelete) deletedField
    (.bool true)
  Entries.insertIf bucket (policy.created && decide (context.created = .restamp)) createdField
    (.bool true)

/-- Add the stamps of the policy behind all other operators. -/
def stamped (policy : Policy) (context : UpdateContext) (now : DateTime) (buckets : Buckets) :
    Buckets :=
  let buckets :=
    if policy.isActive then
      moveToEnd buckets .currentDate
        (timeStamps policy context (bucketOf buckets .currentDate))
    else buckets
  if policy.created && decide (context.created = .onInsert) then
    moveToEnd buckets .setOnInsert
      (Entries.insert (bucketOf buckets .setOnInsert) createdField (.dateTime now))
  else buckets

/-- The update document of operators with their buckets. -/
def toDocument (buckets : Buckets) : Document :=
  buckets.map fun (operator, bucket) => (operator, .document bucket)

/-- The update document of stamped buckets, of which there has to be one. -/
def finish (buckets : Buckets) : Except Error Document :=
  if buckets.isEmpty then .error .emptyUpdate else .ok (toDocument buckets)

/-- **Compilation**: the update that is handed to the store, with the warnings. `now` is the time
written to a new document; all other stamps take the time at which the update is carried out. -/
def compile (policy : Policy) (context : UpdateContext) (now : DateTime) (spec : Document) :
    List UpdateWarning × Except Error Document :=
  match split spec with
  | .error error => ([], .error error)
  | .ok (set, others) =>
    -- `$set` is read first and written last, in front of the stamps
    let (warnings, set) := strip policy Update.Operator.set.key set
    let (more, buckets) := stripAll policy others
    (warnings ++ more,
      buckets.bind fun buckets => finish (stamped policy context now (moveToEnd buckets .set set)))

end UpdateSpec

/-- The update that stands for a deletion, if the policy hides documents instead of removing
them. -/
def Policy.deletionUpdate (policy : Policy) (now : DateTime) : Except Error (Option Document) :=
  if policy.deleted then (UpdateSpec.compile policy .deletion now []).2.map some else .ok none

end DocStore
