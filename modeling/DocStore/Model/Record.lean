import DocStore.Model.Basic

/-! # Records

A record type lists typed fields in order. Reading a document as a record keeps the fields of the
type, in its order and in the form in which they are written, and drops all others; a field that is
missing or has the wrong type is refused unless the field is optional or has a default. -/

namespace DocStore

/-- How a **typed field** is read and written. -/
inductive FieldCodec where
  /-- An object id. -/
  | objectId
  /-- A point in time. -/
  | dateTime
  /-- A string. -/
  | string
  /-- A signed 64-bit integer, also read from 32 bits. -/
  | int64
  /-- An unsigned 32-bit integer, written in 64 bits. -/
  | uint32
  /-- An unsigned 8-bit integer, written in 32 bits. -/
  | uint8
  /-- A double, also read from integers. -/
  | double
  /-- A list. -/
  | list (item : FieldCodec)

namespace FieldCodec

/-- The whole number of an integer value. -/
def integer? : Value → Option Int
  | .int32 n => some n.toInt
  | .int64 n => some n.toInt
  | _ => none

/-- The whole number of an integer value from zero to below a bound. -/
def unsigned? (bound : Int) (value : Value) : Option Int :=
  (integer? value).filter fun n => decide (0 ≤ n) && decide (n < bound)

/-- A value in the form in which a field writes it, if the field can read it. -/
def read? : FieldCodec → Value → Option Value
  | .objectId, .objectId id => some (.objectId id)
  | .dateTime, .dateTime at_ => some (.dateTime at_)
  | .string, .string text => some (.string text)
  | .int64, value => (integer? value).map fun n => .int64 (Int64.ofInt n)
  | .uint32, value => (unsigned? (2 ^ 32) value).map fun n => .int64 (Int64.ofInt n)
  | .uint8, value => (unsigned? (2 ^ 8) value).map fun n => .int32 (Int32.ofInt n)
  | .double, value => value.number?.map .double
  | .list item, .array items => (items.mapM (read? item)).map .array
  | _, _ => none

end FieldCodec

/-- What is made of a field that is **missing**. -/
inductive Presence where
  /-- The document is refused. -/
  | required
  /-- The field is left out, also if it is null. -/
  | optional
  /-- The field has a value of its own. -/
  | default (value : Value)

/-- A field of a record type. -/
structure RecordField where
  /-- The logical name. -/
  name : String
  /-- The name under which the field is stored. -/
  key : String
  /-- The declared type, as text. -/
  declaredType : String
  /-- How it is read and written. -/
  codec : FieldCodec
  /-- What is made of it where it is missing. -/
  presence : Presence := .required
  /-- Whether filters can name it. -/
  indexed : Bool := true

/-- A **record type**: typed fields in order. -/
abbrev RecordType : Type := List RecordField

namespace RecordType

/-- The entries that a field of a document is written as. -/
def readField (doc : Document) (field : RecordField) : Except Error Document :=
  let written (value : Value) : Except Error Document :=
    match field.codec.read? value with
    | some value => .ok [(field.key, value)]
    | none => .error .deserialization
  match Entries.get? doc field.key, field.presence with
  | some .null, .optional => .ok []
  | some value, _ => written value
  | none, .required => .error .deserialization
  | none, .optional => .ok []
  | none, .default value => .ok [(field.key, value)]

/-- A document as a record of the type. -/
def read (type : RecordType) (doc : Document) : Except Error Document :=
  (type.mapM (readField doc)).map List.flatten

/-- The fields that filters can name. -/
def descriptors (type : RecordType) : List FieldDescriptor :=
  (type.filter RecordField.indexed).map fun field =>
    ⟨field.name, field.key, field.declaredType⟩

end RecordType

/-- A model of the records of a type. -/
def Model.ofRecords (name plural collection connector : String) (type : RecordType) :
    Model Document where
  name := name
  plural := plural
  collection := collection
  connector := connector
  fields := type.descriptors
  encode := .ok
  decode := type.read

end DocStore
