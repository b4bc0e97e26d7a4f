import DocStore.Schema.Index

/-! # Tables of a schema

A schema is looked up under two kinds of names. As tables it is one map from logical names to fields
and one from storage names to logical names. Declared fields go into both, one after the other, and
the first one that finds a name of its own taken ends the filling. A storage name leads to a field
through the logical name that is kept for it. -/

namespace DocStore

namespace Schema

/-- **The tables** of a schema. -/
structure Tables where
  /-- The fields by their logical names. -/
  byName : Entries FieldInfo := []
  /-- The logical names by storage names. -/
  byStorage : Entries String := []

namespace Tables

/-- Enter a field in both tables. Its logical name must be new, and then its storage name. -/
def add (tables : Tables) (name : String) (info : FieldInfo) : Except SchemaFault Tables :=
  if Entries.contains tables.byName name then .error (.duplicateField name)
  else if Entries.contains tables.byStorage info.storageName then
    .error (.duplicateStorageName info.storageName)
  else .ok ⟨Entries.insert tables.byName name info,
    Entries.insert tables.byStorage info.storageName name⟩

/-- Enter declared fields one after the other. -/
def fill (tables : Tables) : List FieldDescriptor → Except SchemaFault Tables
  | [] => .ok tables
  | field :: rest => (tables.add field.name (infoOf field)).bind fun tables => tables.fill rest

/-- Enter the key of the document, unless its name is taken in one of the tables. -/
def withKey (tables : Tables) : Tables :=
  if !Entries.contains tables.byStorage idField && !Entries.contains tables.byName idField then
    ⟨Entries.insert tables.byName idField ⟨idField, .objectId⟩,
      Entries.insert tables.byStorage idField idField⟩
  else tables

/-- The tables of a list of declared fields. -/
def build (model : String) (fields : List FieldDescriptor) : Except Error Tables :=
  if fields.isEmpty then .error (.invalidSchema model .noFields)
  else
    match ({} : Tables).fill fields with
    | .ok tables => .ok tables.withKey
    | .error fault => .error (.invalidSchema model fault)

/-- The field that a reference names: the one of that logical name, or else the one of the logical
name that the storage name leads to. -/
def resolve (tables : Tables) (name : String) : Except Error FieldInfo :=
  if name.toList.contains '.' then .error (.nestedField name)
  else
    match Entries.get? tables.byName name with
    | some info => .ok info
    | none =>
      match (Entries.get? tables.byStorage name).bind (Entries.get? tables.byName) with
      | some info => .ok info
      | none => .error (.unknownField name)

end Tables

end Schema

end DocStore
