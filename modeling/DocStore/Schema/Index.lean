import DocStore.Error
import DocStore.Schema.FieldType

/-! # Schemas

A schema lists the fields of a model under their logical names, with the names under which they are
stored and the types of what is stored. No logical name and no storage name occurs twice, and the
key of a document is a field whether it is declared or not. A reference may use either name; paths
into embedded documents are no references. -/

namespace DocStore

/-- A **field of a model** as it is declared. -/
structure FieldDescriptor where
  /-- The name that filters use. -/
  name : String
  /-- The name under which the field is stored. -/
  storageName : String
  /-- The declared type, as text. -/
  declaredType : String
  deriving DecidableEq

/-- What a schema knows of a field. -/
structure FieldInfo where
  /-- The name under which the field is stored. -/
  storageName : String
  /-- The type of what is stored. -/
  fieldType : FieldType
  deriving DecidableEq

/-- **A schema**: the fields of a model by their logical names. -/
structure Schema where
  /-- The name of the model. -/
  model : String
  /-- The fields, in the order of their declaration. -/
  fields : Entries FieldInfo

namespace Schema

/-- The field of a logical name. -/
def get? (schema : Schema) (name : String) : Option FieldInfo := Entries.get? schema.fields name

/-- Whether one of the fields is stored under a name. -/
def storesUnder (fields : Entries FieldInfo) (name : String) : Bool :=
  fields.any fun (_, info) => info.storageName == name

/-- The field that is stored under a name. -/
def stored? (schema : Schema) (name : String) : Option FieldInfo :=
  (schema.fields.find? fun (_, info) => info.storageName == name).map Prod.snd

/-- What a schema knows of a declared field. -/
def infoOf (field : FieldDescriptor) : FieldInfo :=
  ⟨field.storageName, FieldType.classify field.declaredType⟩

/-- Add declared fields one after the other; the first that repeats a name is refused, and its
logical name is looked at first. -/
def collect (fields : Entries FieldInfo) :
    List FieldDescriptor → Except SchemaFault (Entries FieldInfo)
  | [] => .ok fields
  | field :: rest =>
    if Entries.contains fields field.name then .error (.duplicateField field.name)
    else if storesUnder fields field.storageName then
      .error (.duplicateStorageName field.storageName)
    else collect (fields ++ [(field.name, infoOf field)]) rest

/-- Add the key of the document, unless a field uses its name. -/
def withKey (fields : Entries FieldInfo) : Entries FieldInfo :=
  if Entries.contains fields idField || storesUnder fields idField then fields
  else fields ++ [(idField, ⟨idField, .objectId⟩)]

/-- The schema of a list of declared fields. -/
def build (model : String) (fields : List FieldDescriptor) : Except Error Schema :=
  if fields.isEmpty then .error (.invalidSchema model .noFields)
  else
    match collect [] fields with
    | .ok indexed => .ok ⟨model, withKey indexed⟩
    | .error fault => .error (.invalidSchema model fault)

/-- **Resolution**: the field that a reference names, by its logical name or else by its storage
name. -/
def resolve (schema : Schema) (name : String) : Except Error FieldInfo :=
  if name.toList.contains '.' then .error (.nestedField name)
  else
    match schema.get? name with
    | some info => .ok info
    | none =>
      match schema.stored? name with
      | some info => .ok info
      | none => .error (.unknownField name)

/-- The number of fields. -/
def size (schema : Schema) : Nat := schema.fields.length

/-- Put an entry in front of the first entry with a larger name. -/
def placeByName (entry : String × FieldInfo) : Entries FieldInfo → Entries FieldInfo
  | [] => [entry]
  | next :: rest =>
    if entry.1 < next.1 then entry :: next :: rest else next :: placeByName entry rest

/-- The fields in the order of their logical names. -/
def sorted (schema : Schema) : Entries FieldInfo := schema.fields.foldr placeByName []

end Schema

end DocStore
