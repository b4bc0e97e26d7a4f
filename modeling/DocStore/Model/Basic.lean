import DocStore.Schema.Index

/-! # Models

A model says how values of a type are stored: in which collection, through which connector, with
which fields, and how a value becomes a document and back. -/

namespace DocStore

/-- A **model** of a type of values. -/
structure Model (α : Type) where
  /-- The name of the model. -/
  name : String
  /-- Its name for several values. -/
  plural : String
  /-- The collection that its documents are stored in. -/
  collection : String
  /-- The connector of the store that has the collection. -/
  connector : String
  /-- The fields of its documents. -/
  fields : List FieldDescriptor
  /-- Write a value as a document. -/
  encode : α → Except Error Document
  /-- Read a document as a value. -/
  decode : Document → Except Error α

namespace Model

variable {α : Type}

/-- The schema of a model. -/
def schema (model : Model α) : Except Error Schema := Schema.build model.name model.fields

/-- The document that a value is stored as: a key that is null is left to the store. -/
def toDocument (model : Model α) (value : α) : Except Error Document :=
  (model.encode value).map fun doc =>
    if (Entries.get? doc idField).any Value.isNull then Entries.remove doc idField else doc

/-- Read documents up to the first that can not be read, with its error. -/
def decodeWhile (model : Model α) : List Document → List α × Option Error
  | [] => ([], none)
  | doc :: rest =>
    match model.decode doc with
    | .error error => ([], some error)
    | .ok value =>
      let (values, failure) := decodeWhile model rest
      (value :: values, failure)

/-- Read all documents, or fail as the first that can not be read. -/
def decodeAll (model : Model α) (docs : List Document) : Except Error (List α) :=
  match model.decodeWhile docs with
  | (values, none) => .ok values
  | (_, some error) => .error error

/-- Read a document if there is one. -/
def decodeOption (model : Model α) : Option Document → Except Error (Option α)
  | none => .ok none
  | some doc => (model.decode doc).map some

/-- A model whose values are the documents themselves. -/
def raw (name collection : String) (fields : List FieldDescriptor) : Model Document where
  name := name
  plural := name ++ "s"
  collection := collection
  connector := "default"
  fields := fields
  encode := .ok
  decode := .ok

end Model

/-- What is known of a model without its type. -/
structure Registration where
  /-- The name of the model. -/
  model : String
  /-- Its collection. -/
  collection : String
  /-- Its connector. -/
  connector : String
  /-- The logical names of its fields. -/
  fields : List String

/-- The registration of a model. -/
def Model.registration {α : Type} (model : Model α) : Registration :=
  ⟨model.name, model.collection, model.connector, model.fields.map FieldDescriptor.name⟩

/-- The text of a registration. -/
def Registration.toText (registration : Registration) : String :=
  "ModelMeta \x7b model: " ++ registration.model ++ ", collection: " ++ registration.collection ++
    ", connector: " ++ registration.connector ++ ", fields: [" ++
    ", ".intercalate (registration.fields.map Value.quoted) ++ "] \x7d"

end DocStore
