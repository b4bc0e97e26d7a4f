import DocStore.Text.Duration
import DocStore.Value.Text

/-! # Errors and their causes

An error says why a request was refused. What a store refuses is a `Fault`; everything else is
refused before the store is asked. The wording of every cause stands in one place, `Error.message`,
and `Error.kind` sorts the causes for callers that only branch. -/

namespace DocStore

/-- **A fault**: why a store refuses a request. -/
inductive Fault where
  /-- An operand that has to be an array is none. -/
  | arrayExpected (operator : String)
  /-- A combinator has an item that is no document. -/
  | documentsExpected (operator : String)
  /-- A query names an operator that does not exist. -/
  | unknownQueryOperator (operator : String)
  /-- A type test names its type neither by alias nor by code. -/
  | typeNameExpected
  /-- A type test names a type that does not exist. -/
  | unknownTypeAlias (name : String)
  /-- A type test gives a code that does not exist. -/
  | unknownTypeCode (code : Int64)
  /-- A pattern test has an operand that is no pattern. -/
  | patternExpected
  /-- A pattern is not well formed. -/
  | malformedPattern
  /-- An update operator has an operand that is no document. -/
  | documentExpected (operator : String)
  /-- A field is renamed to something that is no string. -/
  | renameTargetExpected
  /-- An update names an operator that does not exist. -/
  | unknownUpdateOperator (operator : String)
  /-- A sum leaves the 64-bit integers. -/
  | incrementOverflow (field : String)
  /-- A sum has a summand that is no number. -/
  | notNumeric (amount : Value) (field : String)
  /-- A document is stored under a key that another one has. -/
  | duplicateKey (key : Value) (collection : String)
  /-- Any other fault, in its own words. -/
  | other (text : String)

namespace Fault

/-- The wording of a fault. -/
def message : Fault → String
  | .arrayExpected operator => operator ++ " expects an array"
  | .documentsExpected operator => operator ++ " expects documents"
  | .unknownQueryOperator operator => "unsupported query operator " ++ operator
  | .typeNameExpected => "$type expects an alias or a code"
  | .unknownTypeAlias name => "unsupported $type " ++ name
  | .unknownTypeCode code => "unsupported $type code " ++ toString code.toInt
  | .patternExpected => "$regex expects a string"
  | .malformedPattern => "invalid regex"
  | .documentExpected operator => operator ++ " expects a document"
  | .renameTargetExpected => "$rename expects string targets"
  | .unknownUpdateOperator operator => "unsupported update operator " ++ operator
  | .incrementOverflow field => "$inc on " ++ field ++ " overflows int64"
  | .notNumeric amount field =>
    "cannot apply $inc with " ++ amount.toText ++ " to non-numeric field " ++ field
  | .duplicateKey key collection => "duplicate key " ++ key.toText ++ " in " ++ collection
  | .other text => text

end Fault

/-- Why a page of results cannot be cut out. -/
inductive PaginationFault where
  /-- A negative number of documents is to be skipped. -/
  | negativeSkip (count : Int64)
  /-- A negative number of documents is to be returned. -/
  | negativeLimit (count : Int64)
  /-- Any other reason, in its own words. -/
  | other (text : String)

/-- The wording of a pagination fault. -/
def PaginationFault.message : PaginationFault → String
  | .negativeSkip count => "skip must be non-negative, got " ++ toString count.toInt
  | .negativeLimit count => "limit must be non-negative, got " ++ toString count.toInt
  | .other text => text

/-- Why a list of fields makes no schema. -/
inductive SchemaFault where
  /-- There is no field. -/
  | noFields
  /-- A logical name appears twice. -/
  | duplicateField (name : String)
  /-- A storage name appears twice. -/
  | duplicateStorageName (name : String)
  /-- Any other reason, in its own words. -/
  | other (text : String)

/-- The wording of a schema fault. -/
def SchemaFault.message : SchemaFault → String
  | .noFields => "no fields discoverable"
  | .duplicateField name => "duplicate field " ++ name
  | .duplicateStorageName name => "duplicate storage name " ++ name
  | .other text => text

/-- **An error**: why a request was refused. -/
inductive Error where
  /-- A field reference names no field of the schema. -/
  | unknownField (name : String)
  /-- A field reference leads into an embedded document. -/
  | nestedField (path : String)
  /-- A page of results cannot be cut out. -/
  | invalidPagination (fault : PaginationFault)
  /-- A projection includes some fields and excludes others. -/
  | mixedProjection
  /-- A list of fields makes no schema. -/
  | invalidSchema (model : String) (fault : SchemaFault)
  /-- An update has fields next to operators. -/
  | mixedUpdate
  /-- An operator of an update has an operand that is no document. -/
  | invalidUpdate (operator : String)
  /-- Nothing is left of an update. -/
  | emptyUpdate
  /-- No document matches. -/
  | notFound
  /-- The store refuses. -/
  | store (fault : Fault)
  /-- A store call takes longer than it may. -/
  | timeout (limit : Duration)
  /-- A value cannot be written as a document. -/
  | serialization
  /-- A document cannot be read as a value. -/
  | deserialization
  /-- There is no connector of this name. -/
  | connectorNotFound (name : String)
  /-- A model has no connector. -/
  | modelNotRegistered (model : String)
  /-- A connector names no database. -/
  | missingDatabase (connector : String)
  /-- A connection address has an unknown scheme. -/
  | invalidConnectionUri (uri : String)

/-- The coarse kinds of errors. -/
inductive ErrorKind where
  | schema
  | mixedUpdate
  | notFound
  | store
  | other
  deriving DecidableEq

namespace Error

/-- The kind of an error. -/
def kind : Error → ErrorKind
  | .unknownField _ | .nestedField _ => .schema
  | .mixedUpdate => .mixedUpdate
  | .notFound => .notFound
  | .store _ | .timeout _ => .store
  | _ => .other

/-- The wording of an error. -/
def message : Error → String
  | .unknownField name => "unknown field: " ++ name
  | .nestedField path => "can not query on nested fields: " ++ path
  | .invalidPagination fault => "invalid pagination: " ++ fault.message
  | .mixedProjection => "projection mixes included and excluded fields"
  | .invalidSchema model fault => "invalid schema for " ++ model ++ ": " ++ fault.message
  | .mixedUpdate => "the update has a mix between fields and commands"
  | .invalidUpdate operator =>
    "invalid update operator " ++ operator ++ ": operand must be a document"
  | .emptyUpdate => "the update is empty"
  | .notFound => "no documents found"
  | .store fault => "driver error: " ++ fault.message
  | .timeout limit => "driver call timed out after " ++ limit.toText
  | .serialization => "the value can not be written as a document"
  | .deserialization => "the document can not be read as a value"
  | .connectorNotFound name => "connector with name " ++ name ++ " does not exist"
  | .modelNotRegistered model => "the model " ++ model ++ " is not registered"
  | .missingDatabase connector => "database value is required for connector " ++ connector
  | .invalidConnectionUri uri => "invalid connection uri: " ++ uri

end Error

end DocStore
