import DocStore.Derive.Attributes
import DocStore.Schema.Index

/-! # Deriving models

From a declaration with attributes to the description of a model: the names that the model goes by
and the fields that it stores, each under its logical name and its storage name. -/

namespace DocStore

namespace Derive

/-- A **field of a description**. -/
inductive DescribedField where
  /-- A field of the model itself. -/
  | field (field : FieldDescriptor)
  /-- All fields of another type. -/
  | flattened (type : String)

/-- The **fields that are stored** for a type. -/
structure FieldsDescription where
  /-- The type, with its parameters. -/
  target : String
  /-- The fields, in order. -/
  fields : List DescribedField

/-- A **described model**. -/
structure ModelDescription where
  /-- What is stored for it. -/
  stored : FieldsDescription
  /-- The name of the model. -/
  name : String
  /-- Its collection. -/
  collection : String
  /-- Its name for several values. -/
  plural : String
  /-- Its connector. -/
  connector : String

/-- Tokens with single spaces between them. -/
def spaced (tokens : List String) : String := " ".intercalate tokens

/-- A name without the mark that lets it be a keyword. -/
def plainName (name : String) : String :=
  match name.toList with
  | 'r' :: '#' :: rest => String.ofList rest
  | _ => name

/-- How deep a token leads into nested parameter lists. -/
def depthAfter (depth : Nat) (token : String) : Nat :=
  match token with
  | "<" | "(" | "[" => depth + 1
  | ">" | ")" | "]" => depth - 1
  | _ => depth

/-- The parameters as arguments: commas stay, what follows a colon or an equals sign up to the next
comma outside of nested lists goes, and so does the mark of a constant. -/
def argumentTokens (depth : Nat) (inBound : Bool) : List String → List String
  | [] => []
  | token :: rest =>
    if depth = 0 ∧ token = "," then token :: argumentTokens 0 false rest
    else
      let bound := inBound || token == ":" || token == "="
      let rest := argumentTokens (depthAfter depth token) bound rest
      if bound || token == "const" then rest else token :: rest

/-- The type that a declaration declares, applied to its own parameters. -/
def targetOf (declaration : Declaration) : String :=
  if declaration.parameters.isEmpty then declaration.name
  else
    spaced (declaration.name :: "<" :: argumentTokens 0 false declaration.parameters ++ [">"])

/-- What a field of a declaration contributes. -/
def describeField (rule : Option RenameRule) (field : FieldDeclaration) :
    Except DeriveError (List DescribedField) := do
  let attributes ← FieldAttributes.read field.attributes
  let name := plainName field.name
  let type := spaced field.type
  if attributes.skipped then return []
  else if attributes.flattened then return [.flattened type]
  else
    let renamed := match rule with
      | some rule => rule.apply name
      | none => name
    return [.field ⟨attributes.name.getD name, attributes.storageName.getD renamed, type⟩]

/-- The fields that are stored for a declaration. -/
def describeFields (declaration : Declaration) : Except DeriveError FieldsDescription :=
  if declaration.shape = .named then do
    let rule ← readRenameRule declaration.attributes
    let fields ← declaration.fields.mapM (describeField rule)
    return ⟨targetOf declaration, fields.flatten⟩
  else .error .noNamedFields

/-- The model that a declaration describes. Its name is that of the declaration unless it has one of
its own; the collection has the name of the model, and several values have an `s` at the end. -/
def describeModel (declaration : Declaration) : Except DeriveError ModelDescription :=
  if !declaration.parameters.isEmpty then .error .hasParameters
  else do
    let names ← ModelNames.read declaration.attributes
    let stored ← describeFields declaration
    let name := names.name.getD declaration.name
    return {
      stored := stored
      name := name
      collection := names.collection.getD name
      plural := names.plural.getD (name ++ "s")
      connector := names.connector.getD "default" }

end Derive

end DocStore
