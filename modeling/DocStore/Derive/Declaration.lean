/-! # Declarations

The declaration of a structure with attributes, as it is handed to the derivation of a model. An
attribute has a path and, in parentheses, a list of items; types and parameters are lists of
tokens. -/

namespace DocStore

namespace Derive

/-- An **item** of an attribute. -/
inductive Item where
  /-- A bare key. -/
  | word (key : String)
  /-- A key with a string. -/
  | text (key value : String)
  /-- A key with a number. -/
  | number (key : String) (value : Int)
  /-- A key with items of its own. -/
  | list (key : String) (items : List Item)

/-- The key of an item. -/
def Item.key : Item → String
  | .word key | .text key _ | .number key _ | .list key _ => key

/-- An **attribute**, with or without a list of items. -/
structure Attribute where
  /-- The path. -/
  path : String
  /-- The items in parentheses, if there are parentheses. -/
  items : Option (List Item)

/-- A **field** of a declaration. -/
structure FieldDeclaration where
  /-- The name. -/
  name : String
  /-- The type. -/
  type : List String
  /-- The attributes. -/
  attributes : List Attribute

/-- The **shape** of a declaration. -/
inductive Shape where
  /-- A structure with named fields. -/
  | named
  /-- A structure with numbered fields. -/
  | tuple
  /-- A structure without fields. -/
  | unit
  /-- A choice. -/
  | choice
  deriving DecidableEq

/-- A **declaration**. -/
structure Declaration where
  /-- The name. -/
  name : String
  /-- The shape. -/
  shape : Shape
  /-- The parameters. -/
  parameters : List String
  /-- The attributes. -/
  attributes : List Attribute
  /-- The fields. -/
  fields : List FieldDeclaration

end Derive

end DocStore
