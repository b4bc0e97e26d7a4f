import DocStore.Derive.Declaration
import DocStore.Derive.Naming

/-! # Reading attributes

Two paths matter: `model` attributes name the model and its fields, `serde` attributes name what is
stored. Items are read in order and the first that is unknown or malformed is the error. -/

namespace DocStore

namespace Derive

/-- Why a model can not be derived. -/
inductive DeriveError where
  /-- The declaration has parameters. -/
  | hasParameters
  /-- The declaration has no named fields. -/
  | noNamedFields
  /-- A model has no attribute of this key. -/
  | unknownModelAttribute
  /-- A field of a model has no attribute of this key. -/
  | unknownFieldAttribute
  /-- There is no rename rule of this spelling. -/
  | unknownRenameRule (rule : String)
  /-- An attribute is not well formed. -/
  | malformed

/-- The wording of an error; what is not well formed has none of its own. -/
def DeriveError.message? : DeriveError → Option String
  | .hasParameters => some "Model can not be derived for generic types"
  | .noNamedFields => some "only structs with named fields are supported"
  | .unknownModelAttribute => some "unknown model attribute"
  | .unknownFieldAttribute => some "unknown model field attribute"
  | .unknownRenameRule rule => some ("unknown rename rule \x60" ++ rule ++ "\x60")
  | .malformed => none

/-- The string of an item that has to have one. -/
def stringOf : Item → Except DeriveError String
  | .text _ value => .ok value
  | _ => .error .malformed

/-- An item that has to be a bare key. -/
def flagOf : Item → Except DeriveError Unit
  | .word _ => .ok ()
  | _ => .error .malformed

mutual

/-- Pass over an item that does not matter: whatever it holds has to be well formed. -/
def passOver : Item → Except DeriveError Unit
  | .list _ [] => .error .malformed
  | .list _ items => passOverAll items
  | _ => .ok ()
termination_by structural item => item

/-- Pass over items that do not matter. -/
def passOverAll : List Item → Except DeriveError Unit
  | [] => .ok ()
  | item :: rest =>
    match passOver item with
    | .error error => .error error
    | .ok () => passOverAll rest
termination_by structural items => items

end

/-- Read the attributes of a path one item after the other. -/
def readAttributes {α : Type} (path : String) (readItem : α → Item → Except DeriveError α)
    (start : α) (attributes : List Attribute) : Except DeriveError α :=
  attributes.foldlM
    (fun state attr =>
      if attr.path = path then
        match attr.items with
        | some items => items.foldlM readItem state
        | none => .error .malformed
      else .ok state)
    start

/-- The string for storing that an item gives, either its own or that of its item `serialize`. -/
def serializedText (item : Item) : Except DeriveError (Option String) :=
  match item with
  | .text _ value => .ok (some value)
  | .list _ (first :: rest) =>
    (first :: rest).foldlM
      (fun found inner =>
        if inner.key = "serialize" then (stringOf inner).map some
        else (passOver inner).map fun () => found)
      none
  | _ => .error .malformed

/-- What the attributes of a declaration say about its **names**. -/
structure ModelNames where
  /-- The name of the model. -/
  name : Option String := none
  /-- Its collection. -/
  collection : Option String := none
  /-- Its name for several values. -/
  plural : Option String := none
  /-- Its connector. -/
  connector : Option String := none

/-- Read one item of a `model` attribute of a declaration. -/
def ModelNames.readItem (names : ModelNames) (item : Item) : Except DeriveError ModelNames :=
  match item.key with
  | "name" => (stringOf item).map fun value => { names with name := some value }
  | "collection" => (stringOf item).map fun value => { names with collection := some value }
  | "plural" => (stringOf item).map fun value => { names with plural := some value }
  | "connector" => (stringOf item).map fun value => { names with connector := some value }
  | _ => .error .unknownModelAttribute

/-- The names of a declaration. -/
def ModelNames.read (attributes : List Attribute) : Except DeriveError ModelNames :=
  readAttributes "model" ModelNames.readItem {} attributes

/-- A rename rule by its spelling. -/
def renameRule (spelling : String) : Except DeriveError RenameRule :=
  match RenameRule.ofName? spelling with
  | some rule => .ok rule
  | none => .error (.unknownRenameRule spelling)

/-- The rename rule that an item gives. Each item `serialize` has to name a rule; the last one
counts. -/
def renameRuleOf (found : Option RenameRule) (item : Item) :
    Except DeriveError (Option RenameRule) :=
  match item with
  | .text _ value => (renameRule value).map some
  | .list _ (first :: rest) =>
    (first :: rest).foldlM
      (fun found inner =>
        if inner.key = "serialize" then do
          let spelling ← stringOf inner
          (renameRule spelling).map some
        else (passOver inner).map fun () => found)
      found
  | _ => .error .malformed

/-- The rename rule of a declaration, if it has one. -/
def readRenameRule (attributes : List Attribute) : Except DeriveError (Option RenameRule) :=
  readAttributes "serde"
    (fun found item =>
      if item.key = "rename_all" then renameRuleOf found item
      else (passOver item).map fun () => found)
    none attributes

/-- What the attributes of a **field** say. -/
structure FieldAttributes where
  /-- Its logical name. -/
  name : Option String := none
  /-- The name under which it is stored. -/
  storageName : Option String := none
  /-- Whether it is left out. -/
  skipped : Bool := false
  /-- Whether the fields of its type stand in its place. -/
  flattened : Bool := false

/-- Read one item of a `model` attribute of a field. -/
def FieldAttributes.readModelItem (field : FieldAttributes) (item : Item) :
    Except DeriveError FieldAttributes :=
  match item.key with
  | "name" => (stringOf item).map fun value => { field with name := some value }
  | "skip" => (flagOf item).map fun () => { field with skipped := true }
  | _ => .error .unknownFieldAttribute

/-- Read one item of a `serde` attribute of a field. -/
def FieldAttributes.readStorageItem (field : FieldAttributes) (item : Item) :
    Except DeriveError FieldAttributes :=
  match item.key with
  | "rename" =>
    (serializedText item).map fun value => { field with storageName := value.or field.storageName }
  | "skip" => (flagOf item).map fun () => { field with skipped := true }
  | "flatten" => (flagOf item).map fun () => { field with flattened := true }
  | _ => (passOver item).map fun () => field

/-- Read one attribute of a field. -/
def FieldAttributes.readAttribute (field : FieldAttributes) (attr : Attribute) :
    Except DeriveError FieldAttributes := do
  let field ← readAttributes "model" readModelItem field [attr]
  readAttributes "serde" readStorageItem field [attr]

/-- The attributes of a field, read in order. -/
def FieldAttributes.read (attributes : List Attribute) : Except DeriveError FieldAttributes :=
  attributes.foldlM readAttribute {}

end Derive

end DocStore
