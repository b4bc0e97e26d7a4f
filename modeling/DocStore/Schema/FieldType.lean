import DocStore.Unicode.Blank

/-! # Field types

A model declares its fields with types, of which only the text is known. `FieldType.classify` reads
off it what is stored: blanks do not matter, an optional or boxed value is stored as the value, and
a type constructor is known by its last name, without the path in front of it. -/

namespace DocStore

/-- The **type of what is stored** in a field. -/
inductive FieldType where
  | string
  | int32
  | int64
  | double
  | boolean
  | dateTime
  | objectId
  | array
  | document
  | any
  deriving DecidableEq

namespace FieldType

/-- The name of a type. -/
def toText : FieldType → String
  | .string => "String"
  | .int32 => "Int32"
  | .int64 => "Int64"
  | .double => "Double"
  | .boolean => "Boolean"
  | .dateTime => "DateTime"
  | .objectId => "ObjectId"
  | .array => "Array"
  | .document => "Document"
  | .any => "Any"

/-- What follows `start` in a list of characters. -/
def after? (start : List Char) (text : List Char) : Option (List Char) :=
  if start.isPrefixOf text then some (text.drop start.length) else none

theorem after?_eq_some_iff {start text rest : List Char} :
    after? start text = some rest ↔ text = start ++ rest := by
  rw [after?]
  by_cases h : start.isPrefixOf text = true
  · obtain ⟨tail, rfl⟩ := List.isPrefixOf_iff_prefix.mp h
    simp [h]
  · rw [if_neg h]
    constructor
    · intro hnone
      cases hnone
    · rintro rfl
      exact absurd (List.isPrefixOf_iff_prefix.mpr (List.prefix_append _ _)) h

/-- Everything but a closing angle bracket at the end. -/
def withoutClosing? (text : List Char) : Option (List Char) :=
  match text.getLast? with
  | some '>' => some text.dropLast
  | _ => none

theorem withoutClosing?_eq_some_iff {text inner : List Char} :
    withoutClosing? text = some inner ↔ text = inner ++ ['>'] := by
  constructor
  · intro h
    rw [withoutClosing?] at h
    split at h
    · rename_i hlast
      obtain ⟨before, rfl⟩ := List.getLast?_eq_some_iff.mp hlast
      simpa using h
    · cases h
  · rintro rfl
    simp [withoutClosing?]

/-- The spellings that open a wrapper whose value is stored in its place. -/
def wrappers : List (List Char) :=
  ["Option<".toList, "Box<".toList, "std::option::Option<".toList]

/-- The type inside a wrapper. -/
def unwrap? (text : List Char) : Option (List Char) :=
  (wrappers.findSome? fun wrapper => after? wrapper text).bind withoutClosing?

/-- What is inside a wrapper is shorter than the wrapper. -/
theorem length_of_unwrap? {text inner : List Char} (h : unwrap? text = some inner) :
    inner.length < text.length := by
  obtain ⟨rest, hfind, hclosing⟩ := Option.bind_eq_some_iff.mp h
  obtain ⟨wrapper, -, hafter⟩ := List.exists_of_findSome?_eq_some hfind
  rw [after?_eq_some_iff.mp hafter, withoutClosing?_eq_some_iff.mp hclosing]
  simp only [List.length_append, List.length_singleton]
  omega

/-- The type inside all wrappers. -/
def peel (text : List Char) : List Char :=
  match _h : unwrap? text with
  | some inner => peel inner
  | none => text
termination_by text.length
decreasing_by exact length_of_unwrap? _h

theorem peel_of_eq_some {text inner : List Char} (h : unwrap? text = some inner) :
    peel text = peel inner := by
  rw [peel]
  split
  · rename_i found hfound
    rw [Option.some.inj (h.symm.trans hfound)]
  · rename_i hnone
    rw [h] at hnone
    cases hnone

theorem peel_of_eq_none {text : List Char} (h : unwrap? text = none) : peel text = text := by
  rw [peel]
  split
  · rename_i found hfound
    rw [h] at hfound
    cases hfound
  · rfl

/-- What precedes the first `::` of a text. -/
def beforeSeparator : List Char → List Char
  | ':' :: ':' :: _ => []
  | c :: rest => c :: beforeSeparator rest
  | [] => []

/-- What follows the last `::` of a text. -/
def lastSegment (text : List Char) : List Char := (beforeSeparator text.reverse).reverse

/-- The name of a type constructor: without arguments and without the path in front of it. -/
def constructorName (text : List Char) : String :=
  String.ofList (lastSegment (text.takeWhile (· != '<')))

/-- The type that the name of a type constructor stands for. -/
def ofName? : String → Option FieldType
  | "String" | "&str" | "&'staticstr" | "str" => some .string
  | "i8" | "i16" | "i32" | "u8" | "u16" => some .int32
  | "i64" | "u32" | "u64" | "isize" | "usize" => some .int64
  | "f32" | "f64" => some .double
  | "bool" => some .boolean
  | "DateTime" | "SystemTime" => some .dateTime
  | "ObjectId" => some .objectId
  | "Bson" => some .any
  | "Vec" | "VecDeque" | "HashSet" | "BTreeSet" => some .array
  | _ => none

/-- The type of a text without blanks and wrappers: by its name, else an array if it opens with a
square bracket, else a document. -/
def ofBare (text : List Char) : FieldType :=
  match ofName? (constructorName text) with
  | some fieldType => fieldType
  | none =>
    match text with
    | '[' :: _ => .array
    | _ => .document

/-- **Classification**: the type of what is stored in a field of a declared type. -/
def classify (declared : String) : FieldType :=
  ofBare (peel (declared.toList.filter fun c => !Unicode.isBlank c))

end FieldType

end DocStore
