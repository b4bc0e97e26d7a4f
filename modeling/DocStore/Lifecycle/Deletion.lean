import DocStore.Lifecycle.Policy

/-! # Deletion

A document is deleted from the moment that its deletion field holds a time. A field that holds
anything else does not hide it. -/

namespace DocStore

/-- The **state of the deletion field** of a document. -/
inductive Deletion where
  /-- It is missing or null. -/
  | live
  /-- It holds a time. -/
  | deleted (at_ : DateTime)
  /-- It holds something that is no time. -/
  | malformed (value : Value)

namespace Deletion

/-- The state of a document. -/
def ofDocument (doc : Document) : Deletion :=
  match Entries.get? doc deletedField with
  | none => .live
  | some .null => .live
  | some (.dateTime at_) => .deleted at_
  | some value => .malformed value

/-- Whether a document in this state is shown. -/
def isVisible : Deletion → Bool
  | .deleted _ => false
  | _ => true

/-- When the document was deleted, if it was. -/
def deletedAt? : Deletion → Option DateTime
  | .deleted at_ => some at_
  | _ => none

end Deletion

/-- The query for documents that are shown: the deletion field holds no time. -/
def visibilityPredicate : Document :=
  [(deletedField, .document [("$not", .document [("$type", .string "date")])])]

/-- A query that selects only what is shown, if the policy hides anything. -/
def Policy.restrict (policy : Policy) (query : Document) : Document :=
  if policy.deleted then
    if query.isEmpty then visibilityPredicate
    else [("$and", .array [.document query, .document visibilityPredicate])]
  else query

end DocStore
