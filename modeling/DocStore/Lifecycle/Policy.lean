import DocStore.Value.Basic

/-! # Lifecycle policies

A repository can keep three fields of its documents by itself: when a document was created, when it
was modified last, and when it was deleted. A policy says which of them it keeps; those it keeps are
out of reach for its callers. -/

namespace DocStore

/-- The field of the creation time. -/
def createdField : String := "created"

/-- The field of the last modification time. -/
def modifiedField : String := "modified"

/-- The field of the deletion time. -/
def deletedField : String := "deleted"

/-- **A policy**: which lifecycle fields a repository keeps. -/
structure Policy where
  /-- Whether it keeps the creation time. -/
  created : Bool := false
  /-- Whether it keeps the modification time. -/
  modified : Bool := false
  /-- Whether it keeps the deletion time, so that documents are hidden instead of removed. -/
  deleted : Bool := false
  deriving DecidableEq

namespace Policy

/-- Whether a policy keeps any field. -/
def isActive (policy : Policy) : Bool := policy.created || policy.modified || policy.deleted

/-- The fields that a policy keeps. -/
def ownedFields (policy : Policy) : List String :=
  (if policy.created then [createdField] else []) ++
    (if policy.modified then [modifiedField] else []) ++
    (if policy.deleted then [deletedField] else [])

/-- Whether a policy keeps a field. -/
def owns (policy : Policy) (field : String) : Bool := policy.ownedFields.contains field

end Policy

end DocStore
