import DocStore.Lifecycle.Policy

/-! # Stamping new documents

A document that is stored for the first time gets the lifecycle fields of its policy, whatever it
held there: both times are the time of storing, and it is not deleted. -/

namespace DocStore

/-- A new document with the lifecycle fields of the policy. -/
def Policy.stamp (policy : Policy) (now : DateTime) (doc : Document) : Document :=
  let doc := Entries.insertIf doc policy.created createdField (.dateTime now)
  let doc := Entries.insertIf doc policy.modified modifiedField (.dateTime now)
  Entries.insertIf doc policy.deleted deletedField .null

end DocStore
