import DocStore.Value.Basic

/-! # Projections

A projection flags fields. If a field other than the key is flagged as set, the projection includes:
it keeps the flagged fields. Otherwise it excludes: it drops the fields flagged as cleared. The key
is kept unless its own flag is cleared. -/

namespace DocStore

namespace Projection

/-- Whether a projection includes rather than excludes. -/
def isInclusive (projection : Document) : Bool :=
  projection.any fun (field, flag) => field != idField && flag.truthy

/-- Whether a projection keeps a field. -/
def keeps (projection : Document) (field : String) : Bool :=
  let flag := Entries.get? projection field
  if field = idField then flag.all Value.truthy
  else if isInclusive projection then flag.any Value.truthy
  else flag.all Value.truthy

/-- The fields of a document that a projection keeps, in their order. -/
def project (projection doc : Document) : Document :=
  doc.filter fun entry => keeps projection entry.1

end Projection

end DocStore
