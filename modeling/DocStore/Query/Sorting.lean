import DocStore.Query.Runtime
import DocStore.Value.Order

/-! # Sorting documents

A sort specification names fields with directions; the first field that differs decides, and a
direction below zero turns its order round. Documents are sorted themselves, or their positions are:
these are two sorts, and where the order of the documents is no preorder, they may differ. -/

namespace DocStore

namespace Sorting

/-- Whether a direction sorts from high to low. -/
def isDescending (direction : Value) : Bool := direction.number?.any Double.isBelowZero

/-- Order of two documents by a sort specification. -/
def compareDocuments (left right : Document) : Document → Ordering
  | [] => .eq
  | (field, direction) :: rest =>
    let ordering := Value.orderStored (Entries.get? left field) (Entries.get? right field)
    (if isDescending direction then ordering.swap else ordering).then
      (compareDocuments left right rest)

variable [Runtime]

/-- The documents in the order of a sort specification. -/
def sort (spec : Document) (docs : List Document) : List Document :=
  Runtime.documents.run (compareDocuments · · spec) docs

/-- Positions in the order of a sort specification for the documents that they name. -/
def sortPositions (spec : Document) (found : List (Nat × Document)) : List (Nat × Document) :=
  Runtime.positions.run (fun left right => compareDocuments left.2 right.2 spec) found

end Sorting

end DocStore
