import DocStore.Query.Projection
import DocStore.Query.Sorting

/-! # Query options

What is made of the documents that a query selects: they are sorted, cut to a page and
projected. -/

namespace DocStore

/-- **Query options** in the terms of the store. -/
structure QueryOptions where
  /-- The sort specification. -/
  sort : Option Document := none
  /-- How many documents to leave out. -/
  skip : Option Nat := none
  /-- How many documents to return; zero and below mean all. -/
  limit : Option Int := none
  /-- The projection. -/
  projection : Option Document := none

namespace QueryOptions

variable [Runtime]

/-- Sort as the options say. -/
def arrange (options : QueryOptions) (docs : List Document) : List Document :=
  match options.sort with
  | some spec => Sorting.sort spec docs
  | none => docs

/-- Cut out the page that the options name. -/
def page (options : QueryOptions) (docs : List Document) : List Document :=
  let rest := docs.drop (options.skip.getD 0)
  match options.limit with
  | some limit => if 0 < limit then rest.take limit.toNat else rest
  | none => rest

/-- Project as the options say. -/
def view (options : QueryOptions) (doc : Document) : Document :=
  match options.projection with
  | some projection => Projection.project projection doc
  | none => doc

/-- Sort, cut and project. -/
def present (options : QueryOptions) (docs : List Document) : List Document :=
  (options.page (options.arrange docs)).map options.view

end QueryOptions

end DocStore
