import DocStore.Repository.Basic

/-! # Streams

A stream reads what a filter selects page by page instead of at once. It ends with the first page
that is short of its size, with the last document of the filter's own limit, or with the first
error. -/

namespace DocStore

namespace Repository

variable {α : Type}

/-- The most documents on a page. -/
def pageSize : Nat := 128

/-- What a **stream** gives: values, and the error that it ended with, if any. -/
structure Streamed (α : Type) where
  /-- The values, in order. -/
  items : List α
  /-- The error after them. -/
  failure : Option Error := none

/-- The size of the next page, if the stream may still give `remaining` documents. -/
def nextPage : Option Nat → Nat
  | some remaining => min remaining pageSize
  | none => pageSize

/-- The options of a page. -/
def pageOptions (options : QueryOptions) (skip page : Nat) : QueryOptions :=
  { options with skip := some skip, limit := some (page : Int) }

/-- A **page** of a stream. -/
structure Page (α : Type) where
  /-- The values on the page, up to the first that can not be read. -/
  items : List α
  /-- The error that ends the stream here. -/
  failure : Option Error
  /-- How many documents the store gave. -/
  read : Nat
  /-- Whether the page was full and without an error, so that another one may follow. -/
  full : Bool

theorem sub_add_lt {stored skip read : Nat} (h : 0 < read ∧ skip < stored) :
    stored - (skip + read) < stored - skip := by omega

/-- Read pages with a reader that is told how many documents to leave out and how many to give. A
page after a full one is only asked for while some of the `stored` documents are left. -/
def streamPages (readPage : Nat → Nat → Action (Page α)) (stored : Nat) (moment : Moment)
    (skip : Nat) (remaining : Option Nat) (session : Session) : Streamed α × Session :=
  if nextPage remaining = 0 then (⟨[], none⟩, session)
  else
    let outcome := readPage skip (nextPage remaining) moment session
    match outcome.1 with
    | .error error => (⟨[], some error⟩, outcome.2)
    | .ok page =>
      if page.full then
        if _h : 0 < page.read ∧ skip < stored then
          let rest := streamPages readPage stored moment (skip + page.read)
            (remaining.map (· - page.read)) outcome.2
          (⟨page.items ++ rest.1.items, rest.1.failure⟩, rest.2)
        else (⟨page.items, page.failure⟩, outcome.2)
      else (⟨page.items, page.failure⟩, outcome.2)
termination_by stored - skip
decreasing_by exact sub_add_lt _h

variable [Runtime]

/-- Read the page of at most `size` documents from the one at `skip` on. -/
def readPage (repository : Repository α) (compiled : CompiledFilter) (skip size : Nat) :
    Action (Page α) := fun moment session =>
  let options := pageOptions compiled.options skip size
  let call := Call.find repository.collection compiled.query options
  match (repository.call call).perform moment session with
  | (.error error, session) => (.ok ⟨[], some error, 0, false⟩, session)
  | (.ok docs, session) =>
    let (values, failure) := repository.model.decodeWhile docs
    (.ok ⟨values, failure, docs.length, failure.isNone && decide (size ≤ docs.length)⟩, session)

/-- **The values that a filter selects, page by page.** A filter that does not compile is the error
of the stream. -/
def findStream (repository : Repository α) (filter : Filter) (moment : Moment)
    (session : Session) : Streamed α × Session :=
  match (repository.compile filter).perform moment session with
  | (.error error, session) => (⟨[], some error⟩, session)
  | (.ok compiled, session) =>
    -- a limit of zero asks for everything
    let limit := compiled.options.limit.filter fun limit => decide (0 < limit)
    let stored := (session.store.documents repository.collection).length
    streamPages (repository.readPage compiled) stored moment (compiled.options.skip.getD 0)
      (limit.map Int.toNat) session

end Repository

end DocStore
