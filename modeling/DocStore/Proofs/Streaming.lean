import DocStore.Proofs.Runs
import DocStore.Proofs.Simulation

/-! # Streams give what loading gives

A stream moves a cursor over what a filter selects: how many documents to leave out, and how many
to give. `Repository.Streams` is its loop with the arithmetic of 64-bit words and without a bound on
the number of rounds, so it has no run where a sum or a difference is no word. From every cursor
that a filter gives there is one (`Repository.streams_streamPages`) and no other
(`Repository.Streams.unique`), and it gives the documents ahead of the cursor up to the first that
can not be read (`Repository.Streams.eq_decodeWhile`). These are the documents that loading reads at
once. -/

namespace DocStore

/-! ## Reading documents in order -/

namespace Model

variable {α : Type} (model : Model α)

/-- Documents in two parts are read in order, the second part only after all of the first. -/
theorem decodeWhile_append (first second : List Document) :
    model.decodeWhile (first ++ second)
      = match (model.decodeWhile first).2 with
        | none => ((model.decodeWhile first).1 ++ (model.decodeWhile second).1,
            (model.decodeWhile second).2)
        | some error => ((model.decodeWhile first).1, some error) := by
  induction first with
  | nil => rfl
  | cons doc rest ih =>
    rw [List.cons_append, decodeWhile, decodeWhile]
    cases model.decode doc with
    | error error => rfl
    | ok value =>
      dsimp only
      rw [ih]
      cases (model.decodeWhile rest).2 <;> rfl

/-- All documents can be read if and only if reading does not stop before the end. -/
theorem decodeAll_eq_ok_iff {docs : List Document} {values : List α} :
    model.decodeAll docs = .ok values ↔ model.decodeWhile docs = (values, none) := by
  rw [decodeAll]
  rcases model.decodeWhile docs with ⟨read, failure⟩
  cases failure <;> simp

/-- Reading stops at the first document that can not be read. -/
theorem decodeWhile_of_stop {before : List Document} {doc : Document} {values : List α}
    {error : Error} (hbefore : model.decodeAll before = .ok values)
    (hdoc : model.decode doc = .error error) (after : List Document) :
    model.decodeWhile (before ++ doc :: after) = (values, some error) := by
  rw [decodeWhile_append, model.decodeAll_eq_ok_iff.mp hbefore]
  simp only [decodeWhile, hdoc, List.append_nil]

end Model

/-! ## Pages of a list -/

namespace QueryOptions

/-- The options without a page. -/
def unpaged (options : QueryOptions) : QueryOptions := { options with skip := none, limit := none }

theorem page_map (options : QueryOptions) (f : Document → Document) (docs : List Document) :
    options.page (docs.map f) = (options.page docs).map f := by
  rw [page, page]
  cases options.limit with
  | none => rw [List.map_drop]
  | some limit =>
    dsimp only
    split
    · rw [List.map_take, List.map_drop]
    · rw [List.map_drop]

end QueryOptions

/-- What options select is a page of what they select without one. -/
theorem Collection.find_eq_page [Runtime] (query : Document) (options : QueryOptions)
    (docs : List Document) :
    find query options docs = (find query options.unpaged docs).map options.page := by
  rw [find, find]
  cases Query.select query docs with
  | error fault => rfl
  | ok selected =>
    refine congrArg Except.ok ?_
    rw [QueryOptions.present, QueryOptions.present, QueryOptions.page_map]
    rfl

/-- Without a page, no more is selected than there is. -/
theorem Collection.length_le_of_find [Runtime] {query : Document} {options : QueryOptions}
    {docs found : List Document} (h : find query options.unpaged docs = .ok found) :
    found.length ≤ docs.length := by
  obtain ⟨selected, hselect, rfl⟩ := Outcome.map_eq_ok_iff.mp h
  have harranged := length_arrange options.unpaged selected
  rw [QueryOptions.present, List.length_map]
  exact harranged ▸ length_le_of_select hselect

/-- A checked count is a word. -/
theorem Filter.lt_of_checkedCount {fault : Int64 → PaginationFault} {count : Option Int64}
    {checked : Option Int} (h : checkedCount fault count = .ok checked) :
    (checked.map Int.toNat).getD 0 < UInt64.size := by
  cases count with
  | none => cases h; decide
  | some count =>
    rw [checkedCount] at h
    split at h
    · cases h
    · cases h
      have hcount := count.toInt_lt
      rw [Option.map_some, Option.getD_some, UInt64.size]
      omega

namespace Repository

/-- **Where a stream stands**. -/
structure Cursor where
  /-- How many documents are left out. -/
  skip : Nat
  /-- How many documents may still be given; none if all. -/
  remaining : Option Nat

namespace Cursor

/-- The size of the next page. -/
def pageSize (cursor : Cursor) : Nat := nextPage cursor.remaining

/-- The documents ahead of a cursor. -/
def ahead (cursor : Cursor) (docs : List Document) : List Document :=
  match cursor.remaining with
  | some remaining => (docs.drop cursor.skip).take remaining
  | none => docs.drop cursor.skip

/-- The cursor behind some more documents. -/
def past (cursor : Cursor) (read : Nat) : Cursor :=
  ⟨cursor.skip + read, cursor.remaining.map (· - read)⟩

/-- The cursor behind some more documents, if the sum and the difference are 64-bit words. -/
def past? (cursor : Cursor) (read : Nat) : Option Cursor :=
  if cursor.skip + read < UInt64.size ∧ ∀ remaining ∈ cursor.remaining, read ≤ remaining then
    some (cursor.past read)
  else none

/-- Where a stream starts. A limit of zero asks for everything. -/
def start (options : QueryOptions) : Cursor :=
  ⟨options.skip.getD 0, (options.limit.filter fun limit => decide (0 < limit)).map Int.toNat⟩

/-- The documents ahead of the start are the page of the options. -/
theorem ahead_start (options : QueryOptions) (docs : List Document) :
    (start options).ahead docs = options.page docs := by
  rw [ahead, start, QueryOptions.page]
  cases options.limit with
  | none => rfl
  | some limit =>
    by_cases hlimit : 0 < limit
    · simp [Option.filter, hlimit]
    · simp [Option.filter, hlimit]

/-- A stream starts with a page that is not empty. -/
theorem pageSize_start (options : QueryOptions) : (start options).pageSize ≠ 0 := by
  rw [pageSize, start]
  cases options.limit with
  | none => exact Nat.succ_ne_zero 127
  | some limit =>
    by_cases hlimit : 0 < limit
    · simp only [Option.filter, hlimit, decide_true, if_true, Option.map_some, nextPage,
        Repository.pageSize]
      omega
    · simp [Option.filter, hlimit, nextPage, Repository.pageSize]

/-- A cursor that gives no page has nothing ahead. -/
theorem ahead_of_pageSize_eq_zero {cursor : Cursor} (h : cursor.pageSize = 0)
    (docs : List Document) : cursor.ahead docs = [] := by
  obtain ⟨skip, remaining⟩ := cursor
  cases remaining with
  | none => cases h
  | some remaining =>
    have hzero : remaining = 0 := by
      simp only [pageSize, nextPage, Repository.pageSize] at h
      omega
    rw [ahead, hzero]
    exact List.take_zero

/-- A page is no larger than what may still be given. -/
theorem pageSize_le {cursor : Cursor} {remaining : Nat} (h : cursor.remaining = some remaining) :
    cursor.pageSize ≤ remaining := by
  rw [pageSize, h]
  exact Nat.min_le_left _ _

/-- **The next page** comes first of what is ahead, and then what is ahead of the cursor behind
it. -/
theorem ahead_eq_append (cursor : Cursor) (docs : List Document) :
    cursor.ahead docs = (docs.drop cursor.skip).take cursor.pageSize
      ++ (cursor.past cursor.pageSize).ahead docs := by
  rw [ahead, ahead, past]
  cases hremaining : cursor.remaining with
  | none => rw [Option.map_none, ← List.drop_drop, List.take_append_drop]
  | some remaining =>
    rw [Option.map_some, ← List.drop_drop, ← List.take_add,
      Nat.add_sub_cancel' (pageSize_le hremaining)]

theorem eq_past_of_past? {cursor next : Cursor} {read : Nat} (h : cursor.past? read = some next) :
    next = cursor.past read := by
  rw [past?] at h
  split at h
  · exact (Option.some.inj h).symm
  · cases h

/-- Reading a page keeps the sum and the difference words. -/
theorem past?_eq_some {cursor : Cursor} {read : Nat} (hskip : cursor.skip + read < UInt64.size)
    (hread : read ≤ cursor.pageSize) : cursor.past? read = some (cursor.past read) := by
  exact if_pos ⟨hskip, fun remaining hremaining => Nat.le_trans hread (pageSize_le hremaining)⟩

end Cursor

/-! ## The loop of a stream -/

variable {α : Type}

/-- **The loop of a stream**: the runs from a cursor in a session to what the stream gives and the
session afterwards. Behind a page that can be read the cursor moves first, and whether another page
follows is decided then. -/
inductive Streams (readPage : Nat → Nat → Action (Page α)) (moment : Moment) :
    Cursor → Session → Streamed α × Session → Prop
  /-- Nothing may be given any more. -/
  | exhausted {cursor : Cursor} {session : Session} :
    cursor.pageSize = 0 → Streams readPage moment cursor session (⟨[], none⟩, session)
  /-- The page fails, in the store or on a document. -/
  | failed {cursor : Cursor} {session after : Session} {page : Page α} {error : Error} :
    cursor.pageSize ≠ 0 →
    readPage cursor.skip cursor.pageSize moment session = (.ok page, after) →
    page.failure = some error →
    Streams readPage moment cursor session (⟨page.items, some error⟩, after)
  /-- The page is short of its size. -/
  | short {cursor next : Cursor} {session after : Session} {page : Page α} :
    cursor.pageSize ≠ 0 →
    readPage cursor.skip cursor.pageSize moment session = (.ok page, after) →
    page.failure = none →
    cursor.past? page.read = some next →
    page.read < cursor.pageSize →
    Streams readPage moment cursor session (⟨page.items, none⟩, after)
  /-- The page is full, and the stream goes on behind it. -/
  | full {cursor next : Cursor} {session after : Session} {page : Page α}
    {rest : Streamed α × Session} :
    cursor.pageSize ≠ 0 →
    readPage cursor.skip cursor.pageSize moment session = (.ok page, after) →
    page.failure = none →
    cursor.past? page.read = some next →
    cursor.pageSize ≤ page.read →
    Streams readPage moment next after rest →
    Streams readPage moment cursor session
      (⟨page.items ++ rest.1.items, rest.1.failure⟩, rest.2)

/-- Whether a reader **pages through** documents, or fails as they do, as long as the store is as it
is: it keeps the store, and its pages are pages of these documents. -/
structure PagesThrough (model : Model α) (readPage : Nat → Nat → Action (Page α))
    (moment : Moment) (store : Store) (outcome : Except Error (List Document)) : Prop where
  /-- The reader keeps the store. -/
  keeps : ∀ skip size, Action.KeepsStore (readPage skip size)
  /-- Its pages are pages of the documents. -/
  pages : ∀ (skip size : Nat) (session : Session), size ≠ 0 → session.store = store →
    (readPage skip size moment session).1
      = .ok (pageOf model size (outcome.map fun docs => (docs.drop skip).take size))

section

variable {model : Model α} {readPage : Nat → Nat → Action (Page α)} {moment : Moment}
  {store : Store} {cursor : Cursor} {session : Session}

/-- The page at a cursor, and a session whose store is still the same. -/
theorem PagesThrough.page_eq {outcome : Except Error (List Document)}
    (h : PagesThrough model readPage moment store outcome) (hstore : session.store = store)
    {page : Page α} {after : Session} (hsize : cursor.pageSize ≠ 0)
    (hread : readPage cursor.skip cursor.pageSize moment session = (.ok page, after)) :
    page = pageOf model cursor.pageSize
        (outcome.map fun docs => (docs.drop cursor.skip).take cursor.pageSize) ∧
      after.store = store := by
  have hpage := h.pages cursor.skip cursor.pageSize session hsize hstore
  have hkept := h.keeps cursor.skip cursor.pageSize moment session
  rw [hread] at hpage hkept
  exact ⟨Except.ok.inj hpage, hkept.trans hstore⟩

/-- **What a run gives**: the documents ahead of the cursor, up to the first that can not be
read. -/
theorem Streams.eq_decodeWhile {docs : List Document}
    (h : PagesThrough model readPage moment store (.ok docs)) {result : Streamed α × Session}
    (hrun : Streams readPage moment cursor session result) (hstore : session.store = store) :
    result.1 = ⟨(model.decodeWhile (cursor.ahead docs)).1,
      (model.decodeWhile (cursor.ahead docs)).2⟩ := by
  induction hrun with
  | exhausted hsize =>
    rw [Cursor.ahead_of_pageSize_eq_zero hsize]
    rfl
  | @failed cursor _ _ _ _ hsize hread hfailure =>
    obtain ⟨rfl, -⟩ := h.page_eq hstore hsize hread
    rw [Except.map, pageOf] at hfailure ⊢
    dsimp only at hfailure ⊢
    rw [Cursor.ahead_eq_append, Model.decodeWhile_append, hfailure]
  | @short cursor _ _ _ _ hsize hread hfailure hpast hshort =>
    obtain ⟨rfl, -⟩ := h.page_eq hstore hsize hread
    rw [Except.map, pageOf] at hfailure hshort ⊢
    dsimp only at hfailure hshort ⊢
    -- a short page reaches the end, so nothing is ahead behind it
    have hnone : (cursor.past cursor.pageSize).ahead docs = [] := by
      have hend : docs.drop (cursor.skip + cursor.pageSize) = [] := by
        rw [List.length_take, List.length_drop] at hshort
        exact List.drop_eq_nil_of_le (by omega)
      rw [Cursor.ahead, Cursor.past, hend]
      cases cursor.remaining <;> simp
    rw [Cursor.ahead_eq_append, hnone, List.append_nil, hfailure]
  | @full cursor _ _ _ _ _ hsize hread hfailure hpast hfull _ ih =>
    obtain ⟨rfl, hafter⟩ := h.page_eq hstore hsize hread
    rw [Except.map, pageOf] at hfailure hpast hfull ⊢
    dsimp only at hfailure hpast hfull ⊢
    have hread : ((docs.drop cursor.skip).take cursor.pageSize).length = cursor.pageSize :=
      Nat.le_antisymm (List.length_take_le _ _) hfull
    rw [hread] at hpast
    rw [ih hafter, Cursor.eq_past_of_past? hpast, Cursor.ahead_eq_append cursor,
      Model.decodeWhile_append, hfailure]

/-- A run over a failure gives nothing but the failure. -/
theorem Streams.eq_failure {error : Error}
    (h : PagesThrough model readPage moment store (.error error)) {result : Streamed α × Session}
    (hrun : Streams readPage moment cursor session result) (hstore : session.store = store)
    (hmore : cursor.pageSize ≠ 0) : result.1 = ⟨[], some error⟩ := by
  cases hrun with
  | exhausted hsize => exact absurd hsize hmore
  | failed hsize hread hfailure =>
    obtain ⟨rfl, -⟩ := h.page_eq hstore hsize hread
    rw [← hfailure]
    rfl
  | short hsize hread hfailure =>
    obtain ⟨rfl, -⟩ := h.page_eq hstore hsize hread
    cases hfailure
  | full hsize hread hfailure =>
    obtain ⟨rfl, -⟩ := h.page_eq hstore hsize hread
    cases hfailure

/-- **There is one run at most** from a cursor in a session. -/
theorem Streams.unique {result result' : Streamed α × Session}
    (hrun : Streams readPage moment cursor session result)
    (hrun' : Streams readPage moment cursor session result') : result' = result := by
  induction hrun generalizing result' with
  | exhausted hsize =>
    cases hrun' with
    | exhausted => rfl
    | failed hmore | short hmore | full hmore => exact absurd hsize hmore
  | failed hsize hread hfailure =>
    cases hrun' with
    | exhausted hnone => exact absurd hnone hsize
    | failed _ hread' hfailure' =>
      cases hread.symm.trans hread'
      cases hfailure.symm.trans hfailure'
      rfl
    | short _ hread' hfailure' | full _ hread' hfailure' =>
      cases hread.symm.trans hread'
      cases hfailure.symm.trans hfailure'
  | short hsize hread hfailure hpast hshort =>
    cases hrun' with
    | exhausted hnone => exact absurd hnone hsize
    | failed _ hread' hfailure' =>
      cases hread.symm.trans hread'
      cases hfailure.symm.trans hfailure'
    | short _ hread' =>
      cases hread.symm.trans hread'
      rfl
    | full _ hread' _ _ hfull' =>
      cases hread.symm.trans hread'
      exact absurd hshort (Nat.not_lt_of_le hfull')
  | full hsize hread hfailure hpast hfull _ ih =>
    cases hrun' with
    | exhausted hnone => exact absurd hnone hsize
    | failed _ hread' hfailure' =>
      cases hread.symm.trans hread'
      cases hfailure.symm.trans hfailure'
    | short _ hread' _ _ hshort' =>
      cases hread.symm.trans hread'
      exact absurd hshort' (Nat.not_lt_of_le hfull)
    | full _ hread' _ hpast' _ hrest' =>
      cases hread.symm.trans hread'
      cases hpast.symm.trans hpast'
      rw [ih hrest']

/-- A page that can be read lies within the documents, so the cursor can move behind it. -/
theorem bounds_of_page {docs : List Document} {stored : Nat} (hlength : docs.length ≤ stored)
    (hstored : stored < UInt64.size) (cursor : Cursor) (hskip : cursor.skip < UInt64.size)
    {read : Nat} (hread : read = ((docs.drop cursor.skip).take cursor.pageSize).length) :
    cursor.past? read = some (cursor.past read) ∧ (cursor.past read).skip < UInt64.size ∧
      (0 < read → cursor.skip < stored) := by
  rw [List.length_take, List.length_drop] at hread
  have hword : cursor.skip + read < UInt64.size := by omega
  exact ⟨Cursor.past?_eq_some hword (by omega), hword, by omega⟩

/-- **There is a run** from every cursor that is a word, and `streamPages` gives what it gives: over
no more documents than a word counts, no sum and no difference leaves the words. -/
theorem streams_streamPages {outcome : Except Error (List Document)} {stored : Nat}
    (h : PagesThrough model readPage moment store outcome)
    (hlength : ∀ docs, outcome = .ok docs → docs.length ≤ stored) (hstored : stored < UInt64.size)
    (cursor : Cursor) (hskip : cursor.skip < UInt64.size) (session : Session)
    (hstore : session.store = store) :
    Streams readPage moment cursor session
      (streamPages readPage stored moment cursor.skip cursor.remaining session) := by
  rw [streamPages]
  by_cases hsize : nextPage cursor.remaining = 0
  · rw [if_pos hsize]
    exact Streams.exhausted hsize
  · rw [if_neg hsize]
    rcases hgiven : readPage cursor.skip (nextPage cursor.remaining) moment session with
      ⟨given, after⟩
    have hpage := h.pages cursor.skip (nextPage cursor.remaining) session hsize hstore
    have hafter := h.keeps cursor.skip (nextPage cursor.remaining) moment session
    rw [hgiven] at hpage hafter
    dsimp only at hpage hafter ⊢
    subst hpage
    cases outcome with
    | error error => exact Streams.failed hsize hgiven rfl
    | ok docs =>
      rw [Except.map] at hgiven ⊢
      obtain ⟨page, hpage⟩ : ∃ page : Page α, page = pageOf model (nextPage cursor.remaining)
        (.ok ((docs.drop cursor.skip).take (nextPage cursor.remaining))) := ⟨_, rfl⟩
      have hfull : page.full
          = (page.failure.isNone && decide (nextPage cursor.remaining ≤ page.read)) := by
        rw [hpage]
        rfl
      have hcount : page.read
          = ((docs.drop cursor.skip).take (nextPage cursor.remaining)).length := by
        rw [hpage]
        rfl
      obtain ⟨hpast, hnext, hwithin⟩ :=
        bounds_of_page (hlength docs rfl) hstored cursor hskip hcount
      rw [← hpage] at hgiven ⊢
      dsimp only
      cases hfailure : page.failure with
      | some error =>
        rw [hfailure] at hfull
        rw [hfull]
        exact Streams.failed hsize hgiven hfailure
      | none =>
        rw [hfailure, Option.isNone_none, Bool.true_and] at hfull
        by_cases hread : nextPage cursor.remaining ≤ page.read
        · rw [hfull, decide_eq_true hread, if_pos rfl]
          have hpositive : 0 < page.read := by omega
          rw [dif_pos ⟨hpositive, hwithin hpositive⟩]
          have hstored' := hwithin hpositive
          refine Streams.full hsize hgiven hfailure hpast hread ?_
          exact streams_streamPages h hlength hstored (cursor.past page.read) hnext after
            (hafter.trans hstore)
        · rw [hfull, decide_eq_false hread]
          exact Streams.short hsize hgiven hfailure hpast (Nat.lt_of_not_le hread)
termination_by stored - cursor.skip
decreasing_by exact sub_add_lt ⟨hpositive, hstored'⟩

end

/-! ## What a filter selects -/

/-- A compiled filter leaves out no more documents than a word counts. -/
theorem skip_lt_of_restricted (repository : Repository α) {filter : Filter}
    {compiled : CompiledFilter} (h : repository.restricted filter = .ok compiled) :
    (Cursor.start compiled.options).skip < UInt64.size := by
  obtain ⟨plain, hplain, rfl⟩ := Outcome.map_eq_ok_iff.mp h
  obtain ⟨skip, hchecked, hskip, -⟩ := Filter.counts_of_compile hplain
  show plain.options.skip.getD 0 < UInt64.size
  rw [hskip]
  exact Filter.lt_of_checkedCount hchecked

section

variable [Runtime] (repository : Repository α) {moment : Moment}

/-- What a filter **selects** from a store, or why it selects nothing. -/
def selection (filter : Filter) (store : Store) : Except Error (List Document) :=
  (repository.restricted filter).bind fun compiled =>
    (Collection.find compiled.query compiled.options
      (store.documents repository.collection)).mapError Error.store

/-- A call that reads gives what the collection gives, unless it takes too long. -/
theorem call_find (hlatency : moment.latency.exceeds repository.options.timeout = false)
    (query : Document) (options : QueryOptions) (session : Session) :
    (repository.call (.find repository.collection query options) moment session).1
      = (Collection.find query options (session.store.documents repository.collection)).mapError
          Error.store := by
  rw [repository.call_apply _ hlatency, Store.answer, Call.run]
  cases Collection.find query options (session.store.documents repository.collection) <;> rfl

/-- Loading reads what a filter selects. -/
theorem find_fst (hlatency : moment.latency.exceeds repository.options.timeout = false)
    (filter : Filter) (session : Session) :
    (repository.find filter moment session).1
      = (repository.selection filter session.store).bind repository.model.decodeAll := by
  rw [find, Action.bind_apply, compile_apply, selection]
  cases repository.restricted filter with
  | error error => rfl
  | ok compiled =>
    have hcall := repository.call_find hlatency compiled.query compiled.options session
    dsimp only
    rw [load, Action.bind_apply, Except.bind, ← hcall]
    rcases repository.call (.find repository.collection compiled.query compiled.options) moment
      session with ⟨outcome, after⟩
    cases outcome <;> rfl

/-- The pages of a stream are pages of what its filter selects without a page. -/
theorem pagesThrough_readPage
    (hlatency : moment.latency.exceeds repository.options.timeout = false)
    (compiled : CompiledFilter) (store : Store) :
    PagesThrough repository.model (repository.readPage compiled) moment store
      ((Collection.find compiled.query compiled.options.unpaged
        (store.documents repository.collection)).mapError Error.store) := by
  refine ⟨repository.keepsStore_readPage compiled, fun skip size session hsize hstore => ?_⟩
  have hunpaged : (pageOptions compiled.options skip size).unpaged = compiled.options.unpaged := rfl
  rw [readPage_fst, repository.call_find hlatency, hstore, Collection.find_eq_page, hunpaged]
  cases Collection.find compiled.query compiled.options.unpaged
    (store.documents repository.collection) with
  | error fault => rfl
  | ok docs =>
    have hpage : (pageOptions compiled.options skip size).page docs
        = (docs.drop skip).take size := by
      rw [QueryOptions.page, pageOptions]
      exact if_pos (Int.natCast_pos.mpr (Nat.pos_of_ne_zero hsize))
    rw [Except.map, Except.mapError, Except.mapError, Except.map, hpage]

/-- **What a stream gives**: what its filter selects, up to the first document that can not be
read. -/
theorem findStream_spec (hlatency : moment.latency.exceeds repository.options.timeout = false)
    {session : Session} (hstored : (repository.stored session).length < UInt64.size)
    (filter : Filter) :
    (∀ compiled, repository.restricted filter = .ok compiled →
      Streams (repository.readPage compiled) moment (Cursor.start compiled.options) session
        (repository.findStream filter moment session)) ∧
    (repository.findStream filter moment session).1
      = match repository.selection filter session.store with
        | .error error => ⟨[], some error⟩
        | .ok docs =>
          ⟨(repository.model.decodeWhile docs).1, (repository.model.decodeWhile docs).2⟩ := by
  rw [findStream, Action.perform, compile_apply, selection]
  cases hcompiled : repository.restricted filter with
  | error error => exact ⟨by rintro _ ⟨⟩, rfl⟩
  | ok compiled =>
    have hpages := repository.pagesThrough_readPage hlatency compiled session.store
    have hlength : ∀ docs, (Collection.find compiled.query compiled.options.unpaged
        (session.store.documents repository.collection)).mapError Error.store = .ok docs →
        docs.length ≤ (repository.stored session).length := fun docs hdocs => by
      cases hfind : Collection.find compiled.query compiled.options.unpaged
          (session.store.documents repository.collection) with
      | error fault => rw [hfind] at hdocs; cases hdocs
      | ok found =>
        rw [hfind] at hdocs
        cases hdocs
        exact Collection.length_le_of_find hfind
    have hrun := streams_streamPages hpages hlength hstored (Cursor.start compiled.options)
      (repository.skip_lt_of_restricted hcompiled) session rfl
    refine ⟨by rintro _ ⟨⟩; exact hrun, ?_⟩
    dsimp only [Except.bind]
    rw [Collection.find_eq_page]
    cases hfind : Collection.find compiled.query compiled.options.unpaged
        (session.store.documents repository.collection) with
    | error fault =>
      rw [hfind] at hpages
      exact hrun.eq_failure hpages rfl (Cursor.pageSize_start compiled.options)
    | ok docs =>
      rw [hfind] at hpages
      rw [Except.map, Except.mapError, ← Cursor.ahead_start]
      exact hrun.eq_decodeWhile hpages rfl

end

/-- **Streaming gives what loading gives.** Over a store that no one else writes to, no page taking
too long, the loop of the stream has exactly one run, which ends without leaving the 64-bit words,
and the stream gives what it gives. Where loading gives values, the stream gives these values in the
same order and ends. Where nothing is selected because of an error, both fail with it. Where a
selected document can not be read, loading fails, and the stream gives the values of the documents
before the first such one, and then fails with the same error. -/
theorem findStream_gives_find [Runtime] {repository : Repository α} {moment : Moment}
    {session : Session} (hlatency : moment.latency.exceeds repository.options.timeout = false)
    (hstored : (repository.stored session).length < UInt64.size) (filter : Filter) :
    (∀ compiled, repository.restricted filter = .ok compiled → ∀ result,
      Streams (repository.readPage compiled) moment (Cursor.start compiled.options) session result
        ↔ result = repository.findStream filter moment session) ∧
    (∀ values, (repository.find filter moment session).1 = .ok values →
      (repository.findStream filter moment session).1 = ⟨values, none⟩) ∧
    (∀ error, repository.selection filter session.store = .error error →
      (repository.find filter moment session).1 = .error error ∧
      (repository.findStream filter moment session).1 = ⟨[], some error⟩) ∧
    (∀ before doc after values error,
      repository.selection filter session.store = .ok (before ++ doc :: after) →
      repository.model.decodeAll before = .ok values →
      repository.model.decode doc = .error error →
      (repository.find filter moment session).1 = .error error ∧
      (repository.findStream filter moment session).1 = ⟨values, some error⟩) := by
  obtain ⟨hrun, hstream⟩ := repository.findStream_spec hlatency hstored filter
  have hfind := repository.find_fst hlatency filter session
  refine ⟨fun compiled hcompiled result => ⟨(hrun compiled hcompiled).unique, ?_⟩,
    fun values hvalues => ?_, fun error hselection => ?_, ?_⟩
  · rintro rfl
    exact hrun compiled hcompiled
  · rw [hfind] at hvalues
    obtain ⟨docs, hselection, hdocs⟩ := Outcome.bind_eq_ok_iff.mp hvalues
    rw [hstream, hselection]
    dsimp only
    rw [repository.model.decodeAll_eq_ok_iff.mp hdocs]
  · rw [hfind, hstream, hselection]
    exact ⟨rfl, rfl⟩
  · intro before doc after values error hselection hbefore hdoc
    have hstop := repository.model.decodeWhile_of_stop hbefore hdoc after
    rw [hfind, hstream, hselection, Except.bind, Model.decodeAll]
    dsimp only
    rw [hstop]
    exact ⟨rfl, rfl⟩

/-- Notes two by two in the order of their keys, where a note has to have a title: the two that have
one are streamed, and before the one that has none the other one is, and then the error. -/
theorem findStream_gives_find_titled :
    ∃ (repository : Repository Document) (moment : Moment) (session : Session)
      (titled untitled : Filter),
      (repository.find titled moment session).1
        = .ok [[("_id", .int32 3), ("title", .string "c")],
          [("_id", .int32 4), ("title", .string "d")]] ∧
      (repository.findStream titled moment session).1
        = ⟨[[("_id", .int32 3), ("title", .string "c")],
          [("_id", .int32 4), ("title", .string "d")]], none⟩ ∧
      (repository.find untitled moment session).1 = .error .deserialization ∧
      (repository.findStream untitled moment session).1
        = ⟨[[("_id", .int32 1), ("title", .string "a")]], some .deserialization⟩ := by
  let notes : Model Document :=
    { Model.raw "Note" "notes" [] with
      decode := fun doc =>
        if Entries.contains doc "title" then .ok doc else .error .deserialization }
  let repository : Repository Document := ⟨notes, ⟨"Note", [("id", ⟨"_id", .int32⟩)]⟩, {}⟩
  let moment : Moment := ⟨⟨2000⟩, ⟨0, 0⟩⟩
  let session : Session :=
    ⟨⟨[("notes", [[("_id", .int32 3), ("title", .string "c")], [("_id", .int32 2)],
      [("_id", .int32 4), ("title", .string "d")], [("_id", .int32 1), ("title", .string "a")]])],
      .ofSource ⟨0, 0, 0⟩⟩, [], []⟩
  let titled : Filter := { order := [("id", .ascending)], skip := some 2, limit := some 2 }
  let untitled : Filter := { order := [("id", .ascending)], limit := some 2 }
  have hlatency : moment.latency.exceeds repository.options.timeout = false := rfl
  have hstored : (repository.stored session).length < UInt64.size := by decide
  have hfind : (repository.find titled moment session).1
      = .ok [[("_id", .int32 3), ("title", .string "c")],
        [("_id", .int32 4), ("title", .string "d")]] := rfl
  have hselection : repository.selection untitled session.store
      = .ok ([[("_id", .int32 1), ("title", .string "a")]] ++ [("_id", .int32 2)] :: []) := rfl
  obtain ⟨-, hvalues, -⟩ := findStream_gives_find hlatency hstored titled
  obtain ⟨-, -, -, hstop⟩ := findStream_gives_find hlatency hstored untitled
  obtain ⟨herror, hstream⟩ := hstop _ _ _ _ .deserialization hselection rfl rfl
  exact ⟨repository, moment, session, titled, untitled, hfind, hvalues _ hfind, herror, hstream⟩

end Repository

end DocStore
