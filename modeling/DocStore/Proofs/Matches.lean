import DocStore.Proofs.Outcome
import DocStore.Store.Collection
import Mathlib.Data.List.Basic

/-! # Which documents an update writes

An update of a collection first finds the documents that match, then replaces some of them, each by
its own update, and leaves all others where they are (`Collection.Rewritten`). The first match is
the first in stored order, or in the order of a sort specification. -/

namespace DocStore

variable [Runtime]

namespace Sorting

/-- **Sorting documents keeps them**, whatever the specification is. -/
theorem sort_perm (spec : Document) (docs : List Document) : (sort spec docs).Perm docs :=
  Runtime.documents.perm _ docs

/-- **Sorting positions keeps them**, whatever the specification is. -/
theorem sortPositions_perm (spec : Document) (found : List (Nat × Document)) :
    (sortPositions spec found).Perm found := Runtime.positions.perm _ found

end Sorting

/-- Whether a query matches a document; where it is at fault it does not. -/
def Query.accepts (query doc : Document) : Bool :=
  match Query.holds doc query with
  | .ok matched => matched
  | .error _ => false

theorem Query.accepts_of_holds {query doc : Document} {matched : Bool}
    (h : Query.holds doc query = .ok matched) : Query.accepts query doc = matched := by
  rw [Query.accepts, h]

/-- A query accepts a document if and only if it holds of it. -/
theorem Query.accepts_iff {query doc : Document} :
    Query.accepts query doc = true ↔ Query.holds doc query = .ok true := by
  rw [Query.accepts]
  cases Query.holds doc query with
  | error fault => simp
  | ok matched => simp

namespace Collection

/-! ## Finding the matches -/

/-- The documents that a query accepts, with their positions counted from `start`. -/
def located (query : Document) (start : Nat) (docs : List Document) : List (Nat × Document) :=
  ((docs.zipIdx start).filter fun entry => Query.accepts query entry.1).map Prod.swap

/-- The first document is found if the query accepts it. -/
theorem located_cons (query : Document) (start : Nat) (doc : Document) (rest : List Document) :
    located query start (doc :: rest)
      = if Query.accepts query doc then (start, doc) :: located query (start + 1) rest
        else located query (start + 1) rest := by
  rw [located, located, List.zipIdx_cons, List.filter_cons]
  split <;> rfl

/-- What is found are the documents that the query accepts. -/
theorem locate_eq_ok {query : Document} {start : Nat} {docs : List Document}
    {found : List (Nat × Document)} (h : locate query start docs = .ok found) :
    found = located query start docs := by
  induction docs generalizing start found with
  | nil => cases h; rfl
  | cons doc rest ih =>
    rw [locate] at h
    cases hdoc : Query.holds doc query with
    | error fault => rw [hdoc] at h; cases h
    | ok matched =>
      rw [hdoc] at h
      obtain ⟨later, hlater, rfl⟩ := Outcome.map_eq_ok_iff.mp h
      rw [ih hlater, located_cons, Query.accepts_of_holds hdoc]

/-- Finding the matches is not at fault if the query is not. -/
theorem locate_of_holds {query : Document} {start : Nat} {docs : List Document}
    (h : ∀ doc ∈ docs, Query.holds doc query = .ok (Query.accepts query doc)) :
    locate query start docs = .ok (located query start docs) := by
  induction docs generalizing start with
  | nil => rfl
  | cons doc rest ih =>
    rw [locate, h doc List.mem_cons_self]
    dsimp only
    rw [ih fun doc hdoc => h doc (List.mem_cons_of_mem _ hdoc), located_cons]
    rfl

/-- The matches are the matching documents with their positions. -/
theorem mem_located {query : Document} {docs : List Document} {position : Nat} {doc : Document} :
    (position, doc) ∈ located query 0 docs
      ↔ docs[position]? = some doc ∧ Query.holds doc query = .ok true := by
  rw [located, List.mem_map]
  constructor
  · rintro ⟨⟨found, index⟩, hmem, heq⟩
    rw [Prod.swap_prod_mk, Prod.mk.injEq] at heq
    obtain ⟨rfl, rfl⟩ := heq
    rw [List.mem_filter, List.mk_mem_zipIdx_iff_getElem?, Query.accepts_iff] at hmem
    exact hmem
  · rintro ⟨hstored, hholds⟩
    refine ⟨(doc, position), List.mem_filter.mpr ⟨?_, Query.accepts_iff.mpr hholds⟩, rfl⟩
    exact List.mk_mem_zipIdx_iff_getElem?.mpr hstored

/-- The first match is one of the matches. -/
theorem first?_eq_some {query : Document} {sort : Option Document} {docs : List Document}
    {position : Nat} {doc : Document} (h : first? query sort docs = .ok (some (position, doc))) :
    docs[position]? = some doc ∧ Query.holds doc query = .ok true := by
  obtain ⟨found, hfound, hfirst⟩ := Outcome.map_eq_ok_iff.mp h
  rw [← mem_located, ← locate_eq_ok hfound]
  cases sort with
  | none => exact List.mem_of_head? hfirst
  | some spec =>
    exact (Sorting.sortPositions_perm spec found).mem_iff.mp (List.mem_of_head? hfirst)

/-- Where there is no first match, no document matches. -/
theorem not_holds_of_first?_eq_none {query : Document} {sort : Option Document}
    {docs : List Document} (h : first? query sort docs = .ok none) {doc : Document}
    (hmem : doc ∈ docs) : Query.holds doc query ≠ .ok true := by
  intro hholds
  obtain ⟨found, hfound, hfirst⟩ := Outcome.map_eq_ok_iff.mp h
  obtain ⟨position, hposition⟩ := List.mem_iff_getElem?.mp hmem
  have hmatch : (position, doc) ∈ found := by
    rw [locate_eq_ok hfound]
    exact mem_located.mpr ⟨hposition, hholds⟩
  cases sort with
  | none => exact List.ne_nil_of_mem hmatch (List.head?_eq_none_iff.mp hfirst)
  | some spec =>
    have hperm := Sorting.sortPositions_perm spec found
    rw [List.head?_eq_none_iff.mp hfirst] at hperm
    exact List.ne_nil_of_mem hmatch hperm.nil_eq.symm

/-! ## Replacing documents -/

/-- **Rewriting at positions**: the documents at the positions match the query and are replaced,
each by its own update, and all others stay as they are. -/
structure Rewritten (now : DateTime) (query update : Document) (positions : List Nat)
    (docs docs' : List Document) : Prop where
  /-- The collection keeps its length. -/
  length : docs'.length = docs.length
  /-- The documents at the positions match and are updated. -/
  written : ∀ position ∈ positions, ∃ doc doc', docs[position]? = some doc ∧
    Query.holds doc query = .ok true ∧ updated now update doc = .ok doc' ∧
    docs'[position]? = some doc'
  /-- All others are kept. -/
  kept : ∀ position, position ∉ positions → docs'[position]? = docs[position]?

/-- Replacing the first match rewrites its position. -/
theorem rewritten_set {now : DateTime} {query update : Document} {sort : Option Document}
    {docs : List Document} {position : Nat} {doc doc' : Document}
    (hfirst : first? query sort docs = .ok (some (position, doc)))
    (hupdate : updated now update doc = .ok doc') :
    Rewritten now query update [position] docs (docs.set position doc') where
  length := List.length_set
  written := by
    intro other hmem
    rw [List.mem_singleton] at hmem
    subst hmem
    obtain ⟨hstored, hholds⟩ := first?_eq_some hfirst
    obtain ⟨hlt, -⟩ := List.getElem?_eq_some_iff.mp hstored
    exact ⟨doc, doc', hstored, hholds, hupdate, List.getElem?_set_self hlt⟩
  kept := by
    intro other hne
    rw [List.mem_singleton] at hne
    exact List.getElem?_set_ne (Ne.symm hne)

/-- The positions of all documents that a query accepts. -/
def matchPositions (query : Document) (docs : List Document) : List Nat :=
  (located query 0 docs).map Prod.fst

theorem mem_matchPositions {query : Document} {docs : List Document} {position : Nat} :
    position ∈ matchPositions query docs
      ↔ ∃ doc, docs[position]? = some doc ∧ Query.holds doc query = .ok true := by
  rw [matchPositions, List.mem_map]
  constructor
  · rintro ⟨⟨found, doc⟩, hmem, rfl⟩
    exact ⟨doc, mem_located.mp hmem⟩
  · rintro ⟨doc, h⟩
    exact ⟨(position, doc), mem_located.mpr h, rfl⟩

/-- Every document with its replacement: matching documents have their update, others none. -/
theorem replacements_getElem? {now : DateTime} {query update : Document} {docs : List Document}
    {pairs : List (Document × Option Document)}
    (h : replacements now query update docs = .ok pairs) (position : Nat) :
    (docs[position]? = none ∧ pairs[position]? = none) ∨
      ∃ doc, docs[position]? = some doc ∧
        ((Query.holds doc query = .ok false ∧ pairs[position]? = some (doc, none)) ∨
          ∃ doc', Query.holds doc query = .ok true ∧ updated now update doc = .ok doc' ∧
            pairs[position]? = some (doc, some doc')) := by
  induction docs generalizing pairs position with
  | nil => cases h; simp
  | cons doc rest ih =>
    rw [replacements] at h
    split at h
    · cases h
    · rename_i hdoc
      obtain ⟨later, hlater, rfl⟩ := Outcome.map_eq_ok_iff.mp h
      cases position with
      | zero => exact Or.inr ⟨doc, rfl, Or.inl ⟨hdoc, rfl⟩⟩
      | succ position => exact ih hlater position
    · rename_i hdoc
      split at h
      · cases h
      · rename_i doc' hupdate
        obtain ⟨later, hlater, rfl⟩ := Outcome.map_eq_ok_iff.mp h
        cases position with
        | zero => exact Or.inr ⟨doc, rfl, Or.inr ⟨doc', hdoc, hupdate, rfl⟩⟩
        | succ position => exact ih hlater position

/-- Each document comes with its replacement, in order. -/
theorem map_fst_replacements {now : DateTime} {query update : Document} {docs : List Document}
    {pairs : List (Document × Option Document)}
    (h : replacements now query update docs = .ok pairs) : pairs.map Prod.fst = docs := by
  induction docs generalizing pairs with
  | nil => cases h; rfl
  | cons doc rest ih =>
    rw [replacements] at h
    split at h
    · cases h
    · obtain ⟨later, hlater, rfl⟩ := Outcome.map_eq_ok_iff.mp h
      rw [List.map_cons, ih hlater]
    · split at h
      · cases h
      · obtain ⟨later, hlater, rfl⟩ := Outcome.map_eq_ok_iff.mp h
        rw [List.map_cons, ih hlater]

theorem length_replacements {now : DateTime} {query update : Document} {docs : List Document}
    {pairs : List (Document × Option Document)}
    (h : replacements now query update docs = .ok pairs) : pairs.length = docs.length := by
  rw [← map_fst_replacements h, List.length_map]

/-- Updating all matches rewrites their positions. -/
theorem rewritten_updateMany {now : DateTime} {query update : Document}
    {docs docs' : List Document} {outcome : UpdateOutcome}
    (h : updateMany now query update docs = .ok (outcome, docs')) :
    Rewritten now query update (matchPositions query docs) docs docs' := by
  obtain ⟨pairs, hpairs, heq⟩ := Outcome.map_eq_ok_iff.mp h
  rw [Prod.mk.injEq] at heq
  obtain ⟨-, rfl⟩ := heq
  refine ⟨?_, ?_, ?_⟩
  · rw [List.length_map, length_replacements hpairs]
  · intro position hmem
    obtain ⟨doc, hstored, hholds⟩ := mem_matchPositions.mp hmem
    -- a document at this position matches, so of the three cases only the last is left
    rcases replacements_getElem? hpairs position with ⟨hnone, -⟩ | ⟨other, hother, hcase⟩
    · rw [hnone] at hstored
      cases hstored
    · rw [hstored, Option.some.injEq] at hother
      subst hother
      rcases hcase with ⟨hfalse, -⟩ | ⟨doc', -, hupdate, hpair⟩
      · rw [hholds] at hfalse
        cases hfalse
      · exact ⟨doc, doc', hstored, hholds, hupdate, by rw [List.getElem?_map, hpair]; rfl⟩
  · intro position hnot
    rw [List.getElem?_map]
    rcases replacements_getElem? hpairs position with ⟨hnone, hpair⟩ | ⟨doc, hstored, hcase⟩
    · rw [hnone, hpair]
      rfl
    · rcases hcase with ⟨-, hpair⟩ | ⟨doc', hholds, -, -⟩
      · rw [hpair, hstored]
        rfl
      · exact absurd (mem_matchPositions.mpr ⟨doc, hstored, hholds⟩) hnot

end Collection

end DocStore
