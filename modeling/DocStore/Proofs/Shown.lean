import DocStore.Proofs.Matches
import DocStore.Proofs.Visibility

/-! # A collection and what is shown of it

The documents that are shown form a collection of their own. A restricted query finds in the whole
collection what the plain query finds among the shown documents; a match stands there behind as many
documents as are shown before it (`rank`), and rewriting it in the whole collection rewrites it
there, or removes it if the replacement is hidden. -/

namespace DocStore

/-- How many documents before a position are shown. -/
def rank (docs : List Document) (position : Nat) : Nat :=
  ((docs.take position).filter Document.isShown).length

theorem rank_zero (docs : List Document) : rank docs 0 = 0 := by
  rw [rank, List.take_zero]
  rfl

theorem rank_cons_shown {doc : Document} (h : doc.isShown = true) (rest : List Document)
    (position : Nat) : rank (doc :: rest) (position + 1) = rank rest position + 1 := by
  rw [rank, List.take_succ_cons, List.filter_cons, if_pos h, List.length_cons, rank]

theorem rank_cons_hidden {doc : Document} (h : doc.isShown = false) (rest : List Document)
    (position : Nat) : rank (doc :: rest) (position + 1) = rank rest position := by
  rw [rank, List.take_succ_cons, List.filter_cons, if_neg (by rw [h]; exact Bool.false_ne_true),
    rank]

theorem filter_cons_shown {doc : Document} (h : doc.isShown = true) (rest : List Document) :
    (doc :: rest).filter Document.isShown = doc :: rest.filter Document.isShown := by
  rw [List.filter_cons, if_pos h]

theorem filter_cons_hidden {doc : Document} (h : doc.isShown = false) (rest : List Document) :
    (doc :: rest).filter Document.isShown = rest.filter Document.isShown := by
  rw [List.filter_cons, if_neg (by rw [h]; exact Bool.false_ne_true)]

/-! ## Rewriting one document -/

/-- Replacing a shown document by a shown one replaces it among the shown documents. -/
theorem filter_set_of_shown {docs : List Document} {position : Nat} {doc doc' : Document}
    (hdoc : docs[position]? = some doc) (hshown : doc.isShown = true)
    (hshown' : doc'.isShown = true) :
    (docs.set position doc').filter Document.isShown
      = (docs.filter Document.isShown).set (rank docs position) doc' := by
  -- the position and its rank go down together where the first document is shown
  induction docs generalizing position with
  | nil => cases hdoc
  | cons first rest ih =>
    cases position with
    | zero =>
      cases hdoc
      rw [List.set_cons_zero, filter_cons_shown hshown', filter_cons_shown hshown, rank_zero,
        List.set_cons_zero]
    | succ position =>
      have hrest := @ih position hdoc
      rw [List.set_cons_succ]
      cases hfirst : first.isShown with
      | true =>
        rw [filter_cons_shown hfirst, filter_cons_shown hfirst, rank_cons_shown hfirst,
          List.set_cons_succ, hrest]
      | false =>
        rw [filter_cons_hidden hfirst, filter_cons_hidden hfirst, rank_cons_hidden hfirst, hrest]

/-- Replacing a shown document by a hidden one removes it from the shown documents. -/
theorem filter_set_of_hidden {docs : List Document} {position : Nat} {doc doc' : Document}
    (hdoc : docs[position]? = some doc) (hshown : doc.isShown = true)
    (hhidden : doc'.isShown = false) :
    (docs.set position doc').filter Document.isShown
      = (docs.filter Document.isShown).eraseIdx (rank docs position) := by
  induction docs generalizing position with
  | nil => cases hdoc
  | cons first rest ih =>
    cases position with
    | zero =>
      cases hdoc
      rw [List.set_cons_zero, filter_cons_hidden hhidden, filter_cons_shown hshown, rank_zero,
        List.eraseIdx_cons_zero]
    | succ position =>
      have hrest := @ih position hdoc
      rw [List.set_cons_succ]
      cases hfirst : first.isShown with
      | true =>
        rw [filter_cons_shown hfirst, filter_cons_shown hfirst, rank_cons_shown hfirst,
          List.eraseIdx_cons_succ, hrest]
      | false =>
        rw [filter_cons_hidden hfirst, filter_cons_hidden hfirst, rank_cons_hidden hfirst, hrest]

/-! ## Finding documents -/

namespace Collection

/-- A match in the whole collection as a match among the shown documents. -/
def ranked (docs : List Document) (found : Nat × Document) : Nat × Document :=
  (rank docs found.1, found.2)

theorem ranked_cons_shown {doc : Document} (h : doc.isShown = true) (rest : List Document)
    (found : Nat × Document) :
    ranked (doc :: rest) (Prod.map (· + 1) id found) = Prod.map (· + 1) id (ranked rest found) := by
  rw [ranked, Prod.map_fst, rank_cons_shown h]
  rfl

theorem ranked_cons_hidden {doc : Document} (h : doc.isShown = false) (rest : List Document)
    (found : Nat × Document) :
    ranked (doc :: rest) (Prod.map (· + 1) id found) = ranked rest found := by
  rw [ranked, Prod.map_fst, rank_cons_hidden h]
  rfl

end Collection

variable [Runtime]

/-- **A restricted query**: one that is at fault nowhere and matches what a plain query matches
among the documents that are shown. -/
structure Query.Restricts (restricted query : Document) : Prop where
  /-- The plain query is at fault nowhere. -/
  plain : ∀ doc, Query.holds doc query = .ok (Query.accepts query doc)
  /-- The restricted query matches what is shown of its matches. -/
  restricted : ∀ doc, Query.holds doc restricted = .ok (Query.accepts query doc && doc.isShown)

/-- A policy that hides documents restricts every query that is at fault nowhere. -/
theorem Query.restricts_restrict {policy : Policy} (hdeleted : policy.deleted = true)
    {query : Document} {meaning : Document → Bool}
    (h : ∀ doc, Query.holds doc query = .ok (meaning doc)) :
    Query.Restricts (policy.restrict query) query where
  plain := by
    intro doc
    rw [Query.accepts_of_holds (h doc), h]
  restricted := by
    intro doc
    rw [holds_restrict, if_pos hdeleted, Query.accepts_of_holds (h doc), h]
    cases meaning doc <;> rfl

namespace Query.Restricts

variable {restricted query : Document} (h : Restricts restricted query)

include h

theorem accepts_restricted (doc : Document) :
    Query.accepts restricted doc = (Query.accepts query doc && doc.isShown) :=
  Query.accepts_of_holds (h.restricted doc)

/-- A document that is hidden does not match. -/
theorem holds_of_hidden {doc : Document} (hhidden : doc.isShown = false) :
    Query.holds doc restricted = .ok false := by
  rw [h.restricted, hhidden, Bool.and_false]

/-- A document that is shown matches the restricted query if it matches the plain one. -/
theorem holds_of_shown {doc : Document} (hshown : doc.isShown = true) :
    Query.holds doc restricted = Query.holds doc query := by
  rw [h.restricted, hshown, Bool.and_true, h.plain]

/-- **What is selected** is selected among the shown documents. -/
theorem select (docs : List Document) :
    Query.select query (docs.filter Document.isShown) = Query.select restricted docs := by
  induction docs with
  | nil => rfl
  | cons doc rest ih =>
    rw [Query.select]
    cases hdoc : doc.isShown with
    | true =>
      rw [filter_cons_shown hdoc, Query.select, h.holds_of_shown hdoc, ih]
    | false =>
      rw [filter_cons_hidden hdoc, h.holds_of_hidden hdoc, ih]
      cases Query.select restricted rest <;> rfl

end Query.Restricts

namespace Collection

open Query (Restricts)

variable {restricted query : Document}

/-- Positions counted from one further on. -/
theorem located_succ (query : Document) (start : Nat) (docs : List Document) :
    located query (start + 1) docs = (located query start docs).map (Prod.map (· + 1) id) := by
  induction docs generalizing start with
  | nil => rfl
  | cons doc rest ih =>
    rw [located_cons, located_cons, ih (start + 1)]
    split <;> rfl

/-- **The matches correspond**: those of the restricted query have their ranks as positions among
the shown documents. -/
theorem located_shown (h : Restricts restricted query) (docs : List Document) :
    located query 0 (docs.filter Document.isShown)
      = (located restricted 0 docs).map (ranked docs) := by
  induction docs with
  | nil => rfl
  | cons doc rest ih =>
    rw [located_cons restricted, located_succ restricted, h.accepts_restricted]
    cases hdoc : doc.isShown with
    | true =>
      have hranked : ranked (doc :: rest) ∘ Prod.map (· + 1) id
          = Prod.map (· + 1) id ∘ ranked rest := by
        funext found
        exact ranked_cons_shown hdoc rest found
      rw [filter_cons_shown hdoc, located_cons, located_succ query, ih, Bool.and_true]
      split
      · rw [List.map_cons, List.map_map, List.map_map, hranked, ranked, rank_zero]
      · rw [List.map_map, List.map_map, hranked]
    | false =>
      have hranked : ranked (doc :: rest) ∘ Prod.map (· + 1) id = ranked rest := by
        funext found
        exact ranked_cons_hidden hdoc rest found
      rw [filter_cons_hidden hdoc, ih, Bool.and_false, if_neg Bool.false_ne_true, List.map_map,
        hranked]

/-- A restricted query is at fault nowhere. -/
theorem locate_restricted (h : Restricts restricted query) (docs : List Document) :
    locate restricted 0 docs = .ok (located restricted 0 docs) :=
  locate_of_holds fun doc _ => by rw [h.accepts_restricted, h.restricted]

/-- **The first matches correspond**, in stored order and by any sort specification. -/
theorem first?_shown (h : Restricts restricted query) (sort : Option Document)
    (docs : List Document) :
    first? query sort (docs.filter Document.isShown)
      = (first? restricted sort docs).map (Option.map (ranked docs)) := by
  have hplain : locate query 0 (docs.filter Document.isShown)
      = .ok (located query 0 (docs.filter Document.isShown)) :=
    locate_of_holds fun doc _ => h.plain doc
  rw [first?, first?, hplain, locate_restricted h, located_shown h]
  cases sort with
  | none =>
    exact congrArg Except.ok List.head?_map
  | some spec =>
    -- the comparison looks at the documents and not at the positions
    have hsorted := Runtime.positions.map
      (fun left right => Sorting.compareDocuments left.2 right.2 spec)
      (fun left right => Sorting.compareDocuments left.2 right.2 spec) (ranked docs)
      (fun _ _ => rfl) (located restricted 0 docs)
    refine congrArg Except.ok ?_
    dsimp only
    rw [Sorting.sortPositions, hsorted, List.head?_map]
    rfl

/-- **The first match on both sides**: none, or one and the same document. -/
theorem first?_cases (h : Restricts restricted query) (sort : Option Document)
    (docs : List Document) :
    (first? restricted sort docs = .ok none ∧
      first? query sort (docs.filter Document.isShown) = .ok none) ∨
    ∃ position doc, first? restricted sort docs = .ok (some (position, doc)) ∧
      first? query sort (docs.filter Document.isShown) = .ok (some (rank docs position, doc)) ∧
      docs[position]? = some doc ∧ doc.isShown = true := by
  have hok : ∃ found, first? restricted sort docs = .ok found :=
    ⟨_, by rw [first?, locate_restricted h]; rfl⟩
  rw [first?_shown h]
  obtain ⟨found, hfound⟩ := hok
  cases found with
  | none => exact Or.inl ⟨hfound, by rw [hfound]; rfl⟩
  | some found =>
    obtain ⟨position, doc⟩ := found
    obtain ⟨hstored, hholds⟩ := first?_eq_some hfound
    rw [h.restricted, Except.ok.injEq, Bool.and_eq_true] at hholds
    exact Or.inr ⟨position, doc, hfound, by rw [hfound]; rfl, hstored, hholds.2⟩

end Collection

end DocStore
