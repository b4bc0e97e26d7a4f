import DocStore.Lifecycle.Deletion
import DocStore.Query.Match
import DocStore.Query.Seed
import Mathlib.Data.List.Basic

/-! # What a restricted query matches

A policy that keeps the deletion time adds a condition to every query: the deletion field holds no
time. The condition makes sense of every document, so a restricted query matches what the query
matches among the documents that are shown, and is at fault where the query is
(`Policy.restrict_is_transparent`). It fixes nothing by equality, so a document that is stored
because a restricted query matches none starts from the fields that the query itself fixes. -/

namespace DocStore

/-- Whether a document is shown by a repository that hides what is deleted. -/
def Document.isShown (doc : Document) : Bool := (Deletion.ofDocument doc).isVisible

/-- A document is shown unless its deletion field holds a time. -/
theorem Document.isShown_eq_false_iff (doc : Document) :
    doc.isShown = false ↔ ∃ at_, Entries.get? doc deletedField = some (.dateTime at_) := by
  rw [Document.isShown, Deletion.ofDocument]
  cases hget : Entries.get? doc deletedField with
  | none => simp [Deletion.isVisible]
  | some value => cases value <;> simp [Deletion.isVisible]

/-- Documents that agree in the deletion field are shown alike. -/
theorem Document.isShown_congr {first second : Document}
    (h : Entries.get? first deletedField = Entries.get? second deletedField) :
    first.isShown = second.isShown := by
  rw [Document.isShown, Document.isShown, Deletion.ofDocument, Deletion.ofDocument, h]

/-- The test for a time holds of what hides a document and is never at fault. -/
theorem hasType_date (doc : Document) :
    FieldTest.hasType (Entries.get? doc deletedField) (.string "date") = .ok (!doc.isShown) := by
  rw [Document.isShown, Deletion.ofDocument]
  cases Entries.get? doc deletedField with
  | none => rfl
  | some value => cases value <;> rfl

/-- The condition that hides what is deleted adds nothing to the seed. -/
theorem seedFrom_restrict (policy : Policy) (query found : Document) :
    Query.seedFrom found (policy.restrict query) = Query.seedFrom found query := by
  rw [Policy.restrict]
  split
  · cases query with
    | nil => rfl
    | cons entry rest => rfl
  · rfl

variable [Runtime]

/-- **The visibility predicate** holds of the documents that are shown. -/
theorem holds_visibilityPredicate (doc : Document) :
    Query.holds doc visibilityPredicate = .ok doc.isShown := by
  have htype : FieldTest.holds (Entries.get? doc deletedField)
      (.document [("$type", .string "date")]) = .ok (!doc.isShown) := by
    have htest : FieldTest.testKey "$type" (FieldTest.optionsAmong [("$type", .string "date")])
        (Entries.get? doc deletedField) (.string "date") = .ok (!doc.isShown) := hasType_date doc
    rw [FieldTest.holds, if_pos (by rfl), FieldTest.allHold, FieldTest.allHold,
      if_neg (by decide), htest]
    cases doc.isShown <;> rfl
  have hnot : FieldTest.holds (Entries.get? doc deletedField)
      (.document [("$not", .document [("$type", .string "date")])]) = .ok doc.isShown := by
    rw [FieldTest.holds, if_pos (by rfl), FieldTest.allHold, if_pos rfl, htype]
    cases doc.isShown <;> rfl
  rw [visibilityPredicate, Query.holds]
  have hkey : Query.Combinator.ofKey? deletedField = none := rfl
  have hfield : isOperator deletedField = false := by decide
  rw [hkey, hfield, hnot]
  cases doc.isShown <;> rfl

/-- **What a restricted query matches**: what the query matches, among the documents that are shown
if the policy hides any. -/
theorem holds_restrict (policy : Policy) (query doc : Document) :
    Query.holds doc (policy.restrict query)
      = if policy.deleted then Verdict.both (Query.holds doc query) (.ok doc.isShown)
        else Query.holds doc query := by
  rw [Policy.restrict]
  by_cases hdeleted : policy.deleted = true
  · rw [if_pos hdeleted, if_pos hdeleted]
    -- an empty query is replaced, any other is joined
    cases query with
    | nil => exact holds_visibilityPredicate doc
    | cons entry rest =>
      rw [List.isEmpty_cons, if_neg Bool.false_ne_true, Query.holds]
      have hkey : Query.Combinator.ofKey? "$and" = some .all := rfl
      simp only [hkey]
      rw [Query.combined, if_pos (by rfl), Query.allHold, Query.allHold,
        holds_visibilityPredicate, Query.holds]
      cases Query.holds doc (entry :: rest) with
      | error fault => rfl
      | ok matched => cases matched <;> cases doc.isShown <;> rfl
  · rw [if_neg hdeleted, if_neg hdeleted]

/-- **A restriction is transparent**, whatever the query is: any keys, operators and operands, with
or without sense. On every document a restricted query is at fault where the query is, with the same
fault. Elsewhere it holds of the document if the query does and, under a policy that hides what is
deleted, the document is not deleted. Its seed is that of the query, field by field in the same
order. -/
theorem Policy.restrict_is_transparent (policy : Policy) (query doc : Document) :
    Query.holds doc (policy.restrict query)
      = (Query.holds doc query).map
          (fun matched => matched && (!policy.deleted || (Deletion.ofDocument doc).isVisible)) ∧
    Query.seed (policy.restrict query) = Query.seed query := by
  refine ⟨?_, seedFrom_restrict policy query []⟩
  rw [holds_restrict, ← Document.isShown]
  cases hholds : Query.holds doc query with
  | error fault => cases policy.deleted <;> rfl
  | ok matched => cases policy.deleted <;> cases matched <;> cases doc.isShown <;> rfl

/-- A restricted query matches only documents that are shown. -/
theorem isShown_of_holds_restrict {policy : Policy} (hdeleted : policy.deleted = true)
    {query doc : Document} (h : Query.holds doc (policy.restrict query) = .ok true) :
    doc.isShown = true := by
  rw [holds_restrict, if_pos hdeleted, Verdict.both_eq_ok_true] at h
  exact Except.ok.inj h.2

end DocStore
