import DocStore.Proofs.Shown

/-! # Writes and what is shown afterwards

An update that leaves the deletion field alone does to the shown documents of a collection what the
plain query would do to them if they were all there is. An update that hides every document that it
is applied to (`Collection.Hides`) removes its matches from the shown documents, and it counts each
of them as modified. -/

namespace DocStore

namespace Collection

open Query (Restricts)

variable {restricted query update : Document} {now : DateTime}

/-! ## Updates that hide nothing -/

/-- **An update that keeps what is shown**: a document is shown after it if it was before. -/
def KeepsShown (now : DateTime) (update : Document) : Prop :=
  ∀ doc doc', updated now update doc = .ok doc' → doc'.isShown = doc.isShown

variable [Runtime]

/-- The replacements of the shown documents are those of the whole collection, without the documents
that are hidden. -/
theorem replacements_shown (h : Restricts restricted query) (docs : List Document) :
    replacements now query update (docs.filter Document.isShown)
      = (replacements now restricted update docs).map
          (List.filter fun pair => pair.1.isShown) := by
  induction docs with
  | nil => rfl
  | cons doc rest ih =>
    cases hdoc : doc.isShown with
    | true =>
      rw [filter_cons_shown hdoc, replacements, replacements, h.holds_of_shown hdoc, h.plain, ih]
      cases Query.accepts query doc with
      | true =>
        dsimp only
        cases updated now update doc with
        | error fault => rfl
        | ok doc' =>
          cases replacements now restricted update rest with
          | error fault => rfl
          | ok pairs => simp [Except.map, hdoc]
      | false =>
        cases replacements now restricted update rest with
        | error fault => rfl
        | ok pairs => simp [Except.map, hdoc]
    | false =>
      rw [filter_cons_hidden hdoc, replacements, h.holds_of_hidden hdoc, ih]
      cases replacements now restricted update rest with
      | error fault => rfl
      | ok pairs => simp [Except.map, hdoc]

/-- A replacement is the update of a match. -/
theorem updated_of_mem_replacements {docs : List Document}
    {pairs : List (Document × Option Document)}
    (h : replacements now query update docs = .ok pairs) {doc doc' : Document}
    (hmem : (doc, some doc') ∈ pairs) :
    Query.holds doc query = .ok true ∧ updated now update doc = .ok doc' := by
  obtain ⟨position, hpair⟩ := List.mem_iff_getElem?.mp hmem
  rcases replacements_getElem? h position with ⟨-, hnone⟩ | ⟨found, -, hcase⟩
  · rw [hpair] at hnone
    cases hnone
  · rcases hcase with ⟨-, hkept⟩ | ⟨found', hholds, hupdate, hwritten⟩
    · rw [hpair] at hkept
      cases hkept
    · rw [hpair] at hwritten
      cases hwritten
      exact ⟨hholds, hupdate⟩

/-- **Updating all matches** of a restricted query updates the matches among the shown documents,
with the same counts. -/
theorem updateMany_shown (h : Restricts restricted query) (hkeeps : KeepsShown now update)
    (docs : List Document) :
    updateMany now query update (docs.filter Document.isShown)
      = (updateMany now restricted update docs).map
          (Prod.map id (List.filter Document.isShown)) := by
  rw [updateMany, updateMany, replacements_shown h]
  cases hpairs : replacements now restricted update docs with
  | error fault => rfl
  | ok pairs =>
    have hshown : ∀ pair ∈ pairs, (pair.2.getD pair.1).isShown = pair.1.isShown := by
      rintro ⟨doc, replacement⟩ hmem
      cases replacement with
      | none => rfl
      | some doc' => exact hkeeps doc doc' (updated_of_mem_replacements hpairs hmem).2
    -- a hidden document has no replacement, so leaving it out changes no count
    have hreplaced : (pairs.filter fun pair => pair.1.isShown).filterMap
          (fun pair => pair.2.map (pair.1, ·))
        = pairs.filterMap fun pair => pair.2.map (pair.1, ·) := by
      rw [List.filterMap_filter]
      refine List.filterMap_congr fun pair hmem => ?_
      obtain ⟨doc, replacement⟩ := pair
      cases replacement with
      | none =>
        dsimp only
        split <;> rfl
      | some doc' =>
        obtain ⟨hholds, -⟩ := updated_of_mem_replacements hpairs hmem
        rw [h.restricted, Except.ok.injEq, Bool.and_eq_true] at hholds
        dsimp only
        rw [if_pos hholds.2]
    -- a replacement is shown like the document that it replaces
    have hdocs : (pairs.filter fun pair => pair.1.isShown).map (fun pair => pair.2.getD pair.1)
        = (pairs.map fun pair => pair.2.getD pair.1).filter Document.isShown := by
      rw [List.filter_map]
      exact congrArg _ (List.filter_congr fun pair hmem => (hshown pair hmem).symm)
    simp only [Except.map, Prod.map, id, hreplaced, hdocs]

/-! ## Updates that hide -/

/-- **An update that hides** every document that it is applied to, and makes a shown one
different. -/
def Hides (now : DateTime) (update : Document) : Prop :=
  ∀ doc, ∃ doc', updated now update doc = .ok doc' ∧ doc'.isShown = false ∧
    (doc.isShown = true → doc.equal doc' = false)

/-- What remains among the shown documents is what is still shown after the matches were hidden, and
every match counts as modified. -/
theorem exists_replacements_of_hides (h : Restricts restricted query) (hhides : Hides now update)
    (docs : List Document) :
    ∃ pairs, replacements now restricted update docs = .ok pairs ∧
      remaining query (docs.filter Document.isShown)
        = .ok ((pairs.map fun pair => pair.2.getD pair.1).filter Document.isShown) ∧
      (docs.filter Document.isShown).length
        = ((pairs.map fun pair => pair.2.getD pair.1).filter Document.isShown).length
          + ((pairs.filterMap fun pair => pair.2.map (pair.1, ·)).filter
              fun pair => !pair.1.equal pair.2).length := by
  induction docs with
  | nil => exact ⟨[], rfl, rfl, rfl⟩
  | cons doc rest ih =>
    obtain ⟨pairs, hpairs, hremaining, hlength⟩ := ih
    obtain ⟨doc', hupdate, hhidden, hdifferent⟩ := hhides doc
    cases hdoc : doc.isShown with
    | false =>
      refine ⟨(doc, none) :: pairs, ?_, ?_, ?_⟩
      · rw [replacements, h.holds_of_hidden hdoc, hpairs]
        rfl
      · rw [filter_cons_hidden hdoc, hremaining, List.map_cons]
        exact congrArg Except.ok (filter_cons_hidden hdoc _).symm
      · rw [filter_cons_hidden hdoc, hlength, List.map_cons]
        dsimp only [Option.getD_none]
        rw [filter_cons_hidden hdoc]
        rfl
    | true =>
      cases haccepts : Query.accepts query doc with
      | false =>
        refine ⟨(doc, none) :: pairs, ?_, ?_, ?_⟩
        · rw [replacements, h.holds_of_shown hdoc, h.plain, haccepts, hpairs]
          rfl
        · rw [filter_cons_shown hdoc, remaining, h.plain, haccepts, hremaining, List.map_cons]
          exact congrArg Except.ok (filter_cons_shown hdoc _).symm
        · rw [filter_cons_shown hdoc, List.length_cons, hlength, List.map_cons]
          dsimp only [Option.getD_none]
          rw [filter_cons_shown hdoc, List.length_cons]
          dsimp only [List.filterMap_cons, Option.map_none]
          omega
      | true =>
        -- a match is hidden, which removes it and counts it as modified
        refine ⟨(doc, some doc') :: pairs, ?_, ?_, ?_⟩
        · rw [replacements, h.holds_of_shown hdoc, h.plain, haccepts]
          dsimp only
          rw [hupdate, hpairs]
          rfl
        · rw [filter_cons_shown hdoc, remaining, h.plain, haccepts, hremaining, List.map_cons]
          exact congrArg Except.ok (filter_cons_hidden hhidden _).symm
        · rw [filter_cons_shown hdoc, List.length_cons, hlength, List.map_cons]
          dsimp only [Option.getD_some]
          rw [filter_cons_hidden hhidden]
          dsimp only [List.filterMap_cons, Option.map_some]
          rw [List.filter_cons, hdifferent hdoc, if_pos (by rfl), List.length_cons]
          omega

/-- **Hiding all matches** of a restricted query removes the matches among the shown documents, and
the number of modified documents is the number of removed ones. -/
theorem exists_updateMany_of_hides (h : Restricts restricted query) (hhides : Hides now update)
    (docs : List Document) :
    ∃ outcome docs', updateMany now restricted update docs = .ok (outcome, docs') ∧
      deleteMany query (docs.filter Document.isShown)
        = .ok (outcome.modified, docs'.filter Document.isShown) := by
  obtain ⟨pairs, hpairs, hremaining, hlength⟩ := exists_replacements_of_hides h hhides docs
  refine ⟨_, _, by rw [updateMany, hpairs]; rfl, ?_⟩
  rw [deleteMany, hremaining]
  refine congrArg Except.ok (Prod.ext ?_ rfl)
  dsimp only
  rw [hlength]
  omega

end Collection

end DocStore
