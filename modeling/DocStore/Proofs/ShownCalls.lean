import DocStore.Proofs.Outcome
import DocStore.Proofs.ShownWrites
import DocStore.Store.Call

/-! # Calls to a store and to one that holds what is shown

Two stores correspond if a collection of the second holds exactly the shown documents of the first
(`Store.Shows`). A call with a restricted query to the first and the same call with the plain query
to the second have the same reply or the same fault, and leave stores that correspond. A removal
from the second corresponds to an update of the first that hides. -/

namespace DocStore

namespace Outcome

universe u v w x y

variable {ε : Type u} {α : Type v} {β : Type w} {γ : Type x} {δ : Type y}

/-- **Outcomes that are alike**: related values, or the same fault. -/
inductive Alike (related : α → β → Prop) : Except ε α → Except ε β → Prop
  | ok {first : α} {second : β} : related first second → Alike related (.ok first) (.ok second)
  | error (fault : ε) : Alike related (.error fault) (.error fault)

/-- What is made of related values is related. -/
theorem Alike.map {related : α → β → Prop} {related' : γ → δ → Prop} {first : Except ε α}
    {second : Except ε β} {f : α → γ} {g : β → δ} (h : Alike related first second)
    (hmap : ∀ a b, related a b → related' (f a) (g b)) :
    Alike related' (first.map f) (second.map g) := by
  cases h with
  | ok hrelated => exact Alike.ok (hmap _ _ hrelated)
  | error fault => exact Alike.error fault

/-- Both outcomes are values, or both are the same fault. -/
theorem Alike.values_or_fault {related : α → β → Prop} {first : Except ε α} {second : Except ε β}
    (h : Alike related first second) :
    (∃ a b, first = .ok a ∧ second = .ok b ∧ related a b) ∨
      ∃ fault, first = .error fault ∧ second = .error fault := by
  cases h with
  | ok hrelated => exact Or.inl ⟨_, _, rfl, rfl, hrelated⟩
  | error fault => exact Or.inr ⟨fault, rfl, rfl⟩

theorem alike_refl (outcome : Except ε α) : Alike Eq outcome outcome := by
  cases outcome with
  | ok value => exact Alike.ok rfl
  | error fault => exact Alike.error fault

/-- Outcomes whose values are equal are equal. -/
theorem Alike.eq {first second : Except ε α} (h : Alike Eq first second) : first = second := by
  cases h with
  | ok hvalue => rw [hvalue]
  | error fault => rfl

end Outcome

open Outcome (Alike alike_refl)
open Query (Restricts)
open Collection (KeepsShown Hides)

/-- **A store that holds what is shown** of a collection of another store. -/
def Store.Shows (collection : String) (whole shown : Store) : Prop :=
  shown.documents collection = (whole.documents collection).filter Document.isShown

/-- Replies that are related, and stores that still correspond. -/
def Carried {α β : Type} (collection : String) (related : α → β → Prop) (first : α × Store)
    (second : β × Store) : Prop :=
  related first.1 second.1 ∧ Store.Shows collection first.2 second.2

namespace Store

variable {collection : String} {whole shown : Store} {restricted query update : Document}
  {now : DateTime}

/-- Replacing the documents of the collection in both stores. -/
theorem Shows.withDocuments {docs docs' : List Document}
    (h : docs' = docs.filter Document.isShown) :
    Shows collection (whole.withDocuments collection docs)
      (shown.withDocuments collection docs') := by
  rw [Shows, documents_withDocuments_self, documents_withDocuments_self, h]

/-! ## Reading -/

/-- A call that reads, with the same outcome on both sides. -/
theorem alike_read {α : Type} (h : Shows collection whole shown) {first second : Except Fault α}
    (heq : second = first) :
    Alike (Carried collection Eq) (first.map (·, whole)) (second.map (·, shown)) := by
  rw [heq]
  exact (alike_refl first).map fun a b hab => ⟨hab, h⟩

variable [Runtime]

theorem alike_find (hquery : Restricts restricted query) (h : Shows collection whole shown)
    (options : QueryOptions) :
    Alike (Carried collection Eq) ((Call.find collection restricted options).run now whole)
      ((Call.find collection query options).run now shown) := by
  refine alike_read h ?_
  rw [Collection.find, Collection.find, h, hquery.select]

theorem alike_findOne (hquery : Restricts restricted query) (h : Shows collection whole shown)
    (options : QueryOptions) :
    Alike (Carried collection Eq) ((Call.findOne collection restricted options).run now whole)
      ((Call.findOne collection query options).run now shown) := by
  refine alike_read h ?_
  rw [Collection.findOne, Collection.findOne, Collection.find, Collection.find, h, hquery.select]

theorem alike_count (hquery : Restricts restricted query) (h : Shows collection whole shown) :
    Alike (Carried collection Eq) ((Call.count collection restricted).run now whole)
      ((Call.count collection query).run now shown) := by
  refine alike_read h ?_
  rw [Collection.count, Collection.count, h, hquery.select]

/-! ## Updating the first match -/

theorem alike_updateOne (hquery : Restricts restricted query) (hkeeps : KeepsShown now update)
    (h : Shows collection whole shown) :
    Alike (Carried collection Eq)
      ((Call.updateOne collection restricted update false).run now whole)
      ((Call.updateOne collection query update false).run now shown) := by
  rw [Call.run, Call.run, updateOne, updateOne]
  dsimp only
  rw [h]
  rcases Collection.first?_cases hquery none (whole.documents collection) with
    ⟨hnone, hnone'⟩ | ⟨position, doc, hfirst, hfirst', hstored, hshown⟩
  · rw [hnone, hnone']
    exact Alike.ok ⟨rfl, h⟩
  · rw [hfirst, hfirst']
    dsimp only
    cases hupdate : Collection.updated now update doc with
    | error fault => exact Alike.error fault
    | ok doc' =>
      have hshown' : doc'.isShown = true := (hkeeps doc doc' hupdate).trans hshown
      exact Alike.ok ⟨rfl, Shows.withDocuments (filter_set_of_shown hstored hshown hshown').symm⟩

theorem alike_findOneAndUpdate (hquery : Restricts restricted query)
    (hkeeps : KeepsShown now update) (h : Shows collection whole shown) (options : QueryOptions) :
    Alike (Carried collection Eq)
      ((Call.findOneAndUpdate collection restricted update options false).run now whole)
      ((Call.findOneAndUpdate collection query update options false).run now shown) := by
  rw [Call.run, Call.run, findOneAndUpdate, findOneAndUpdate]
  dsimp only
  rw [h]
  rcases Collection.first?_cases hquery options.sort (whole.documents collection) with
    ⟨hnone, hnone'⟩ | ⟨position, doc, hfirst, hfirst', hstored, hshown⟩
  · rw [hnone, hnone']
    exact Alike.ok ⟨rfl, h⟩
  · rw [hfirst, hfirst']
    dsimp only
    cases hupdate : Collection.updated now update doc with
    | error fault => exact Alike.error fault
    | ok doc' =>
      have hshown' : doc'.isShown = true := (hkeeps doc doc' hupdate).trans hshown
      exact Alike.ok ⟨rfl, Shows.withDocuments (filter_set_of_shown hstored hshown hshown').symm⟩

/-- Hiding the first match on one side is removing it on the other. -/
theorem alike_hideOne (hquery : Restricts restricted query) (hhides : Hides now update)
    (h : Shows collection whole shown) :
    Alike (Carried collection fun outcome count => outcome.matched = count)
      ((Call.updateOne collection restricted update false).run now whole)
      ((Call.deleteOne collection query).run now shown) := by
  rw [Call.run, Call.run, updateOne, deleteOne, Collection.deleteOne]
  dsimp only
  rw [h]
  rcases Collection.first?_cases hquery none (whole.documents collection) with
    ⟨hnone, hnone'⟩ | ⟨position, doc, hfirst, hfirst', hstored, hshown⟩
  · rw [hnone, hnone']
    -- a removal writes its collection back also where it removes nothing
    exact Alike.ok ⟨rfl, documents_withDocuments_self _ _ _⟩
  · obtain ⟨doc', hupdate, hhidden, -⟩ := hhides doc
    rw [hfirst, hfirst']
    dsimp only
    rw [hupdate]
    exact Alike.ok ⟨rfl, Shows.withDocuments (filter_set_of_hidden hstored hshown hhidden).symm⟩

/-! ## Updating all matches -/

theorem alike_updateMany (hquery : Restricts restricted query) (hkeeps : KeepsShown now update)
    (h : Shows collection whole shown) :
    Alike (Carried collection Eq)
      ((Call.updateMany collection restricted update).run now whole)
      ((Call.updateMany collection query update).run now shown) := by
  rw [Call.run, Call.run, updateMany, updateMany, h, Collection.updateMany_shown hquery hkeeps]
  cases Collection.updateMany now restricted update (whole.documents collection) with
  | error fault => exact Alike.error fault
  | ok result => exact Alike.ok ⟨rfl, Shows.withDocuments rfl⟩

/-- Hiding all matches on one side is removing them on the other. -/
theorem alike_hideMany (hquery : Restricts restricted query) (hhides : Hides now update)
    (h : Shows collection whole shown) :
    Alike (Carried collection fun outcome count => outcome.modified = count)
      ((Call.updateMany collection restricted update).run now whole)
      ((Call.deleteMany collection query).run now shown) := by
  obtain ⟨outcome, docs', hhide, hremove⟩ := Collection.exists_updateMany_of_hides hquery hhides
    (whole.documents collection)
  rw [Call.run, Call.run, updateMany, deleteMany, h, hhide, hremove]
  exact Alike.ok ⟨rfl, Shows.withDocuments rfl⟩

end Store

end DocStore
