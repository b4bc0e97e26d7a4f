import DocStore.Proofs.Calls
import DocStore.Proofs.OwnedFields
import DocStore.Proofs.Runs
import DocStore.Proofs.Visibility
import Mathlib.Data.List.Induction

/-! # Lifecycle fields over whole runs

A repository that keeps all three lifecycle fields never loses a document, never touches one that is
deleted, never changes a creation time, deletes only when it is asked to, and stamps every document
that it writes or stores. `Lifecycle.Step` says what one operation may do to the documents of the
collection; every operation is such a step (`Lifecycle.step_perform`), because the query of its call
selects only documents that are shown, and its update leaves the lifecycle fields to the policy. What
a whole run may do (`Lifecycle.Span`) follows step by step. -/

namespace DocStore

/-- The policy that keeps all lifecycle fields. -/
def Policy.full : Policy := ⟨true, true, true⟩

/-- A repository that keeps all lifecycle fields. -/
def Repository.keepingAll {α : Type} (model : Model α) (schema : Schema) (timeout : Duration) :
    Repository α := ⟨model, schema, ⟨.full, timeout⟩⟩

namespace Lifecycle

/-- **What an operation may do to a document that is shown**: the creation time stays, the deletion
time stays unless a deletion writes the document, what is written is an update of what it was, with
the time of the operation as its modification time, and any other document stays as it is. -/
structure Revision (now : DateTime) (deletes : Bool) (written : Prop) (doc doc' : Document) :
    Prop where
  /-- The creation time stays, or stays missing. -/
  created : Entries.get? doc' createdField = Entries.get? doc createdField
  /-- The deletion time stays, or stays missing, unless a deletion writes the document. -/
  spared : ¬ (deletes = true ∧ written) →
    Entries.get? doc' deletedField = Entries.get? doc deletedField
  /-- A deletion that writes the document stamps it. -/
  deleted : deletes = true ∧ written → Entries.get? doc' deletedField = some (.dateTime now)
  /-- What is written is an update of the document, and it is stamped. -/
  modified : written → Entries.get? doc' modifiedField = some (.dateTime now) ∧
    ∃ update, Collection.updated now update doc = .ok doc'
  /-- What is not written stays. -/
  untouched : ¬ written → doc' = doc

/-- **What an operation may do to the documents of a collection.** -/
structure Step (now : DateTime) (deletes : Bool) (written : List Nat)
    (docs docs' : List Document) : Prop where
  /-- No document is lost. -/
  le_length : docs.length ≤ docs'.length
  /-- At most one document is stored. -/
  length_le : docs'.length ≤ docs.length + 1
  /-- A deleted document stays exactly as it is. -/
  frozen : ∀ (position : Nat) (doc : Document), docs[position]? = some doc →
    doc.isShown = false → docs'[position]? = some doc
  /-- Every other document stays at its position, and is revised at most. -/
  revised : ∀ (position : Nat) (doc : Document), docs[position]? = some doc →
    doc.isShown = true → ∃ doc', docs'[position]? = some doc' ∧ Revision now deletes (position ∈ written) doc doc'
  /-- A document that is stored is stamped with the time of the operation. -/
  stored : ∀ doc' : Document, docs'[docs.length]? = some doc' →
    Entries.get? doc' createdField = some (.dateTime now) ∧
      Entries.get? doc' modifiedField = some (.dateTime now)

/-- **What a run may do to the documents of a collection.** -/
structure Span (steps : Nat) (docs docs' : List Document) : Prop where
  /-- No document is lost. -/
  le_length : docs.length ≤ docs'.length
  /-- At most one document is stored by each operation. -/
  length_le : docs'.length ≤ docs.length + steps
  /-- A deleted document stays exactly as it is. -/
  frozen : ∀ (position : Nat) (doc : Document), docs[position]? = some doc →
    doc.isShown = false → docs'[position]? = some doc
  /-- Every document stays at its position and keeps its creation time. -/
  created : ∀ (position : Nat) (doc : Document), docs[position]? = some doc →
    ∃ doc' : Document, docs'[position]? = some doc' ∧
      Entries.get? doc' createdField = Entries.get? doc createdField

/-! ## One write -/

/-- An update that leaves the lifecycle fields to the policy. -/
structure Stamps (now : DateTime) (deletes : Bool) (update : Document) : Prop where
  created : ∀ doc doc', Collection.updated now update doc = .ok doc' →
    Entries.get? doc' createdField = Entries.get? doc createdField
  modified : ∀ doc doc', Collection.updated now update doc = .ok doc' →
    Entries.get? doc' modifiedField = some (.dateTime now)
  deleted : ∀ doc doc', Collection.updated now update doc = .ok doc' →
    Entries.get? doc' deletedField
      = if deletes = true then some (.dateTime now) else Entries.get? doc deletedField

/-- A new document that is stamped. -/
def IsStamped (now : DateTime) (doc : Document) : Prop :=
  Entries.get? doc createdField = some (.dateTime now) ∧
    Entries.get? doc modifiedField = some (.dateTime now)

/-- A step that stores nothing is still a step with a stamped document behind it. -/
theorem Step.append {now : DateTime} {deletes : Bool} {positions : List Nat}
    {docs kept : List Document} (h : Step now deletes positions docs kept)
    (hlength : kept.length = docs.length) {stored : Document} (hstored : IsStamped now stored) :
    Step now deletes positions docs (kept ++ [stored]) := by
  have hold : ∀ (position : Nat) (doc : Document), kept[position]? = some doc →
      (kept ++ [stored])[position]? = some doc := by
    intro position doc hkept
    obtain ⟨hlt, -⟩ := List.getElem?_eq_some_iff.mp hkept
    rw [List.getElem?_append_left hlt, hkept]
  refine ⟨?_, ?_, ?_, ?_, ?_⟩
  · rw [List.length_append]
    omega
  · rw [List.length_append, List.length_singleton]
    omega
  · intro position doc hdoc hhidden
    exact hold position doc (h.frozen position doc hdoc hhidden)
  · intro position doc hdoc hshown
    obtain ⟨doc', hdoc', hrevision⟩ := h.revised position doc hdoc hshown
    exact ⟨doc', hold position doc' hdoc', hrevision⟩
  · intro doc' hdoc'
    rw [← hlength, List.getElem?_append_right (Nat.le_refl _), Nat.sub_self,
      List.getElem?_cons_zero, Option.some.injEq] at hdoc'
    exact hdoc' ▸ hstored

/-- What changes nothing is a step. -/
theorem step_refl (now : DateTime) (deletes : Bool) (docs : List Document) :
    Step now deletes [] docs docs where
  le_length := Nat.le_refl _
  length_le := Nat.le_succ _
  frozen := fun _ _ hdoc _ => hdoc
  revised := fun _ doc hdoc _ =>
    ⟨doc, hdoc, rfl, fun _ => rfl, fun hmem => absurd hmem.2 List.not_mem_nil,
      fun hmem => absurd hmem List.not_mem_nil, fun _ => rfl⟩
  stored := fun doc' hdoc' => by simp at hdoc'

/-- A step goes on what a run may do. -/
theorem Span.step {steps : Nat} {docs middle docs' : List Document} {now : DateTime}
    {deletes : Bool} {written : List Nat} (h : Span steps docs middle)
    (hstep : Step now deletes written middle docs') : Span (steps + 1) docs docs' where
  le_length := Nat.le_trans h.le_length hstep.le_length
  length_le := by
    have := h.length_le
    have := hstep.length_le
    omega
  frozen := fun position doc hdoc hhidden =>
    hstep.frozen position doc (h.frozen position doc hdoc hhidden) hhidden
  created := by
    intro position doc hdoc
    -- a document that is hidden by now is frozen, and one that is shown keeps its creation time
    obtain ⟨between, hbetween, hcreated⟩ := h.created position doc hdoc
    cases hshown : between.isShown with
    | false => exact ⟨between, hstep.frozen position between hbetween hshown, hcreated⟩
    | true =>
      obtain ⟨doc', hdoc', hrevision⟩ := hstep.revised position between hbetween hshown
      exact ⟨doc', hdoc', hrevision.created.trans hcreated⟩

/-- Rewriting documents is a step if the query selects what is shown and the update leaves the
lifecycle fields to the policy. -/
theorem step_of_rewritten [Runtime] {now : DateTime} {deletes : Bool} {query update : Document}
    {positions : List Nat} {docs docs' : List Document}
    (hshown : ∀ doc, Query.holds doc query = .ok true → doc.isShown = true)
    (hstamps : Stamps now deletes update)
    (h : Collection.Rewritten now query update positions docs docs') :
    Step now deletes positions docs docs' where
  le_length := Nat.le_of_eq h.length.symm
  length_le := Nat.le_succ_of_le (Nat.le_of_eq h.length)
  frozen := by
    intro position doc hdoc hhidden
    by_cases hwritten : position ∈ positions
    · -- what is written matches the query, so it is shown
      obtain ⟨found, -, hfound, hholds, -, -⟩ := h.written position hwritten
      rw [hdoc, Option.some.injEq] at hfound
      subst hfound
      rw [hshown doc hholds] at hhidden
      cases hhidden
    · rw [h.kept position hwritten, hdoc]
  revised := by
    intro position doc hdoc _
    by_cases hwritten : position ∈ positions
    · obtain ⟨found, doc', hfound, -, hupdate, hdoc'⟩ := h.written position hwritten
      rw [hdoc, Option.some.injEq] at hfound
      subst hfound
      have hdeleted := hstamps.deleted doc doc' hupdate
      refine ⟨doc', hdoc', hstamps.created doc doc' hupdate, fun hnot => ?_, fun hdeletes => ?_,
        fun _ => ⟨hstamps.modified doc doc' hupdate, update, hupdate⟩,
        fun hnot => absurd hwritten hnot⟩
      · rw [hdeleted, if_neg fun hdeletes => hnot ⟨hdeletes, hwritten⟩]
      · rw [hdeleted, if_pos hdeletes.1]
    · exact ⟨doc, (h.kept position hwritten).trans hdoc, rfl, fun _ => rfl,
        fun hin => absurd hin.2 hwritten, fun hin => absurd hin hwritten, fun _ => rfl⟩
  stored := by
    intro doc' hdoc'
    obtain ⟨hlt, -⟩ := List.getElem?_eq_some_iff.mp hdoc'
    rw [h.length] at hlt
    exact absurd hlt (Nat.lt_irrefl _)

/-- A write is a step if its query selects what is shown, its update leaves the lifecycle fields to
the policy, and what it stores is stamped. -/
theorem step_of_written [Runtime] {now : DateTime} {deletes : Bool} {query update : Document}
    {positions : List Nat} {isNew : Document → Prop} {docs docs' : List Document}
    (hshown : ∀ doc, Query.holds doc query = .ok true → doc.isShown = true)
    (hstamps : Stamps now deletes update) (hnew : ∀ doc, isNew doc → IsStamped now doc)
    (h : Collection.Written now query update positions isNew docs docs') :
    Step now deletes positions docs docs' := by
  obtain ⟨kept, hrewritten, hgrown⟩ := h
  have hkept := step_of_rewritten hshown hstamps hrewritten
  rcases hgrown with rfl | ⟨stored, hstored, rfl⟩
  · exact hkept
  · exact hkept.append hrewritten.length (hnew stored hstored)

/-! ## The calls of a repository -/

open UpdateSpec (ownedAfter)

/-- A compiled update leaves the lifecycle fields to the policy. -/
theorem stamps_of_compile {context : UpdateContext} {now : DateTime} {spec update : Document}
    (hcompile : (UpdateSpec.compile .full context now spec).2 = .ok update)
    (hcreated : context.created ≠ .restamp) :
    Stamps now context.softDelete update := by
  obtain ⟨created, softDelete⟩ := context
  refine ⟨?_, ?_, ?_⟩
  · intro doc doc' happly
    rw [UpdateSpec.get?_apply_compile hcompile happly (by decide)]
    cases created with
    | restamp => exact absurd rfl hcreated
    | never => cases softDelete <;> rfl
    | onInsert => cases softDelete <;> rfl
  · intro doc doc' happly
    rw [UpdateSpec.get?_apply_compile hcompile happly (by decide)]
    cases created <;> cases softDelete <;> rfl
  · intro doc doc' happly
    rw [UpdateSpec.get?_apply_compile hcompile happly (by decide)]
    cases created <;> cases softDelete <;> rfl

/-- What an upsert stores is stamped. -/
theorem isStamped_of_isSeeded {now : DateTime} {query spec update stored : Document}
    (hcompile : (UpdateSpec.compile .full .upsert now spec).2 = .ok update)
    (h : Collection.IsSeeded now query update stored) : IsStamped now stored := by
  obtain ⟨asked, hasked, hkeyed⟩ := h
  refine ⟨?_, ?_⟩
  · rw [hkeyed createdField (by decide),
      UpdateSpec.get?_apply_compile hcompile hasked (by decide)]
    rfl
  · rw [hkeyed modifiedField (by decide),
      UpdateSpec.get?_apply_compile hcompile hasked (by decide)]
    rfl

/-- What an insertion stores is stamped. -/
theorem isStamped_stamp {now : DateTime} {doc stored : Document}
    (h : Collection.IsKeyed (Policy.full.stamp now doc) stored) : IsStamped now stored := by
  refine ⟨?_, ?_⟩
  · rw [h createdField (by decide), Policy.stamp, Entries.get?_insertIf, Entries.get?_insertIf,
      Entries.get?_insertIf, if_neg (by decide), if_neg (by decide), if_pos (by decide)]
  · rw [h modifiedField (by decide), Policy.stamp, Entries.get?_insertIf, Entries.get?_insertIf,
      if_neg (by decide), if_pos (by decide)]

/-- A call that is a step on the collection whenever it is carried out. -/
def IsSafe [Runtime] (now : DateTime) (deletes : Bool) (collection : String) (call : AnyCall) :
    Prop :=
  ∀ store reply store', call.2.run now store = .ok (reply, store') →
    Step now deletes (AnyCall.positions (store.documents collection) call)
      (store.documents collection) (store'.documents collection)

theorem isSafe_insertOne [Runtime] (now : DateTime) (collection : String) (doc : Document)
    (deletes : Bool) :
    IsSafe now deletes collection ⟨_, .insertOne collection (Policy.full.stamp now doc)⟩ := by
  intro store reply store' hrun
  obtain ⟨stored, hkeyed, hdocs⟩ := Store.documents_insertOne hrun
  rw [hdocs]
  exact (step_refl now deletes _).append rfl (isStamped_stamp hkeyed)

/-! ## The operations of a repository -/

section Operations

variable [Runtime] {α : Type} (model : Model α) (schema : Schema) (timeout : Duration)

/-- A restricted filter selects only documents that are shown. -/
theorem isShown_of_restricted {filter : Filter} {compiled : CompiledFilter}
    (h : (Repository.keepingAll model schema timeout).restricted filter = .ok compiled)
    (doc : Document) (hholds : Query.holds doc compiled.query = .ok true) :
    doc.isShown = true := by
  obtain ⟨plain, -, rfl⟩ := Outcome.map_eq_ok_iff.mp h
  have hdeleted : (Repository.keepingAll model schema timeout).policy.deleted = true := rfl
  exact isShown_of_holds_restrict hdeleted hholds

/-- An update with a restricted filter and a compiled update is a step. -/
theorem isSafe_of_updating {now : DateTime} {operation : Operation α} {compiled : CompiledFilter}
    {update : Document} {upsert : Bool} {call : AnyCall}
    (h : (Repository.keepingAll model schema timeout).Updating now operation compiled update upsert
      call) :
    IsSafe now operation.isDeletion model.collection call := by
  obtain ⟨hcall, ⟨filter, hfilter, -⟩, context, spec, hcompile, hdeletion, hcreated, hupsert⟩ := h
  have hnew : ∀ stored, upsert = true ∧ Collection.IsSeeded now compiled.query update stored →
      IsStamped now stored := by
    rintro stored ⟨hup, hseeded⟩
    rw [hupsert hup] at hcompile
    exact isStamped_of_isSeeded hcompile hseeded
  rw [← hdeletion]
  intro store reply store' hrun
  exact step_of_written (isShown_of_restricted model schema timeout hfilter)
    (stamps_of_compile hcompile hcreated) hnew (hcall.written hrun)

/-- The call that writes in an operation is a step. -/
theorem isSafe_writeCall {now : DateTime} {operation : Operation α} {call : AnyCall}
    (h : (Repository.keepingAll model schema timeout).writeCall now operation = some call) :
    IsSafe now operation.isDeletion model.collection call := by
  have hdeleted : (Repository.keepingAll model schema timeout).policy.deleted = true := rfl
  rcases Repository.writeCall_cases hdeleted h with
    ⟨value, doc, -, rfl⟩ | ⟨compiled, update, upsert, hupdating⟩
  · exact isSafe_insertOne now model.collection doc _
  · exact isSafe_of_updating model schema timeout hupdating

/-- **Every operation is a step.** -/
theorem step_perform (operation : Operation α) (moment : Moment) (session : Session) :
    Step moment.now operation.isDeletion
      ((Repository.keepingAll model schema timeout).written operation moment session)
      ((Repository.keepingAll model schema timeout).stored session)
      ((Repository.keepingAll model schema timeout).stored
        ((Repository.keepingAll model schema timeout).perform operation moment session).2) := by
  rcases (Repository.keepingAll model schema timeout).perform_cases operation moment session with
    ⟨hkept, hwritten⟩ | ⟨call, reply, store', hcall, hrun, hafter, hwritten⟩
  · rw [Repository.stored, Repository.stored, hkept, hwritten]
    exact step_refl _ _ _
  · rw [Repository.stored, Repository.stored, hafter, hwritten]
    exact isSafe_writeCall model schema timeout hcall session.store reply store' hrun

/-! ## Runs -/

/-- What a run may do, by induction on its last operation. -/
theorem span_sessionAfter (session : Session) (steps : List (Moment × Operation α)) :
    Span steps.length ((Repository.keepingAll model schema timeout).stored session)
      ((Repository.keepingAll model schema timeout).stored
        ((Repository.keepingAll model schema timeout).sessionAfter steps session)) := by
  induction steps using List.reverseRecOn with
  | nil =>
    exact ⟨Nat.le_refl _, Nat.le_refl _, fun _ _ hdoc _ => hdoc, fun _ doc hdoc => ⟨doc, hdoc, rfl⟩⟩
  | append_singleton before step ih =>
    rw [List.length_append, List.length_singleton, Repository.sessionAfter_concat]
    exact ih.step (step_perform model schema timeout step.2 step.1 _)

end Operations

end Lifecycle

/-- **Lifecycle safety over whole runs.** A repository that keeps all lifecycle fields starts from
any session and carries out any operations, each of which may succeed or fail. Then every single
operation is a `Lifecycle.Step` on the documents of the collection, with the clock time of that
operation as its stamp, and the whole run is a `Lifecycle.Span`. -/
theorem lifecycle_safe_of_run [Runtime] {α : Type} (model : Model α) (schema : Schema)
    (timeout : Duration) (session : Session) (steps : List (Moment × Operation α)) :
    let repository := Repository.keepingAll model schema timeout
    (∀ before step after, steps = before ++ step :: after →
      Lifecycle.Step step.1.now step.2.isDeletion
        (repository.written step.2 step.1 (repository.sessionAfter before session))
        (repository.stored (repository.sessionAfter before session))
        (repository.stored (repository.sessionAfter (before ++ [step]) session))) ∧
    Lifecycle.Span steps.length (repository.stored session)
      (repository.stored (repository.sessionAfter steps session)) := by
  intro repository
  refine ⟨fun before step after _ => ?_, Lifecycle.span_sessionAfter model schema timeout session
    steps⟩
  rw [Repository.sessionAfter_concat]
  exact Lifecycle.step_perform model schema timeout step.2 step.1 _

end DocStore
