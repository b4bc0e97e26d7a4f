import DocStore.Proofs.Writes
import DocStore.Store.InPlace

/-! # Calls in place come to what calls do

A call is a program that changes the store where it is (`Call.inPlace`), and a whole that gives a
store or none (`Call.run`). Call by call, the program gives the same reply and leaves the same
documents, or is refused with the same fault (`Store.carriesOut_inPlace`). A refused program takes
nothing back, so this says that every call has found its faults before it replaces, removes or
appends the first document, although an update itself stops halfway
(`Store.documents_of_refused`). -/

namespace DocStore

namespace InPlace

variable {σ α β : Type} (state : σ)

/-! ## Running programs -/

@[simp] theorem pure_apply (value : α) :
    (pure value : InPlace σ α) state = (.ok value, state) := rfl

@[simp] theorem get_apply : (get : InPlace σ σ) state = (.ok state, state) := rfl

@[simp] theorem modify_apply (change : σ → σ) :
    (modify change : InPlace σ PUnit) state = (.ok ⟨⟩, change state) := rfl

@[simp] theorem ofExcept_apply (outcome : Except Fault α) :
    (ofExcept outcome : InPlace σ α) state = (outcome, state) := rfl

/-- The second of two programs runs on the state that the first has left, if it gave a value. -/
@[simp] theorem bind_apply (program : InPlace σ α) (next : α → InPlace σ β) :
    (program >>= next) state
      = match program state with
        | (.ok value, state) => next value state
        | (.error fault, state) => (.error fault, state) := by
  simp only [bind, ExceptT.bind, ExceptT.mk, StateT.bind, ExceptT.bindCont]
  rcases program state with ⟨outcome, after⟩
  cases outcome <;> rfl

/-! ## Programs on a copy -/

/-- Two programs on a copy. -/
theorem onCopy_bind (first next : InPlace σ Unit) :
    (first >>= fun _ => next).onCopy state = (first.onCopy state).bind next.onCopy := by
  rw [onCopy, onCopy, bind_apply]
  rcases first state with ⟨outcome, after⟩
  cases outcome <;> rfl

end InPlace

namespace Update

open InPlace (onCopy onCopy_bind)

theorem onCopy_incrementInPlace (bucket doc : Document) :
    (incrementInPlace bucket).onCopy doc = incrementAll bucket doc := by
  induction bucket generalizing doc with
  | nil => rfl
  | cons entry rest ih =>
    obtain ⟨field, amount⟩ := entry
    rw [incrementInPlace, incrementAll, onCopy]
    simp only [InPlace.bind_apply, InPlace.get_apply, InPlace.ofExcept_apply]
    cases increment field (Entries.get? doc field) amount with
    | error fault => rfl
    | ok sum => exact ih (Entries.insert doc field sum)

theorem onCopy_renameInPlace (bucket doc : Document) :
    (renameInPlace bucket).onCopy doc = renameAll bucket doc := by
  induction bucket generalizing doc with
  | nil => rfl
  | cons entry rest ih =>
    obtain ⟨source, operand⟩ := entry
    cases operand with
    | string target =>
      rw [renameInPlace, renameAll, onCopy, InPlace.bind_apply, InPlace.get_apply]
      dsimp only
      cases Entries.get? doc source with
      | none => exact ih doc
      | some value => exact ih (Entries.insert (Entries.remove doc source) target value)
    | _ => rfl

/-- An operator on a copy makes the document that it makes as a whole. -/
theorem Operator.onCopy_applyInPlace (operator : Operator) (occasion : Occasion)
    (bucket doc : Document) :
    (operator.applyInPlace occasion bucket).onCopy doc = operator.apply occasion bucket doc := by
  cases operator with
  | setOnInsert =>
    rw [applyInPlace, apply]
    split <;> rfl
  | inc => exact onCopy_incrementInPlace bucket doc
  | rename => exact onCopy_renameInPlace bucket doc
  | _ => rfl

theorem onCopy_applyEntryInPlace (occasion : Occasion) (key : String) (operand : Value)
    (doc : Document) :
    (applyEntryInPlace occasion key operand).onCopy doc = applyEntry occasion key operand doc := by
  cases operand with
  | document bucket =>
    rw [applyEntryInPlace, applyEntry]
    cases Operator.ofKey? key with
    | none => rfl
    | some operator => exact operator.onCopy_applyInPlace occasion bucket doc
  | _ => rfl

/-- **An update on a copy** makes the updated document, or is refused with the same fault. -/
theorem onCopy_applyInPlace (occasion : Occasion) (update doc : Document) :
    (applyInPlace occasion update).onCopy doc = apply occasion update doc := by
  induction update generalizing doc with
  | nil => rfl
  | cons entry rest ih =>
    obtain ⟨key, operand⟩ := entry
    rw [applyInPlace, onCopy_bind, onCopy_applyEntryInPlace, apply]
    cases applyEntry occasion key operand doc with
    | error fault => rfl
    | ok next => exact ih next

end Update

namespace Collection

/-! ## What is found before anything is written -/

theorem updatedCopy_eq (now : DateTime) (update doc : Document) :
    updatedCopy now update doc = updated now update doc :=
  Update.onCopy_applyInPlace _ update doc

/-- The positions of the documents that have a replacement, counted from `start`, with it. -/
def marks : Nat → List (Document × Option Document) → List (Nat × Document)
  | _, [] => []
  | start, (_, none) :: rest => marks (start + 1) rest
  | start, (_, some replacement) :: rest => (start, replacement) :: marks (start + 1) rest

/-- The documents that have a replacement, with it. -/
def replaced (pairs : List (Document × Option Document)) : List (Document × Document) :=
  pairs.filterMap fun (doc, replacement) => replacement.map (doc, ·)

/-- An outcome with the replaced documents counted, and those that become different. -/
def counted (outcome : UpdateOutcome) (pairs : List (Document × Option Document)) :
    UpdateOutcome :=
  { outcome with
    matched := outcome.matched + (replaced pairs).length
    modified := outcome.modified
      + ((replaced pairs).filter fun (doc, replacement) => !doc.equal replacement).length }

/-- A replaced document is counted before the others. -/
theorem counted_cons (outcome : UpdateOutcome) (doc replacement : Document)
    (rest : List (Document × Option Document)) :
    counted outcome ((doc, some replacement) :: rest)
      = counted
          { outcome with
            matched := outcome.matched + 1
            modified := outcome.modified + (!doc.equal replacement).toNat } rest := by
  have hcons : replaced ((doc, some replacement) :: rest)
      = (doc, replacement) :: replaced rest := rfl
  have hfiltered : ((replaced ((doc, some replacement) :: rest)).filter
        fun (doc, replacement) => !doc.equal replacement).length
      = (!doc.equal replacement).toNat
        + ((replaced rest).filter fun (doc, replacement) => !doc.equal replacement).length := by
    rw [hcons]
    by_cases hequal : doc.equal replacement = true
    · simp [hequal]
    · simp [hequal, Nat.add_comm]
  rw [counted, counted, hfiltered, hcons, List.length_cons, Nat.add_assoc outcome.modified,
    Nat.add_assoc outcome.matched, Nat.add_comm 1]

variable [Runtime]

/-- What is pending is every replacement at its position. -/
theorem pending_eq (now : DateTime) (query update : Document) (start : Nat)
    (docs : List Document) :
    pending now query update start docs
      = (replacements now query update docs).map (marks start) := by
  induction docs generalizing start with
  | nil => rfl
  | cons doc rest ih =>
    rw [pending, replacements]
    cases Query.holds doc query with
    | error fault => rfl
    | ok matched =>
      cases matched with
      | false =>
        dsimp only
        rw [ih]
        cases replacements now query update rest <;> rfl
      | true =>
        dsimp only
        rw [updatedCopy_eq]
        cases updated now update doc with
        | error fault => rfl
        | ok replacement =>
          dsimp only
          rw [ih]
          cases replacements now query update rest <;> rfl

/-- What is kept are the documents without a mark. -/
theorem remaining_eq (query : Document) (docs : List Document) :
    remaining query docs = (doomed query docs).map fun marks => retain marks docs := by
  induction docs with
  | nil => rfl
  | cons doc rest ih =>
    rw [remaining, doomed]
    cases Query.holds doc query with
    | error fault => rfl
    | ok matched =>
      dsimp only
      rw [ih]
      cases doomed query rest <;> rfl

/-- There are as many marks as documents that are not kept. -/
theorem count_doomed {query : Document} {docs : List Document} {marks : List Bool}
    (h : doomed query docs = .ok marks) :
    marks.count true = docs.length - (retain marks docs).length := by
  have hsum : marks.count true + (retain marks docs).length = docs.length := by
    induction docs generalizing marks with
    | nil => cases h; rfl
    | cons doc rest ih =>
      rw [doomed] at h
      cases hdoc : Query.holds doc query with
      | error fault => rw [hdoc] at h; cases h
      | ok matched =>
        rw [hdoc] at h
        obtain ⟨later, hlater, rfl⟩ := Outcome.map_eq_ok_iff.mp h
        have hrest := ih hlater
        cases matched with
        | true =>
          rw [retain, if_pos rfl, List.count_cons_self, List.length_cons]
          omega
        | false =>
          rw [retain, if_neg Bool.false_ne_true, List.count_cons_of_ne (by decide),
            List.length_cons, List.length_cons]
          omega
  omega

end Collection

namespace Store

/-! ## Changing the store -/

variable {α : Type}

/-- **Carrying out in place** what a call does as a whole: the same reply, and then every collection
holds the same documents; or the same fault, and then every collection still holds the documents
that it held in the `store`. -/
def CarriesOut (store : Store) (outcome : Except Fault (α × Store)) (run : Except Fault α × Store) :
    Prop :=
  match outcome with
  | .ok (reply, after) =>
    run.1 = .ok reply ∧ ∀ name, run.2.documents name = after.documents name
  | .error fault => run.1 = .error fault ∧ ∀ name, run.2.documents name = store.documents name

variable (store : Store) (now : DateTime) (collection : String) (query update : Document)

/-- What a collection holds after one is written. -/
theorem documents_withDocuments (docs : List Document) (name : String) :
    (store.withDocuments collection docs).documents name
      = if name = collection then docs else store.documents name := by
  by_cases h : name = collection
  · rw [if_pos h, h, documents_withDocuments_self]
  · rw [if_neg h, documents_withDocuments_of_ne _ _ h]

/-- A collection that was written is written once more. -/
theorem documents_withDocuments_twice (docs docs' : List Document) (name : String) :
    ((store.withDocuments collection docs).withDocuments collection docs').documents name
      = (store.withDocuments collection docs').documents name := by
  rw [documents_withDocuments, documents_withDocuments, documents_withDocuments]
  split <;> rfl

/-- A collection that is opened holds what it held. -/
theorem documents_opened (name : String) :
    (store.withDocuments collection (store.documents collection)).documents name
      = store.documents name := by
  rw [documents_withDocuments]
  split
  · rename_i h
    rw [h]
  · rfl

@[simp] theorem keyInPlace_apply (doc : Document) :
    keyInPlace doc store
      = (.ok ((keyed store.ids doc).1, (keyed store.ids doc).2.1),
        { store with ids := (keyed store.ids doc).2.2 }) := rfl

@[simp] theorem openInPlace_apply :
    openInPlace collection store
      = (.ok (store.documents collection),
        store.withDocuments collection (store.documents collection)) := by
  simp only [openInPlace, InPlace.bind_apply, InPlace.modify_apply, InPlace.get_apply,
    InPlace.pure_apply, documents_withDocuments_self]

@[simp] theorem pushInPlace_apply (doc : Document) :
    pushInPlace collection doc store
      = (.ok (), store.withDocuments collection (store.documents collection ++ [doc])) := rfl

@[simp] theorem commitInPlace_apply (position : Nat) (replacement : Document) :
    commitInPlace collection position replacement store
      = (.ok ((store.documents collection)[position]?.any fun doc => !doc.equal replacement),
        store.withDocuments collection ((store.documents collection).set position replacement)) :=
  rfl

/-! ## Call by call -/

theorem carriesOut_insertOne (doc : Document) :
    CarriesOut store (store.insertOne collection doc) (insertOneInPlace collection doc store) := by
  have hheld : ({ store with ids := (keyed store.ids doc).2.2 } : Store).documents collection
      = store.documents collection := rfl
  simp only [insertOne, insertOneInPlace, InPlace.bind_apply, keyInPlace_apply, openInPlace_apply,
    hheld]
  split
  · exact ⟨rfl, fun name => documents_opened _ collection name⟩
  · refine ⟨rfl, fun name => ?_⟩
    simp only [InPlace.bind_apply, pushInPlace_apply, InPlace.pure_apply,
      documents_withDocuments_self]
    exact documents_withDocuments_twice _ collection _ _ name

theorem carriesOut_read (read : List Document → Except Fault α) :
    CarriesOut store ((read (store.documents collection)).map (·, store))
      (readInPlace collection read store) := by
  rw [readInPlace, InPlace.bind_apply, InPlace.get_apply]
  dsimp only
  rw [InPlace.ofExcept_apply]
  cases read (store.documents collection) with
  | error fault => exact ⟨rfl, fun _ => rfl⟩
  | ok reply => exact ⟨rfl, fun _ => rfl⟩

/-- A seed whose update is refused leaves a collection that was opened. -/
theorem upsertInPlace_of_error {fault : Fault}
    (h : store.insertSeeded now collection query update = .error fault) :
    upsertInPlace now collection query update
        (store.withDocuments collection (store.documents collection))
      = (.error fault, store.withDocuments collection (store.documents collection)) := by
  rw [insertSeeded, Collection.fresh] at h
  rw [upsertInPlace, InPlace.bind_apply, InPlace.ofExcept_apply, Update.onCopy_applyInPlace]
  cases hfresh : Update.apply ⟨now, true⟩ update (Query.seed query) with
  | error fault => rw [hfresh] at h; cases h; rfl
  | ok doc => rw [hfresh] at h; cases h

/-- A seeded document is stored in a collection that was opened. -/
theorem upsertInPlace_of_ok {key : Value} {stored : Document} {grown : Store}
    (h : store.insertSeeded now collection query update = .ok (key, stored, grown)) :
    ∃ after, upsertInPlace now collection query update
        (store.withDocuments collection (store.documents collection)) = (.ok key, after) ∧
      ∀ name, after.documents name = grown.documents name := by
  rw [insertSeeded, Collection.fresh] at h
  rw [upsertInPlace, InPlace.bind_apply, InPlace.ofExcept_apply, Update.onCopy_applyInPlace]
  cases hfresh : Update.apply ⟨now, true⟩ update (Query.seed query) with
  | error fault => rw [hfresh] at h; cases h
  | ok doc =>
    rw [hfresh] at h
    cases h
    have hheld : ∀ ids, ({ store.withDocuments collection (store.documents collection) with
        ids := ids } : Store).documents collection = store.documents collection := fun ids =>
      documents_opened store collection collection
    refine ⟨_, rfl, fun name => ?_⟩
    simp only [hheld]
    exact documents_withDocuments_twice _ collection _ _ name

/-- **Putting copies in place.** Where the documents before a position are settled, the copies for
the others come to their own positions, and are counted. -/
theorem commitAllInPlace_marks (pairs : List (Document × Option Document))
    (settled : List Document) (outcome : Collection.UpdateOutcome) (store : Store)
    (h : store.documents collection = settled ++ pairs.map Prod.fst) :
    ∃ after, commitAllInPlace collection (Collection.marks settled.length pairs) outcome store
        = (.ok (Collection.counted outcome pairs), after) ∧
      ∀ name, after.documents name
        = if name = collection then
            settled ++ pairs.map fun (doc, replacement) => replacement.getD doc
          else store.documents name := by
  induction pairs generalizing settled outcome store with
  | nil =>
    refine ⟨store, rfl, fun name => ?_⟩
    split
    · rename_i hname
      rw [hname, h]
      rfl
    · rfl
  | cons pair rest ih =>
    obtain ⟨doc, replacement⟩ := pair
    rw [List.map_cons] at h
    cases replacement with
    | none =>
      have hsettled : store.documents collection = (settled ++ [doc]) ++ rest.map Prod.fst := by
        rw [h, List.append_assoc]
        rfl
      obtain ⟨after, hrun, hafter⟩ := ih (settled ++ [doc]) outcome store hsettled
      rw [List.length_append, List.length_singleton] at hrun
      refine ⟨after, hrun, fun name => ?_⟩
      rw [hafter name, List.append_assoc]
      rfl
    | some replacement =>
      have hread : (store.documents collection)[settled.length]? = some doc := by
        rw [h]
        simp
      have hwritten : (store.documents collection).set settled.length replacement
          = (settled ++ [replacement]) ++ rest.map Prod.fst := by
        rw [h]
        simp
      obtain ⟨after, hrun, hafter⟩ := ih (settled ++ [replacement])
        { outcome with
          matched := outcome.matched + 1
          modified := outcome.modified + (!doc.equal replacement).toNat }
        (store.withDocuments collection
          ((store.documents collection).set settled.length replacement))
        (by rw [documents_withDocuments_self, hwritten])
      rw [List.length_append, List.length_singleton] at hrun
      refine ⟨after, ?_, fun name => ?_⟩
      · rw [Collection.marks, commitAllInPlace, InPlace.bind_apply, commitInPlace_apply, hread]
        dsimp only [Option.any_some]
        rw [hrun, ← Collection.counted_cons]
      · rw [hafter name, documents_withDocuments, List.append_assoc]
        split <;> rfl

section

variable [Runtime]

theorem carriesOut_updateOne (upsert : Bool) :
    CarriesOut store (store.updateOne now collection query update upsert)
      (updateOneInPlace now collection query update upsert store) := by
  simp only [updateOne, updateOneInPlace, InPlace.bind_apply, openInPlace_apply,
    InPlace.ofExcept_apply]
  cases hfirst : Collection.first? query none (store.documents collection) with
  | error fault => exact ⟨rfl, documents_opened store collection⟩
  | ok found =>
    cases found with
    | some found =>
      obtain ⟨position, doc⟩ := found
      simp only [Collection.updatedCopy_eq, InPlace.bind_apply, InPlace.ofExcept_apply]
      cases Collection.updated now update doc with
      | error fault => exact ⟨rfl, documents_opened store collection⟩
      | ok replacement =>
        simp only [commitInPlace_apply, InPlace.pure_apply, documents_withDocuments_self,
          (Collection.first?_eq_some hfirst).1, Option.any_some]
        refine ⟨?_, documents_withDocuments_twice store collection _ _⟩
        cases doc.equal replacement <;> rfl
    | none =>
      cases upsert with
      | false => exact ⟨rfl, documents_opened store collection⟩
      | true =>
        simp only [if_true, InPlace.bind_apply]
        cases hseeded : store.insertSeeded now collection query update with
        | error fault =>
          rw [store.upsertInPlace_of_error now collection query update hseeded]
          exact ⟨rfl, documents_opened store collection⟩
        | ok seeded =>
          obtain ⟨after, hrun, hafter⟩ :=
            store.upsertInPlace_of_ok now collection query update hseeded
          rw [hrun]
          exact ⟨rfl, hafter⟩

theorem carriesOut_findOneAndUpdate (options : QueryOptions) (upsert : Bool) :
    CarriesOut store (store.findOneAndUpdate now collection query update options upsert)
      (findOneAndUpdateInPlace now collection query update options upsert store) := by
  simp only [findOneAndUpdate, findOneAndUpdateInPlace, touchInPlace, InPlace.bind_apply,
    openInPlace_apply, InPlace.ofExcept_apply]
  cases hfirst : Collection.first? query options.sort (store.documents collection) with
  | error fault => exact ⟨rfl, documents_opened store collection⟩
  | ok found =>
    cases found with
    | some found =>
      obtain ⟨position, doc⟩ := found
      simp only [Collection.updatedCopy_eq, InPlace.bind_apply, InPlace.ofExcept_apply]
      cases Collection.updated now update doc with
      | error fault => exact ⟨rfl, documents_opened store collection⟩
      | ok replacement =>
        -- the position is read again after the document was replaced
        obtain ⟨hposition, -⟩ :=
          List.getElem?_eq_some_iff.mp (Collection.first?_eq_some hfirst).1
        have hread : ((store.documents collection).set position replacement)[position]?
            = some replacement := List.getElem?_set_self hposition
        simp only [commitInPlace_apply, InPlace.pure_apply, InPlace.bind_apply, InPlace.get_apply,
          documents_withDocuments_self, hread, Option.map_some]
        exact ⟨rfl, documents_withDocuments_twice store collection _ _⟩
    | none =>
      cases upsert with
      | false => exact ⟨rfl, documents_opened store collection⟩
      | true =>
        simp only [if_true, InPlace.bind_apply]
        cases hseeded : store.insertSeeded now collection query update with
        | error fault =>
          rw [store.upsertInPlace_of_error now collection query update hseeded]
          exact ⟨rfl, documents_opened store collection⟩
        | ok seeded =>
          obtain ⟨key, stored, grown⟩ := seeded
          obtain ⟨after, hrun, hafter⟩ :=
            store.upsertInPlace_of_ok now collection query update hseeded
          -- the last position is the one of the document that was stored
          have hread : (after.documents collection)[(after.documents collection).length - 1]?
              = some stored := by
            rw [hafter, (documents_insertSeeded hseeded).2]
            simp
          rw [hrun]
          simp only [InPlace.bind_apply, InPlace.get_apply, InPlace.pure_apply, hread,
            Option.map_some]
          exact ⟨rfl, hafter⟩

theorem carriesOut_updateMany :
    CarriesOut store (store.updateMany now collection query update)
      (updateManyInPlace now collection query update store) := by
  simp only [updateMany, Collection.updateMany, updateManyInPlace, InPlace.bind_apply,
    InPlace.get_apply, InPlace.ofExcept_apply, Collection.pending_eq]
  cases hpairs : Collection.replacements now query update (store.documents collection) with
  | error fault => exact ⟨rfl, fun _ => rfl⟩
  | ok pairs =>
    have hdocs : store.documents collection = [] ++ pairs.map Prod.fst :=
      (Collection.map_fst_replacements hpairs).symm
    obtain ⟨after, hrun, hafter⟩ := commitAllInPlace_marks collection pairs [] {} store hdocs
    rw [Collection.counted, Collection.replaced, Nat.zero_add, Nat.zero_add] at hrun
    simp only [Except.map]
    rw [show commitAllInPlace collection (Collection.marks 0 pairs) {} store = _ from hrun]
    refine ⟨rfl, fun name => ?_⟩
    rw [hafter name, documents_withDocuments]
    rfl

theorem carriesOut_deleteOne :
    CarriesOut store (store.deleteOne collection query)
      (deleteOneInPlace collection query store) := by
  simp only [deleteOne, Collection.deleteOne, deleteOneInPlace, InPlace.bind_apply,
    InPlace.get_apply, InPlace.ofExcept_apply]
  cases Collection.first? query none (store.documents collection) with
  | error fault => exact ⟨rfl, fun _ => rfl⟩
  | ok found =>
    cases found with
    | some found => exact ⟨rfl, fun _ => rfl⟩
    | none => exact ⟨rfl, fun name => (documents_opened store collection name).symm⟩

theorem carriesOut_deleteMany :
    CarriesOut store (store.deleteMany collection query)
      (deleteManyInPlace collection query store) := by
  simp only [deleteMany, Collection.deleteMany, deleteManyInPlace, InPlace.bind_apply,
    InPlace.get_apply, InPlace.ofExcept_apply, Collection.remaining_eq]
  cases hmarks : Collection.doomed query (store.documents collection) with
  | error fault => exact ⟨rfl, fun _ => rfl⟩
  | ok marks => exact ⟨congrArg Except.ok (Collection.count_doomed hmarks), fun _ => rfl⟩

/-- **Every call in place** does to the documents what the call does as a whole. -/
theorem carriesOut_inPlace {kind : ReplyKind} (call : Call kind) :
    CarriesOut store (call.run now store) (call.inPlace now store) := by
  cases call with
  | find collection query options => exact store.carriesOut_read collection _
  | findOne collection query options => exact store.carriesOut_read collection _
  | insertOne collection doc => exact store.carriesOut_insertOne collection doc
  | updateOne collection query update upsert =>
    exact store.carriesOut_updateOne now collection query update upsert
  | updateMany collection query update =>
    exact store.carriesOut_updateMany now collection query update
  | findOneAndUpdate collection query update options upsert =>
    exact store.carriesOut_findOneAndUpdate now collection query update options upsert
  | deleteOne collection query => exact store.carriesOut_deleteOne collection query
  | deleteMany collection query => exact store.carriesOut_deleteMany collection query
  | count collection query => exact store.carriesOut_read collection _

/-- A call in place leaves the documents that the call leaves as a whole. -/
theorem documents_inPlace {kind : ReplyKind} (call : Call kind) (name : String) :
    (call.inPlace now store).2.documents name = (store.answer now call).2.documents name := by
  have hcarries := store.carriesOut_inPlace now call
  rw [answer]
  cases hrun : call.run now store with
  | error fault => rw [hrun] at hcarries; exact hcarries.2 name
  | ok result => rw [hrun] at hcarries; exact hcarries.2 name

/-! ## Refused calls -/

/-- **A refused call changes no document.** If a call is refused in place, whatever its query and
its update are and on whichever document the fault is found, then every collection still holds
exactly the documents that it held; and the call as a whole is refused with the same fault and leaves the
store as it was. -/
theorem documents_of_refused {kind : ReplyKind} {call : Call kind} {now : DateTime}
    {store after : Store} {fault : Fault} (h : call.inPlace now store = (.error fault, after)) :
    (∀ name, after.documents name = store.documents name) ∧
      store.answer now call = (.error (.store fault), store) := by
  have hcarries := store.carriesOut_inPlace now call
  rw [h] at hcarries
  rw [answer]
  cases hrun : call.run now store with
  | ok result =>
    rw [hrun] at hcarries
    cases hcarries.1
  | error whole =>
    rw [hrun] at hcarries
    obtain ⟨hfault, hdocuments⟩ := hcarries
    cases hfault
    exact ⟨hdocuments, rfl⟩

end

/-- An update of three notes that the second one refuses, after its first operator was applied. -/
theorem documents_of_refused_updateMany :
    ∃ (call : Call .outcome) (store after : Store) (fault : Fault),
      call.inPlace ⟨1000⟩ store = (.error fault, after) ∧
      store.documents "notes" = [[("_id", .int32 0), ("views", .int32 1)],
        [("_id", .int32 1), ("views", .string "many")], [("_id", .int32 2)]] ∧
      after.documents "notes" = store.documents "notes" ∧
      store.answer ⟨1000⟩ call = (.error (.store fault), store) := by
  let call : Call .outcome :=
    .updateMany "notes" [] [("$set", .document [("seen", .bool true)]),
      ("$inc", .document [("views", .int32 1)])]
  let store : Store :=
    ⟨[("notes", [[("_id", .int32 0), ("views", .int32 1)],
      [("_id", .int32 1), ("views", .string "many")], [("_id", .int32 2)]])], .ofSource ⟨0, 0, 0⟩⟩
  have hrefused : call.inPlace ⟨1000⟩ store
      = (.error (.notNumeric (.int32 1) "views"), store) := rfl
  obtain ⟨hdocuments, hanswer⟩ := documents_of_refused hrefused
  exact ⟨call, store, store, _, hrefused, rfl, hdocuments "notes", hanswer⟩

/-- The program that is refused there has already written to its copy of the second note. -/
example :
    Update.applyInPlace ⟨⟨1000⟩, false⟩ [("$set", .document [("seen", .bool true)]),
        ("$inc", .document [("views", .int32 1)])] [("_id", .int32 1), ("views", .string "many")]
      = (.error (.notNumeric (.int32 1) "views"),
        [("_id", .int32 1), ("views", .string "many"), ("seen", .bool true)]) := rfl

end Store

end DocStore
