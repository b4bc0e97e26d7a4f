import DocStore.Proofs.StoreEffect
import Mathlib.Data.List.Induction

/-! # Requests to a store

Everything that a store can be asked to do: a call, or that a whole collection is removed. Requests
are served one after the other, and one that is refused changes nothing. A request touches no
collection but its own (`Store.documents_serve_of_ne`). -/

namespace DocStore

/-- **A request** to a store: a call, or that a whole collection is removed. -/
inductive Request where
  | make (call : AnyCall)
  | drop (collection : String)

/-- The collection that a call is about. -/
def AnyCall.collection : AnyCall → String
  | ⟨_, .find collection _ _⟩ | ⟨_, .findOne collection _ _⟩ | ⟨_, .insertOne collection _⟩
  | ⟨_, .updateOne collection _ _ _⟩ | ⟨_, .updateMany collection _ _⟩
  | ⟨_, .findOneAndUpdate collection _ _ _ _⟩ | ⟨_, .deleteOne collection _⟩
  | ⟨_, .deleteMany collection _⟩ | ⟨_, .count collection _⟩ => collection

namespace Request

/-- The collection that a request is about. -/
def collection : Request → String
  | .make call => call.collection
  | .drop name => name

end Request

namespace Store

variable (store : Store) (now : DateTime) {collection : String} {query update : Document}

/-- A document that an upsert stores goes to its own collection. -/
theorem documents_insertSeeded_of_ne {key : Value} {stored : Document} {grown : Store}
    (hok : store.insertSeeded now collection query update = .ok (key, stored, grown))
    {other : String} (h : other ≠ collection) : grown.documents other = store.documents other := by
  rw [insertSeeded] at hok
  split at hok
  · cases hok
  · dsimp only at hok
    cases hok
    exact documents_withDocuments_of_ne _ _ h

variable [Runtime]

/-- The store after a request at a time; a call that is refused changes nothing. -/
def serve (store : Store) (now : DateTime) : Request → Store
  | .make call => (store.answer now call.2).2
  | .drop collection => store.drop collection

/-- The store after requests, each at its time. -/
def serveAll (store : Store) (steps : List (DateTime × Request)) : Store :=
  steps.foldl (fun store step => store.serve step.1 step.2) store

/-! ## Updating the first match -/

/-- The store after the first match is updated, or after a document is stored where there is none. -/
def firstUpdated (store : Store) (now : DateTime) (collection : String) (query update : Document)
    (sort : Option Document) (upsert : Bool) : Store :=
  match Collection.first? query sort (store.documents collection) with
  | .error _ => store
  | .ok (some (position, doc)) =>
    match Collection.updated now update doc with
    | .error _ => store
    | .ok replacement =>
      store.withDocuments collection ((store.documents collection).set position replacement)
  | .ok none =>
    if upsert then
      match store.insertSeeded now collection query update with
      | .error _ => store
      | .ok (_, _, grown) => grown
    else store

/-- An update of the first match does to the store what an update that also reads it does. -/
theorem answer_updateOne (upsert : Bool) :
    (store.answer now (.updateOne collection query update upsert)).2
      = store.firstUpdated now collection query update none upsert := by
  rw [answer, Call.run, updateOne, firstUpdated]
  cases Collection.first? query none (store.documents collection) with
  | error fault => rfl
  | ok found =>
    cases found with
    | some found => dsimp only; cases Collection.updated now update found.2 <;> rfl
    | none =>
      cases upsert with
      | false => rfl
      | true => dsimp only [if_true]; cases store.insertSeeded now collection query update <;> rfl

theorem answer_findOneAndUpdate (options : QueryOptions) (upsert : Bool) :
    (store.answer now (.findOneAndUpdate collection query update options upsert)).2
      = store.firstUpdated now collection query update options.sort upsert := by
  rw [answer, Call.run, findOneAndUpdate, firstUpdated]
  cases Collection.first? query options.sort (store.documents collection) with
  | error fault => rfl
  | ok found =>
    cases found with
    | some found => dsimp only; cases Collection.updated now update found.2 <;> rfl
    | none =>
      cases upsert with
      | false => rfl
      | true => dsimp only [if_true]; cases store.insertSeeded now collection query update <;> rfl

/-- An update of the first match touches no other collection. -/
theorem documents_firstUpdated_of_ne {sort : Option Document} {upsert : Bool} {other : String}
    (h : other ≠ collection) :
    (store.firstUpdated now collection query update sort upsert).documents other
      = store.documents other := by
  rw [firstUpdated]
  split
  · rfl
  · split
    · rfl
    · exact documents_withDocuments_of_ne _ _ h
  · split
    · split
      · rfl
      · rename_i hok
        exact store.documents_insertSeeded_of_ne now hok h
    · rfl

/-! ## Replacing all documents -/

/-- What a call does that replaces the documents of its collection unless it is refused. -/
theorem answer_of_replacing {kind : ReplyKind} {call : Call kind}
    {outcome : Except Fault (kind.Reply × List Document)}
    (hrun : call.run now store
      = outcome.map fun result => (result.1, store.withDocuments collection result.2)) :
    ((store.answer now call).2 = store) ∨ ∃ result, outcome = .ok result ∧
      (store.answer now call).2 = store.withDocuments collection result.2 := by
  rw [answer, hrun]
  cases outcome with
  | error fault => exact Or.inl rfl
  | ok result => exact Or.inr ⟨result, rfl, rfl⟩

/-- Such a call touches no other collection. -/
theorem documents_of_replacing_of_ne {kind : ReplyKind} {call : Call kind}
    {outcome : Except Fault (kind.Reply × List Document)}
    (hrun : call.run now store
      = outcome.map fun result => (result.1, store.withDocuments collection result.2))
    {other : String} (h : other ≠ collection) :
    (store.answer now call).2.documents other = store.documents other := by
  rcases store.answer_of_replacing now hrun with hkept | ⟨result, -, hreplaced⟩
  · rw [hkept]
  · rw [hreplaced, documents_withDocuments_of_ne _ _ h]

/-! ## One request and its collection -/

/-- A request touches no collection but its own. -/
theorem documents_serve_of_ne {request : Request} {other : String}
    (h : other ≠ request.collection) :
    (store.serve now request).documents other = store.documents other := by
  cases request with
  | drop name =>
    have hget := Entries.get?_remove_of_ne store.collections h
    exact congrArg (fun docs => docs.getD []) hget
  | make call =>
    obtain ⟨kind, call⟩ := call
    rw [serve]
    cases call with
    | find name query options => rw [Repository.answer_find]
    | findOne name query options => rw [Repository.answer_findOne]
    | count name query => rw [Repository.answer_count]
    | insertOne name doc =>
      rw [answer, Call.run, insertOne]
      dsimp only
      split
      · rename_i hok
        split at hok
        · cases hok
        · cases hok
          exact documents_withDocuments_of_ne _ _ h
      · rfl
    | updateOne name query update upsert =>
      rw [answer_updateOne]
      exact store.documents_firstUpdated_of_ne now h
    | findOneAndUpdate name query update options upsert =>
      rw [answer_findOneAndUpdate]
      exact store.documents_firstUpdated_of_ne now h
    | updateMany name query update => exact store.documents_of_replacing_of_ne now rfl h
    | deleteOne name query => exact store.documents_of_replacing_of_ne now rfl h
    | deleteMany name query => exact store.documents_of_replacing_of_ne now rfl h

/-! ## Runs of requests -/

/-- The last request of a run. -/
theorem serveAll_concat (before : List (DateTime × Request)) (step : DateTime × Request) :
    store.serveAll (before ++ [step]) = (store.serveAll before).serve step.1 step.2 := by
  rw [serveAll, List.foldl_append]
  rfl

/-- **What every request keeps true of its own collection** is true of each collection after a run, by
induction on the last request. -/
theorem documents_serveAll_induction (holds : List Document → Prop) {name : String}
    (hstart : holds (store.documents name)) {steps : List (DateTime × Request)}
    (hstep : ∀ step ∈ steps, ∀ store : Store, holds (store.documents step.2.collection) →
      holds ((store.serve step.1 step.2).documents step.2.collection)) :
    holds ((store.serveAll steps).documents name) := by
  induction steps using List.reverseRecOn with
  | nil => exact hstart
  | append_singleton before step ih =>
    have hbefore := ih fun other hmem => hstep other (List.mem_append_left _ hmem)
    rw [serveAll_concat]
    by_cases hname : name = step.2.collection
    · subst hname
      exact hstep step (List.mem_append_right _ List.mem_cons_self) _ hbefore
    · rw [documents_serve_of_ne _ _ hname]
      exact hbefore

end Store

end DocStore
