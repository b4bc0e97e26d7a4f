import DocStore.Proofs.Runs
import DocStore.Proofs.StoreEffect
import DocStore.Proofs.Writes

/-! # The calls of a repository that hides what is deleted

A repository that keeps the deletion time never asks the store to remove anything. The call that an
operation makes therefore stores a stamped document, or it is an update with a restricted filter and
a compiled update (`Repository.writeCall_cases`), and only an operation that may store a document
asks for one where nothing matches. -/

namespace DocStore

/-- Whether an operation deletes. -/
def Operation.isDeletion {α : Type} : Operation α → Bool
  | .deleteOne _ | .deleteById _ | .deleteMany _ => true
  | _ => false

/-- The filter of an operation that stores a document where the filter selects none. -/
def Operation.seedFilter? {α : Type} : Operation α → Option Filter
  | .findOneOrCreate filter _ | .upsert filter _ => some filter
  | _ => none

/-- The positions of the documents that a call rewrites: the first match, or all of them. -/
def AnyCall.positions [Runtime] (docs : List Document) : AnyCall → List Nat
  | ⟨_, .updateOne _ query _ _⟩ => Collection.firstPosition query none docs
  | ⟨_, .findOneAndUpdate _ query _ options _⟩ => Collection.firstPosition query options.sort docs
  | ⟨_, .updateMany _ query _⟩ => Collection.matchPositions query docs
  | _ => []

/-- The positions of the documents that an operation matches and writes: those of its call, if the
call is made and carried out. -/
def Repository.written [Runtime] {α : Type} (repository : Repository α) (operation : Operation α)
    (moment : Moment) (session : Session) : List Nat :=
  match repository.writeCall moment.now operation with
  | none => []
  | some ⟨kind, call⟩ =>
    if moment.latency.exceeds repository.options.timeout then []
    else
      match call.run moment.now session.store with
      | .ok _ => AnyCall.positions (repository.stored session) ⟨kind, call⟩
      | .error _ => []

/-- The calls that a repository makes with a compiled filter and a compiled update. -/
inductive UpdateCall (collection : String) (compiled : CompiledFilter) (update : Document)
    (upsert : Bool) : AnyCall → Prop
  | one : UpdateCall collection compiled update upsert
      ⟨_, .updateOne collection compiled.query update upsert⟩
  | oneRead : UpdateCall collection compiled update upsert
      ⟨_, .findOneAndUpdate collection compiled.query update compiled.options upsert⟩
  | many : UpdateCall collection compiled update upsert
      ⟨_, .updateMany collection compiled.query update⟩

/-- What an update call does to the documents of the collection. -/
theorem UpdateCall.written [Runtime] {collection : String} {compiled : CompiledFilter}
    {update : Document} {upsert : Bool} {call : AnyCall} (h : UpdateCall collection compiled update upsert call)
    {now : DateTime} {store store' : Store} {reply : call.1.Reply}
    (hrun : call.2.run now store = .ok (reply, store')) :
    Collection.Written now compiled.query update
      (AnyCall.positions (store.documents collection) call)
      (fun stored => upsert = true ∧ Collection.IsSeeded now compiled.query update stored)
      (store.documents collection) (store'.documents collection) := by
  cases h with
  | one => exact Store.documents_updateOne hrun
  | oneRead => exact Store.documents_findOneAndUpdate hrun
  | many =>
    obtain ⟨kept, hrewritten, hgrown⟩ := Store.documents_updateMany hrun
    refine ⟨kept, hrewritten, Or.inl ?_⟩
    rcases hgrown with hkept | ⟨_, hnone, -⟩
    · exact hkept
    · exact hnone.elim

namespace Repository

variable {α : Type} (repository : Repository α)

/-- **The update that an operation asks the store for**, with a compiled filter. -/
structure Updating (now : DateTime) (operation : Operation α) (compiled : CompiledFilter)
    (update : Document) (upsert : Bool) (call : AnyCall) : Prop where
  /-- The call is an update. -/
  isUpdate : UpdateCall repository.collection compiled update upsert call
  /-- The filter is restricted, and it is the operation's own if a document may be stored. -/
  restricted : ∃ filter, repository.restricted filter = .ok compiled ∧
    (upsert = true → operation.seedFilter? = some filter)
  /-- The update is compiled for what the operation does. -/
  compiled : ∃ context spec, (UpdateSpec.compile repository.policy context now spec).2 = .ok update ∧
    context.softDelete = operation.isDeletion ∧ context.created ≠ .restamp ∧
    (upsert = true → context = .upsert)

variable {repository} {now : DateTime} {filter : Filter}

/-- An update call is made once the filter and the update compile. -/
theorem exists_of_updateCall {context : UpdateContext} {spec : Document}
    {make : CompiledFilter → Document → AnyCall} {call : AnyCall}
    (h : repository.updateCall context now filter spec make = some call) :
    ∃ compiled update, repository.restricted filter = .ok compiled ∧
      (UpdateSpec.compile repository.policy context now spec).2 = .ok update ∧
      call = make compiled update := by
  rw [updateCall] at h
  cases hfilter : repository.restricted filter with
  | error error => rw [hfilter] at h; cases h
  | ok compiled =>
    cases hcompile : (UpdateSpec.compile repository.policy context now spec).2 with
    | error error => rw [hfilter, hcompile] at h; cases h
    | ok update =>
      rw [hfilter, hcompile] at h
      cases h
      exact ⟨compiled, update, rfl, rfl, rfl⟩

/-- Where the policy hides documents, a deletion is an update call. -/
theorem exists_of_deletionCall (hdeleted : repository.policy.deleted = true)
    {hide : CompiledFilter → Document → AnyCall} {remove : CompiledFilter → AnyCall}
    {call : AnyCall} (h : repository.deletionCall now filter hide remove = some call) :
    ∃ compiled update, repository.restricted filter = .ok compiled ∧
      (UpdateSpec.compile repository.policy .deletion now []).2 = .ok update ∧
      call = hide compiled update := by
  rw [deletionCall, Policy.deletionUpdate, if_pos hdeleted] at h
  cases hfilter : repository.restricted filter with
  | error error => rw [hfilter] at h; cases h
  | ok compiled =>
    cases hcompile : (UpdateSpec.compile repository.policy .deletion now []).2 with
    | error error => rw [hfilter, hcompile] at h; cases h
    | ok update =>
      rw [hfilter, hcompile] at h
      cases h
      exact ⟨compiled, update, rfl, rfl, rfl⟩

/-- The call of an operation that updates what is stored. -/
theorem updating_of_updateCall {operation : Operation α} {spec : Document}
    {make : CompiledFilter → Document → AnyCall} {call : AnyCall}
    (hmake : ∀ compiled update, UpdateCall repository.collection compiled update false
      (make compiled update))
    (hdeletion : operation.isDeletion = false)
    (h : repository.updateCall .update now filter spec make = some call) :
    ∃ compiled update upsert, repository.Updating now operation compiled update upsert call := by
  obtain ⟨compiled, update, hfilter, hcompile, rfl⟩ := exists_of_updateCall h
  exact ⟨compiled, update, false, hmake compiled update,
    ⟨filter, hfilter, fun hup => absurd hup Bool.false_ne_true⟩,
    ⟨.update, spec, hcompile, hdeletion.symm, by decide, fun hup => absurd hup Bool.false_ne_true⟩⟩

/-- The call of an operation that may store a document. -/
theorem updating_of_upsertCall {operation : Operation α} {spec : Document}
    {make : CompiledFilter → Document → AnyCall} {call : AnyCall}
    (hmake : ∀ compiled update, UpdateCall repository.collection compiled update true
      (make compiled update))
    (hdeletion : operation.isDeletion = false) (hseed : operation.seedFilter? = some filter)
    (h : repository.updateCall .upsert now filter spec make = some call) :
    ∃ compiled update upsert, repository.Updating now operation compiled update upsert call := by
  obtain ⟨compiled, update, hfilter, hcompile, rfl⟩ := exists_of_updateCall h
  exact ⟨compiled, update, true, hmake compiled update, ⟨filter, hfilter, fun _ => hseed⟩,
    ⟨.upsert, spec, hcompile, hdeletion.symm, by decide, fun _ => rfl⟩⟩

/-- The call of an operation that deletes. -/
theorem updating_of_deletionCall (hdeleted : repository.policy.deleted = true)
    {operation : Operation α} {hide : CompiledFilter → Document → AnyCall}
    {remove : CompiledFilter → AnyCall} {call : AnyCall}
    (hhide : ∀ compiled update, UpdateCall repository.collection compiled update false
      (hide compiled update))
    (hdeletion : operation.isDeletion = true)
    (h : repository.deletionCall now filter hide remove = some call) :
    ∃ compiled update upsert, repository.Updating now operation compiled update upsert call := by
  obtain ⟨compiled, update, hfilter, hcompile, rfl⟩ := exists_of_deletionCall hdeleted h
  exact ⟨compiled, update, false, hhide compiled update,
    ⟨filter, hfilter, fun hup => absurd hup Bool.false_ne_true⟩,
    ⟨.deletion, [], hcompile, hdeletion.symm, by decide,
      fun hup => absurd hup Bool.false_ne_true⟩⟩

/-- **The call of an operation**: it stores a stamped document, or it is an update. -/
theorem writeCall_cases (hdeleted : repository.policy.deleted = true) {operation : Operation α}
    {call : AnyCall} (h : repository.writeCall now operation = some call) :
    (∃ value doc, (operation = .insert value ∨ operation = .create value) ∧
      call = ⟨_, .insertOne repository.collection (repository.policy.stamp now doc)⟩) ∨
    ∃ compiled update upsert, repository.Updating now operation compiled update upsert call := by
  cases operation with
  | insert value =>
    rw [writeCall] at h
    cases hdoc : repository.model.toDocument value with
    | error error => rw [hdoc] at h; cases h
    | ok doc =>
      rw [hdoc] at h
      cases h
      exact Or.inl ⟨value, doc, Or.inl rfl, rfl⟩
  | create value =>
    rw [writeCall] at h
    cases hdoc : repository.model.toDocument value with
    | error error => rw [hdoc] at h; cases h
    | ok doc =>
      rw [hdoc] at h
      cases h
      exact Or.inl ⟨value, doc, Or.inr rfl, rfl⟩
  | findOneOrCreate filter value =>
    rw [writeCall] at h
    cases hdoc : repository.model.toDocument value with
    | error error => rw [hdoc] at h; cases h
    | ok doc =>
      rw [hdoc] at h
      exact Or.inr (updating_of_upsertCall (fun _ _ => .oneRead) rfl rfl h)
  | upsert filter spec =>
    exact Or.inr (updating_of_upsertCall (fun _ _ => .one) rfl rfl h)
  | updateOne filter spec | updateById key spec =>
    exact Or.inr (updating_of_updateCall (fun _ _ => .one) rfl h)
  | findOneAndUpdate filter spec =>
    exact Or.inr (updating_of_updateCall (fun _ _ => .oneRead) rfl h)
  | updateMany filter spec =>
    exact Or.inr (updating_of_updateCall (fun _ _ => .many) rfl h)
  | deleteOne filter | deleteById key =>
    exact Or.inr (updating_of_deletionCall hdeleted (fun _ _ => .one) rfl h)
  | deleteMany filter =>
    exact Or.inr (updating_of_deletionCall hdeleted (fun _ _ => .many) rfl h)
  | _ => cases h

variable [Runtime]

/-- **What an operation does to the store**: nothing, or what its call does. -/
theorem perform_cases (repository : Repository α) (operation : Operation α) (moment : Moment)
    (session : Session) :
    ((repository.perform operation moment session).2.store = session.store ∧
      repository.written operation moment session = []) ∨
    ∃ (call : AnyCall) (reply : call.1.Reply) (store : Store),
      repository.writeCall moment.now operation = some call ∧
      call.2.run moment.now session.store = .ok (reply, store) ∧
      (repository.perform operation moment session).2.store = store ∧
      repository.written operation moment session
        = AnyCall.positions (repository.stored session) call := by
  rw [store_perform, written]
  cases hcall : repository.writeCall moment.now operation with
  | none => exact Or.inl ⟨rfl, rfl⟩
  | some call =>
    obtain ⟨kind, call⟩ := call
    dsimp only
    rw [storeAfter]
    by_cases hlate : moment.latency.exceeds repository.options.timeout = true
    · rw [if_pos hlate, if_pos hlate]
      exact Or.inl ⟨rfl, rfl⟩
    · rw [if_neg hlate, if_neg hlate, Store.answer]
      cases hrun : call.run moment.now session.store with
      | error fault => exact Or.inl ⟨rfl, rfl⟩
      | ok result => exact Or.inr ⟨⟨kind, call⟩, result.1, result.2, rfl, hrun, rfl, rfl⟩

end Repository

end DocStore
