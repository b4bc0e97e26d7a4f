import DocStore.Proofs.KeyedAccess
import DocStore.Proofs.SchemaTables
import DocStore.Proofs.StoreEffect

/-! # References to the key

Operations that go by a key refer to it by its name, like any other field. In a schema that was built
of declared fields this name always resolves, to the storage name of the field that is declared under
it if there is one, and to the key of documents otherwise (`Schema.resolve_idField`). What such an
operation asks the store for is about that storage name (`Repository.calls_perform_byKey`), so it is
about the key of documents unless a model declares a field of this name that is stored under
another one (`Repository.key_operations_follow_declaration`). -/

namespace DocStore

namespace Schema

/-- **Where the name of the key leads**: to the storage name of the field that is declared under it,
and to the key of documents if there is none. -/
def keyName (fields : List FieldDescriptor) : String :=
  match fields.find? fun field => field.name == idField with
  | some field => field.storageName
  | none => idField

variable {fields : List FieldDescriptor} {schema : Schema} {model : String}

/-- The name of the key leads to the field that is declared under it. -/
theorem keyName_of_mem (h : NamesDiffer fields) {field : FieldDescriptor} (hmem : field ∈ fields)
    (hname : field.name = idField) : keyName fields = field.storageName := by
  rw [keyName]
  cases hfind : fields.find? fun field => field.name == idField with
  | none => exact absurd hname (by simpa using List.find?_eq_none.mp hfind field hmem)
  | some found =>
    have hfound : found.name = idField := by simpa using List.find?_some hfind
    rw [List.inj_on_of_nodup_map h.logical hmem (List.mem_of_find?_eq_some hfind)
      (hname.trans hfound.symm)]

/-- Where no field is declared under it, it leads to the key of documents. -/
theorem keyName_of_forall_ne (h : ∀ field ∈ fields, field.name ≠ idField) :
    keyName fields = idField := by
  have hnone : fields.find? (fun field => field.name == idField) = none :=
    List.find?_eq_none.mpr fun field hmem => by simpa using h field hmem
  rw [keyName, hnone]

/-- The name of the key leads to the key just where no field of that name is stored elsewhere. -/
theorem keyName_eq_idField_iff (h : NamesDiffer fields) :
    keyName fields = idField ↔
      ∀ field ∈ fields, field.name = idField → field.storageName = idField := by
  constructor
  · intro hkey field hmem hname
    rw [← keyName_of_mem h hmem hname, hkey]
  · intro hall
    by_cases hdeclared : ∃ field ∈ fields, field.name = idField
    · obtain ⟨field, hmem, hname⟩ := hdeclared
      rw [keyName_of_mem h hmem hname, hall field hmem hname]
    · exact keyName_of_forall_ne fun field hmem hname => hdeclared ⟨field, hmem, hname⟩

/-- **The name of the key resolves** in every schema, to where it leads. -/
theorem resolve_idField (h : build model fields = .ok schema) :
    ∃ info, schema.resolve idField = .ok info ∧ info.storageName = keyName fields := by
  obtain ⟨-, hdiffer, hschema⟩ := build_eq_ok_iff.mp h
  by_cases hdeclared : ∃ field ∈ fields, field.name = idField
  · obtain ⟨field, hmem, hname⟩ := hdeclared
    refine ⟨infoOf field, ?_, (keyName_of_mem hdiffer hmem hname).symm⟩
    rw [← hname]
    exact resolve_of_mem h hmem (by rw [hname]; decide)
  · have hresolves := (indexes_of_build h).resolves idField (by decide)
    rw [hschema] at hresolves ⊢
    have hnone : ∀ field ∈ fields, field.name ≠ idField :=
      fun field hmem hname => hdeclared ⟨field, hmem, hname⟩
    rw [keyName_of_forall_ne hnone]
    by_cases hstored : ∃ field ∈ fields, field.storageName = idField
    · -- a field of another name is stored as the key, so no entry has the key as its logical name
      obtain ⟨field, hmem, hname⟩ := hstored
      refine ⟨infoOf field, (hresolves _).mpr (Or.inr ⟨?_, field.name, ?_, hname⟩), hname⟩
      · rw [entriesOf, if_pos ⟨field, hmem, Or.inr hname⟩, List.append_nil, keys_map_entryOf,
          List.mem_map]
        rintro ⟨other, hother, hsame⟩
        exact hnone other hother hsame
      · exact List.mem_append_left _ (List.mem_map.mpr ⟨field, hmem, rfl⟩)
    · have hkey : ¬ NamesKey fields := by
        rintro ⟨field, hmem, hname | hname⟩
        · exact hnone field hmem hname
        · exact hstored ⟨field, hmem, hname⟩
      refine ⟨⟨idField, .objectId⟩, (hresolves _).mpr (Or.inl ?_), rfl⟩
      rw [entriesOf, if_neg hkey]
      exact List.mem_append_right _ List.mem_cons_self

end Schema

/-! ## Compiling filters for a key -/

/-- A filter for a key that shows nothing but the key. -/
theorem Filter.compile_hasKey_shown {schema : Schema} {info : FieldInfo}
    (hinfo : schema.resolve idField = .ok info) (key : Value) :
    Filter.compile schema { condition := .hasKey key, fields := [(idField, true)] }
      = .ok ⟨Query.byField info.storageName key,
          { projection := some [(info.storageName, .int32 1)] }⟩ := by
  have hprojection : Filter.compileFields schema true [] [(idField, true)]
      = .ok [(info.storageName, .int32 1)] := by
    rw [Filter.compileFields_cons, hinfo]
    rfl
  have hoptions : Filter.compileOptions schema
      { condition := .hasKey key, fields := [(idField, true)] }
      = .ok { projection := some [(info.storageName, .int32 1)] } := by
    show (Filter.compileFields schema true [] [(idField, true)]).map some >>= _ = _
    rw [hprojection]
    rfl
  rw [Filter.compile]
  dsimp only
  rw [Condition.compile_hasKey hinfo, hoptions]
  rfl

/-- The query for documents that hold a value in a field and match a query of a condition, which is
left out if it is empty. -/
def Query.byFieldAnd (field : String) (value : Value) (condition : Condition) (query : Document) :
    Document :=
  if condition.isEmpty then Query.byField field value
  else [("$and", .array [.document (Query.byField field value), .document query])]

/-- A condition that combines nothing has an empty query. -/
theorem Condition.compile_of_isEmpty {schema : Schema} {condition : Condition}
    (h : condition.isEmpty = true) : condition.compile schema = .ok [] := by
  cases condition with
  | field name operator => cases h
  | and children | or children | nor children =>
    rw [List.isEmpty_iff.mp h]
    rfl

/-- A filter for a key and something else. -/
theorem Filter.compile_hasKey_both {schema : Schema} {info : FieldInfo}
    (hinfo : schema.resolve idField = .ok info) (key : Value) (filter : Filter) :
    Filter.compile schema
        { filter with condition := (Condition.hasKey key).both filter.condition }
      = (filter.compile schema).map fun compiled =>
        { compiled with
          query := Query.byFieldAnd info.storageName key filter.condition compiled.query } := by
  have hoptions : Filter.compileOptions schema
      { filter with condition := (Condition.hasKey key).both filter.condition }
      = filter.compileOptions schema := rfl
  have hkey := Condition.compile_hasKey hinfo key
  rw [Filter.compile, hoptions, Filter.compile]
  dsimp only
  by_cases hempty : filter.condition.isEmpty = true
  · have hboth : (Condition.hasKey key).both filter.condition = .hasKey key := by
      rw [Condition.both, if_pos hempty]
      rfl
    rw [hboth, hkey, Condition.compile_of_isEmpty hempty]
    show (filter.compileOptions schema).bind _ = ((filter.compileOptions schema).bind _).map _
    cases filter.compileOptions schema with
    | error error => rfl
    | ok options =>
      exact congrArg (fun query => Except.ok (CompiledFilter.mk query options)) (if_pos hempty).symm
  · have hboth : (Condition.hasKey key).both filter.condition
        = .and [.hasKey key, filter.condition] := by
      rw [Condition.both, if_neg hempty]
      rfl
    rw [hboth, Condition.compile, Condition.compileAll_cons, hkey, Condition.compileAll_cons]
    cases filter.condition.compile schema with
    | error error => rfl
    | ok query =>
      show (filter.compileOptions schema).bind _ = ((filter.compileOptions schema).bind _).map _
      cases filter.compileOptions schema with
      | error error => rfl
      | ok options =>
        exact congrArg (fun query => Except.ok (CompiledFilter.mk query options))
          (if_neg hempty).symm

/-! ## The calls of an operation -/

/-- Whether an operation goes by a key. -/
def Operation.isByKey {α : Type} : Operation α → Bool
  | .findById _ _ | .deletion _ | .hasKey _ | .updateById _ _ | .deleteById _ => true
  | _ => false

namespace Repository

open DocStore.Action (bind_apply map_apply part_bind)

variable {α : Type} (repository : Repository α)

/-- **The call of an operation that goes by a key**, where keys are stored under a name: it asks for
the documents that hold the key there. There is none if the filter or the update does not compile. -/
def keyCall? (stored : String) (now : DateTime) : Operation α → Option AnyCall
  | .findById key filter =>
    (filter.compile repository.schema).toOption.map fun compiled =>
      ⟨_, .findOne repository.collection (repository.policy.restrict
        (Query.byFieldAnd stored key filter.condition compiled.query)) compiled.options⟩
  | .deletion key => some ⟨_, .findOne repository.collection (Query.byField stored key) {}⟩
  | .hasKey key =>
    some ⟨_, .findOne repository.collection (repository.policy.restrict (Query.byField stored key))
      { projection := some [(stored, .int32 1)] }⟩
  | .updateById key spec =>
    (UpdateSpec.compile repository.policy .update now spec).2.toOption.map fun update =>
      ⟨_, .updateOne repository.collection
        (repository.policy.restrict (Query.byField stored key)) update false⟩
  | .deleteById key =>
    (repository.policy.deletionUpdate now).toOption.map fun update? =>
      match update? with
      | some update => ⟨_, .updateOne repository.collection
          (repository.policy.restrict (Query.byField stored key)) update false⟩
      | none => ⟨_, .deleteOne repository.collection
          (repository.policy.restrict (Query.byField stored key))⟩
  | _ => none

section

variable [Runtime]

/-- A call is written down whether it is carried out or not. -/
theorem calls_call {kind : ReplyKind} (call : Call kind) (moment : Moment) (session : Session) :
    (repository.call call moment session).2.calls = session.calls ++ [⟨kind, call⟩] := by
  rw [Repository.call, Action.call]
  dsimp only
  split <;> rfl

section

variable {repository} {info : FieldInfo} (hinfo : repository.schema.resolve idField = .ok info)
  (key : Value) (moment : Moment) (session : Session)

include hinfo

theorem calls_findById (filter : Filter) :
    (repository.findById key filter moment session).2.calls
      = session.calls
        ++ (repository.keyCall? info.storageName moment.now (.findById key filter)).toList := by
  rw [findById, findOne, bind_apply, compile_apply, restricted, Filter.compile_hasKey_both hinfo,
    keyCall?]
  cases filter.compile repository.schema with
  | error error => exact (List.append_nil _).symm
  | ok compiled =>
    exact (part_bind Session.calls (fun _ _ _ => rfl) moment session).trans
      (repository.calls_call _ moment session)

theorem calls_deletion :
    (repository.deletion key moment session).2.calls
      = session.calls
        ++ (repository.keyCall? info.storageName moment.now (.deletion key)).toList := by
  rw [deletion, bind_apply, compileAll, Action.ofExcept, Filter.compile_hasKey hinfo]
  exact (part_bind Session.calls (fun _ _ _ => rfl) moment session).trans
    (repository.calls_call _ moment session)

theorem calls_hasKey :
    (repository.hasKey key moment session).2.calls
      = session.calls
        ++ (repository.keyCall? info.storageName moment.now (.hasKey key)).toList := by
  rw [hasKey, bind_apply, compile_apply, restricted, Filter.compile_hasKey_shown hinfo]
  exact (part_bind Session.calls (fun _ _ _ => rfl) moment session).trans
    (repository.calls_call _ moment session)

theorem calls_updateById (spec : Document) :
    (repository.updateById key spec moment session).2.calls
      = session.calls
        ++ (repository.keyCall? info.storageName moment.now (.updateById key spec)).toList := by
  rw [updateById, updateOne, bind_apply, compile_apply, restricted, Filter.compile_hasKey hinfo,
    keyCall?]
  dsimp only [Except.map]
  rw [bind_apply, compileUpdate_apply]
  dsimp only
  cases (UpdateSpec.compile repository.policy .update moment.now spec).2 with
  | error error => exact (List.append_nil _).symm
  | ok update =>
    exact (part_bind Session.calls (fun _ _ _ => rfl) moment _).trans
      (repository.calls_call _ moment _)

theorem calls_deleteById :
    (repository.deleteById key moment session).2.calls
      = session.calls
        ++ (repository.keyCall? info.storageName moment.now (.deleteById key)).toList := by
  rw [deleteById, deleteOne, bind_apply, compile_apply, restricted, Filter.compile_hasKey hinfo,
    keyCall?]
  dsimp only [Except.map]
  rw [bind_apply, deletionUpdate_apply]
  cases repository.policy.deletionUpdate moment.now with
  | error error => exact (List.append_nil _).symm
  | ok update? =>
    cases update? with
    | some update =>
      exact (part_bind Session.calls (fun _ _ _ => rfl) moment session).trans
        (repository.calls_call _ moment session)
    | none =>
      exact (part_bind Session.calls (fun _ _ _ => rfl) moment session).trans
        (repository.calls_call _ moment session)

/-- **An operation that goes by a key** makes its call for the storage name that the name of the key
resolves to, and no other. -/
theorem calls_perform_byKey {operation : Operation α} (h : operation.isByKey = true) :
    (repository.perform operation moment session).2.calls
      = session.calls ++ (repository.keyCall? info.storageName moment.now operation).toList := by
  cases operation with
  | findById key filter =>
    rw [perform, map_apply]
    exact calls_findById hinfo key moment session filter
  | deletion key =>
    rw [perform, map_apply]
    exact calls_deletion hinfo key moment session
  | hasKey key =>
    rw [perform, map_apply]
    exact calls_hasKey hinfo key moment session
  | updateById key spec =>
    rw [perform, map_apply]
    exact calls_updateById hinfo key moment session spec
  | deleteById key =>
    rw [perform, map_apply]
    exact calls_deleteById hinfo key moment session
  | _ => cases h

end

/-- **Operations that go by a key follow the declaration of its name.** In every schema that was built
of declared fields the name of the key resolves, and it leads to the key of documents if and only if
no field is declared under it that is stored elsewhere; if one is, it leads to that field. Each
operation that goes by a key makes its call for the storage name that it leads to. -/
theorem key_operations_follow_declaration {model : String} {fields : List FieldDescriptor}
    {schema : Schema} (h : Schema.build model fields = .ok schema) :
    (∃ info, schema.resolve idField = .ok info ∧ info.storageName = Schema.keyName fields) ∧
    (Schema.keyName fields = idField
      ↔ ∀ field ∈ fields, field.name = idField → field.storageName = idField) ∧
    (∀ field ∈ fields, field.name = idField → Schema.keyName fields = field.storageName) ∧
    ∀ (α : Type) (repository : Repository α), repository.schema = schema →
      ∀ operation moment session, operation.isByKey = true →
        (repository.perform operation moment session).2.calls
          = session.calls
            ++ (repository.keyCall? (Schema.keyName fields) moment.now operation).toList := by
  obtain ⟨-, hdiffer, -⟩ := Schema.build_eq_ok_iff.mp h
  obtain ⟨info, hinfo, hname⟩ := Schema.resolve_idField h
  refine ⟨⟨info, hinfo, hname⟩, Schema.keyName_eq_idField_iff hdiffer,
    fun field hmem hdeclared => Schema.keyName_of_mem hdiffer hmem hdeclared, ?_⟩
  rintro α repository rfl operation moment session hoperation
  rw [calls_perform_byKey hinfo moment session hoperation, hname]

end

/-- A model declares a field under the name of the key that is stored as `key`. Asking for the key of
a stored document asks for that field, so it is not found; and what is created is stored, but not
read back. -/
theorem key_operations_follow_declaration_redeclared :
    ∃ (fields : List FieldDescriptor) (schema : Schema) (repository : Repository Document)
      (moment : Moment) (session : Session),
      fields = [⟨"_id", "key", "String"⟩] ∧ Schema.build "Tag" fields = .ok schema ∧
      repository.schema = schema ∧ Schema.keyName fields = "key" ∧
      session.store.documents repository.collection = [[("_id", .int32 1), ("key", .string "a")]] ∧
      (repository.perform (.hasKey (.int32 1)) moment session).2.calls
        = [⟨_, .findOne "tags" [("key", .document [("$eq", .int32 1)])]
            { projection := some [("key", .int32 1)] }⟩] ∧
      (repository.hasKey (.int32 1) moment session).1 = .ok false ∧
      (repository.create [("key", .string "b")] moment session).1 = .error .notFound ∧
      ((repository.create [("key", .string "b")] moment session).2.store.documents
        repository.collection).length = 2 := by
  let fields : List FieldDescriptor := [⟨"_id", "key", "String"⟩]
  have hbuild : Schema.build "Tag" fields = .ok ⟨"Tag", Schema.entriesOf fields⟩ :=
    Schema.build_of_namesDiffer "Tag" (List.cons_ne_nil _ _) ⟨by decide, by decide⟩
  obtain ⟨-, -, hname, hcalls⟩ := key_operations_follow_declaration hbuild
  let repository : Repository Document :=
    ⟨.raw "Tag" "tags" fields, ⟨"Tag", Schema.entriesOf fields⟩, {}⟩
  let session : Session :=
    ⟨⟨[("tags", [[("_id", .int32 1), ("key", .string "a")]])], .ofSource ⟨0, 0, 0⟩⟩, [], []⟩
  exact ⟨fields, _, repository, ⟨⟨1000⟩, ⟨0, 0⟩⟩, session, rfl, hbuild, rfl,
    hname _ List.mem_cons_self rfl, rfl,
    hcalls Document repository rfl (.hasKey (.int32 1)) ⟨⟨1000⟩, ⟨0, 0⟩⟩ session rfl, rfl, rfl, rfl⟩

end Repository

end DocStore
