import DocStore.Proofs.FindOrCreate

/-! # Two ways of creating a document

A value becomes a new document if it is inserted, or if it is looked for by a filter that selects
nothing. The insertion writes the fields of the policy over the document of the value; the search
strips them from it, writes what is left over the seed of the filter, and has the operators of an
update put them back. Both come to the same (`Repository.creations_agree`): what a new document
holds is said by `Policy.Newborn`, and all that is left open there is the time of the call, a key
that is given, and the marker in the deletion field, which is null after an insertion and missing
after a search. -/

namespace DocStore

/-! ## New documents -/

/-- **A new document** of a policy: it has the time at which it was stored in both time fields, a
marker in the deletion field, the key of the document that it was made of, or one that it was given,
and everything else that the document held. -/
structure Policy.Newborn (policy : Policy) (now : DateTime) (marker : Option Value) (given : Value)
    (doc stored : Document) : Prop where
  /-- The creation time, if the policy keeps it. -/
  created : policy.created = true → Entries.get? stored createdField = some (.dateTime now)
  /-- The modification time, if the policy keeps it. -/
  modified : policy.modified = true → Entries.get? stored modifiedField = some (.dateTime now)
  /-- The marker, if the policy keeps the deletion field. -/
  deleted : policy.deleted = true → Entries.get? stored deletedField = marker
  /-- The key. -/
  key : Entries.get? stored idField = some ((Entries.get? doc idField).getD given)
  /-- All other fields. -/
  other : ∀ field, policy.owns field = false → field ≠ idField →
    Entries.get? stored field = Entries.get? doc field

namespace Policy

variable {policy : Policy} {now : DateTime} {marker : Option Value} {given : Value}
  {doc stored : Document}

/-- A document with the fields of the policy becomes a new one when it is given a key. -/
theorem newborn_keyed (ids : ObjectId.Supply) {asked : Document}
    (hcreated : policy.created = true → Entries.get? asked createdField = some (.dateTime now))
    (hmodified : policy.modified = true → Entries.get? asked modifiedField = some (.dateTime now))
    (hdeleted : policy.deleted = true → Entries.get? asked deletedField = marker)
    (hother : ∀ field, policy.owns field = false →
      Entries.get? asked field = Entries.get? doc field) :
    policy.Newborn now marker (.objectId ids.peek) doc (Store.keyed ids asked).2.1 where
  created h := (Store.get?_keyed ids asked (by decide)).trans (hcreated h)
  modified h := (Store.get?_keyed ids asked (by decide)).trans (hmodified h)
  deleted h := (Store.get?_keyed ids asked (by decide)).trans (hdeleted h)
  key := by rw [Store.get?_keyed_idField_eq, hother idField (UpdateSpec.owns_idField policy)]
  other field hunowned hne := (Store.get?_keyed ids asked hne).trans (hother field hunowned)

/-- **The fields of a new document** are those of the policy, the key, and those of the document
that it was made of; only the deletion field depends on the marker. -/
theorem Newborn.mem_keys_iff (h : policy.Newborn now marker given doc stored) {field : String}
    (hfield : ¬ (policy.deleted = true ∧ field = deletedField)) :
    field ∈ Entries.keys stored ↔
      policy.owns field = true ∨ field = idField ∨ field ∈ Entries.keys doc := by
  have hpresent : ∀ {value}, Entries.get? stored field = some value →
      field ∈ Entries.keys stored := fun hvalue =>
    List.mem_map_of_mem (Entries.mem_of_get? hvalue)
  cases howns : policy.owns field with
  | true =>
    refine iff_of_true ?_ (Or.inl rfl)
    rcases owns_iff.mp howns with ⟨hcreated, rfl⟩ | ⟨hmodified, rfl⟩ | hdeleted
    · exact hpresent (h.created hcreated)
    · exact hpresent (h.modified hmodified)
    · exact absurd hdeleted hfield
  | false =>
    by_cases hkey : field = idField
    · subst hkey
      exact iff_of_true (hpresent h.key) (Or.inr (Or.inl rfl))
    · rw [← not_iff_not, ← Entries.get?_eq_none_iff, h.other field howns hkey,
        Entries.get?_eq_none_iff]
      simp [hkey]

/-! ## The document of an insertion -/

/-- A stamp reaches no field that the policy does not keep. -/
theorem get?_stamp_of_not_owns {field : String} (hunowned : policy.owns field = false)
    (now : DateTime) (doc : Document) :
    Entries.get? (policy.stamp now doc) field = Entries.get? doc field := by
  obtain ⟨hcreated, hmodified, hdeleted⟩ := owns_eq_false_iff.mp hunowned
  rw [stamp, Entries.get?_insertIf, if_neg hdeleted, Entries.get?_insertIf, if_neg hmodified,
    Entries.get?_insertIf, if_neg hcreated]

/-- **A stamped document** becomes a new one that is not deleted. -/
theorem newborn_stamp (policy : Policy) (now : DateTime) (ids : ObjectId.Supply)
    (doc : Document) :
    policy.Newborn now (some .null) (.objectId ids.peek) doc
      (Store.keyed ids (policy.stamp now doc)).2.1 := by
  refine newborn_keyed ids (fun hcreated => ?_) (fun hmodified => ?_)
    (fun hdeleted => Repository.get?_deletedField_stamp hdeleted now doc)
    (fun field hunowned => get?_stamp_of_not_owns hunowned now doc)
  -- the later stamps are on other fields
  · have hmodified : ¬ (policy.modified = true ∧ createdField = modifiedField) :=
      fun h => absurd h.2 (by decide)
    have hdeleted : ¬ (policy.deleted = true ∧ createdField = deletedField) :=
      fun h => absurd h.2 (by decide)
    rw [stamp, Entries.get?_insertIf, if_neg hdeleted, Entries.get?_insertIf, if_neg hmodified,
      Entries.get?_insertIf, if_pos ⟨hcreated, rfl⟩]
  · have hdeleted : ¬ (policy.deleted = true ∧ modifiedField = deletedField) :=
      fun h => absurd h.2 (by decide)
    rw [stamp, Entries.get?_insertIf, if_neg hdeleted, Entries.get?_insertIf,
      if_pos ⟨hmodified, rfl⟩]

end Policy

/-! ## The document of a search that selects nothing -/

namespace UpdateSpec

open Update (Operator Occasion)

variable {policy : Policy} {now : DateTime} {fields update seed asked : Document}

/-- Writing fields over a document leaves the fields that are not written as they are, as far as the
policy does not keep them. -/
theorem get?_overwrite_of_absent {field : String} (habsent : field ∉ Entries.keys fields)
    (hunowned : policy.owns field = false) (compiledAt : DateTime) (occasion : Occasion)
    (doc : Document) :
    Entries.get? (overwrite policy compiledAt occasion fields doc) field
      = Entries.get? doc field := by
  rw [get?_overwrite_of_not_owns hunowned]
  exact Entries.get?_insertAll_of_absent doc _ fun hmem =>
    habsent ((List.filter_sublist.map Prod.fst).subset hmem)

/-- **A seed that is updated** with the fields of a value becomes a new document without a deletion
field, if it has no fields but those of the value and none that the policy keeps. -/
theorem newborn_of_apply (hplain : ∀ field ∈ Entries.keys fields, isOperator field = false)
    (hnodup : (Entries.keys fields).Nodup)
    (hseed : ∀ field ∈ Entries.keys seed, field ∈ Entries.keys fields ∧ policy.owns field = false)
    (hcompile : (compile policy .upsert now fields).2 = .ok update)
    (happly : Update.apply ⟨now, true⟩ update seed = .ok asked) (ids : ObjectId.Supply) :
    policy.Newborn now none (.objectId ids.peek) fields (Store.keyed ids asked).2.1 := by
  have hasked : overwrite policy now ⟨now, true⟩ fields seed = asked := by
    rw [apply_of_plain hplain hcompile] at happly
    exact Except.ok.inj happly
  refine Policy.newborn_keyed ids (fun hcreated => ?_) (fun hmodified => ?_)
    (fun hdeleted => ?_) (fun field hunowned => ?_)
  · rw [get?_apply_compile hcompile happly (owns_createdField hcreated),
      ownedAfter_createdField hcreated]
    rfl
  · rw [get?_apply_compile hcompile happly (owns_modifiedField hmodified),
      ownedAfter_modifiedField hmodified]
  · -- an upsert does not write the deletion field, and the seed does not have it
    rw [get?_deletedField_of_compile hdeleted rfl hcompile happly, Entries.get?_eq_none_iff]
    intro hmem
    have howns := (hseed deletedField hmem).2
    rw [Policy.owns_deletedField hdeleted] at howns
    cases howns
  · rw [← hasked]
    cases hfield : Entries.get? fields field with
    | some value => exact get?_overwrite hnodup hfield hunowned now ⟨now, true⟩ seed
    | none =>
      -- what the value does not have, the seed does not have either
      rw [Entries.get?_eq_none_iff] at hfield
      rw [get?_overwrite_of_absent hfield hunowned, Entries.get?_eq_none_iff]
      exact fun hmem => hfield (hseed field hmem).1

end UpdateSpec

/-! ## What a repository stores -/

namespace Repository

variable {α : Type} {repository : Repository α} {value : α} {doc : Document}

/-- Whether a filter **seeds within** a document: the fields that its compiled query fixes are
fields of the document, and the policy does not keep them. -/
def SeedsWithin (repository : Repository α) (filter : Filter) (doc : Document) : Prop :=
  ∀ compiled, repository.restricted filter = .ok compiled →
    ∀ field ∈ Entries.keys (Query.seed compiled.query),
      field ∈ Entries.keys doc ∧ repository.policy.owns field = false

section

variable [Runtime]

/-- What an insertion stores is a new document. -/
theorem newborn_of_insert (hdoc : repository.model.toDocument value = .ok doc) {moment : Moment}
    {session : Session} {inserted : Document}
    (hstored : repository.stored (repository.perform (.insert value) moment session).2
      = repository.stored session ++ [inserted]) :
    repository.policy.Newborn moment.now (some .null) (.objectId session.store.ids.peek) doc
      inserted := by
  obtain ⟨call, reply, store, hcall, hrun, hgrown⟩ := exists_call_of_stored hstored
  rw [writeCall, hdoc] at hcall
  cases hcall
  rw [Store.documents_insertOne_keyed hrun] at hgrown
  rw [← List.singleton_inj.mp (List.append_cancel_left hgrown)]
  exact repository.policy.newborn_stamp moment.now session.store.ids doc

/-- What a search that selects nothing stores is a new document. -/
theorem newborn_of_findOneOrCreate (hdoc : repository.model.toDocument value = .ok doc)
    (hplain : ∀ field ∈ Entries.keys doc, isOperator field = false)
    (hnodup : (Entries.keys doc).Nodup) {filter : Filter}
    (hseed : repository.SeedsWithin filter doc) {moment : Moment} {session : Session}
    {created : Document}
    (hstored : repository.stored
        (repository.perform (.findOneOrCreate filter value) moment session).2
      = repository.stored session ++ [created]) :
    repository.policy.Newborn moment.now none (.objectId session.store.ids.peek) doc created := by
  obtain ⟨call, reply, store, hcall, hrun, hgrown⟩ := exists_call_of_stored hstored
  rw [writeCall, hdoc] at hcall
  obtain ⟨compiled, update, hfilter, hcompile, rfl⟩ := exists_of_updateCall hcall
  obtain ⟨position, written, hupserts, -⟩ := Store.upserts_of_findOneAndUpdate hrun
  -- the collection has grown, so no document was replaced
  obtain ⟨asked, hfresh, hadded⟩ := hupserts.exists_asked_of_length_ne (by simp [hgrown])
  rw [hadded] at hgrown
  rw [← List.singleton_inj.mp (List.append_cancel_left hgrown)]
  exact UpdateSpec.newborn_of_apply hplain hnodup (hseed compiled hfilter) hcompile hfresh
    session.store.ids

/-- **The two ways of creating a document agree.** Let the document of a value have fields and no
operators, each of them once, and let the filter of a search fix nothing but fields of it that the
policy does not keep. If an insertion of the value and a search for it each store one document
behind all others, from one store or from two, then both are new documents of it, whatever it says
about the fields of the policy: they have the times of their calls in the time fields, the key of
the value or a given one, and the same in every other field; a deletion field that the policy keeps
is null in the inserted document and missing in the other. So apart from this field, they have the
same fields. -/
theorem creations_agree (hdoc : repository.model.toDocument value = .ok doc)
    (hplain : ∀ field ∈ Entries.keys doc, isOperator field = false)
    (hnodup : (Entries.keys doc).Nodup) {filter : Filter}
    (hseed : repository.SeedsWithin filter doc) {moment moment' : Moment}
    {session session' : Session} {inserted created : Document}
    (hinsert : repository.stored (repository.perform (.insert value) moment session).2
      = repository.stored session ++ [inserted])
    (hcreate : repository.stored
        (repository.perform (.findOneOrCreate filter value) moment' session').2
      = repository.stored session' ++ [created]) :
    repository.policy.Newborn moment.now (some .null) (.objectId session.store.ids.peek) doc
      inserted ∧
    repository.policy.Newborn moment'.now none (.objectId session'.store.ids.peek) doc created ∧
    (∀ field, repository.policy.owns field = false →
      (field = idField → idField ∈ Entries.keys doc) →
      Entries.get? inserted field = Entries.get? created field) ∧
    ∀ field, ¬ (repository.policy.deleted = true ∧ field = deletedField) →
      (field ∈ Entries.keys inserted ↔ field ∈ Entries.keys created) := by
  have hleft := newborn_of_insert hdoc hinsert
  have hright := newborn_of_findOneOrCreate hdoc hplain hnodup hseed hcreate
  refine ⟨hleft, hright, fun field hunowned hkeyed => ?_, fun field hfield =>
    (hleft.mem_keys_iff hfield).trans (hright.mem_keys_iff hfield).symm⟩
  by_cases hkey : field = idField
  · subst hkey
    obtain ⟨key, hget⟩ :=
      Option.isSome_iff_exists.mp ((Entries.contains_iff doc idField).mpr (hkeyed rfl))
    rw [hleft.key, hright.key, hget, Option.getD_some, Option.getD_some]
  · rw [hleft.other field hunowned hkey, hright.other field hunowned hkey]

end

/-- A note that comes with lifecycle fields of its own is created in both ways. -/
theorem creations_agree_note :
    ∃ (repository : Repository Document) (value : Document) (filter : Filter)
      (moment moment' : Moment) (session : Session) (inserted created : Document),
      repository.policy = ⟨true, true, true⟩ ∧
      (∀ field ∈ [createdField, modifiedField, deletedField], field ∈ Entries.keys value) ∧
      repository.stored (repository.perform (.insert value) moment session).2
        = repository.stored session ++ [inserted] ∧
      repository.stored (repository.perform (.findOneOrCreate filter value) moment' session).2
        = repository.stored session ++ [created] ∧
      Entries.get? inserted "title" = Entries.get? created "title" ∧
      (modifiedField ∈ Entries.keys inserted ↔ modifiedField ∈ Entries.keys created) ∧
      Entries.get? inserted deletedField = some .null ∧
      Entries.get? created deletedField = none := by
  let repository : Repository Document :=
    ⟨.raw "Note" "notes" [], ⟨"Note", [("title", ⟨"title", .string⟩)]⟩,
      { policy := ⟨true, true, true⟩ }⟩
  let value : Document :=
    [("deleted", .dateTime ⟨5⟩), ("title", .string "a"), ("created", .string "long ago"),
      ("pages", .int32 3), ("modified", .null)]
  let filter : Filter := { condition := .field "title" (.eq (.string "a")) }
  let moment : Moment := ⟨⟨1000⟩, ⟨0, 0⟩⟩
  let moment' : Moment := ⟨⟨2000⟩, ⟨0, 0⟩⟩
  let session : Session := ⟨⟨[("notes", [[("_id", .int32 0), ("title", .string "b")]])],
    .ofSource ⟨0, 0, 0⟩⟩, [], []⟩
  have hseed : repository.SeedsWithin filter value := by
    intro compiled hcompiled
    cases hcompiled
    decide
  let inserted : Document :=
    [("deleted", .null), ("title", .string "a"), ("created", .dateTime ⟨1000⟩),
      ("pages", .int32 3), ("modified", .dateTime ⟨1000⟩), ("_id", .objectId session.store.ids.peek)]
  have hinsert : repository.stored (repository.perform (.insert value) moment session).2
      = repository.stored session ++ [inserted] := rfl
  have hdoc : repository.model.toDocument value = .ok value := rfl
  have hok : (repository.findOneOrCreate filter value moment' session).1.isOk = true := by
    decide +kernel
  have hlength : (repository.stored
        (repository.findOneOrCreate filter value moment' session).2).length
      ≠ (repository.stored session).length := by decide +kernel
  obtain ⟨result, hresult⟩ := Outcome.exists_of_isOk hok
  obtain ⟨compiled, update, position, written, -, -, hupserts, -⟩ :=
    exists_of_findOneOrCreate hdoc hresult
  obtain ⟨asked, -, hadded⟩ := hupserts.exists_asked_of_length_ne hlength
  have hperform : repository.stored
        (repository.perform (.findOneOrCreate filter value) moment' session).2
      = repository.stored (repository.findOneOrCreate filter value moment' session).2 := by
    rw [perform, Action.map_apply]
  have hcreate := hperform.trans hadded
  obtain ⟨hleft, hright, hsame, hkeys⟩ :=
    creations_agree hdoc (by decide) (by decide) hseed hinsert hcreate
  have hforged : ∀ field ∈ [createdField, modifiedField, deletedField],
      field ∈ Entries.keys value := by decide
  exact ⟨repository, value, filter, moment, moment', session, inserted, _, rfl, hforged, hinsert,
    hcreate, hsame "title" (by decide) (fun h => absurd h (by decide)),
    hkeys modifiedField (fun h => absurd h.2 (by decide)), hleft.deleted rfl, hright.deleted rfl⟩

end Repository

end DocStore
