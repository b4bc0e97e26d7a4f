import DocStore.Proofs.Calls
import DocStore.Proofs.OwnedFields

/-! # Keys of stored documents under updates

Nothing sets the key of a document apart from its other fields. An update that names the key writes
it, whether the name comes from the caller's operators or from the document of a value, so a stored
document keeps its key only as long as the update leaves the key alone or assigns the one that is
there. `UpdateSpec.get?_idField_of_compile` says which key a compiled update leaves behind, and
`key_kept_iff_of_perform` says it of every operation that updates. -/

namespace DocStore

namespace Update

/-! ## One assignment among other operators -/

/-- An operator that spares a field, or that concerns new documents alone, keeps the field of a
document that is stored already. -/
theorem get?_operatorApply_of_stored {occasion : Occasion} (hstored : occasion.inserting = false)
    {operator : Operator} {bucket doc doc' : Document} {field : String}
    (h : operator.key = Operator.setOnInsert.key ∨ Spares field operator.key bucket)
    (happly : operator.apply occasion bucket doc = .ok doc') :
    Entries.get? doc' field = Entries.get? doc field := by
  rcases h with hkey | hspares
  · rw [Operator.key_inj hkey, Operator.apply, hstored] at happly
    cases happly
    rfl
  · exact get?_operatorApply hspares happly

/-- **One assignment**: if the bucket of `$set` is the only one that may write a field of a document
that is stored already, the field holds what that bucket writes last, or what it held before. -/
theorem get?_apply_of_set {occasion : Occasion} (hstored : occasion.inserting = false)
    {update set doc doc' : Document} {field : String}
    (h : ∀ operator bucket, (operator, Value.document bucket) ∈ update →
      (operator = Operator.set.key ∧ bucket = set) ∨ operator = Operator.setOnInsert.key ∨
        Spares field operator bucket)
    (happly : apply occasion update doc = .ok doc') :
    ((Operator.set.key, Value.document set) ∈ update →
      Entries.get? doc' field = (Entries.get? set.reverse field).or (Entries.get? doc field)) ∧
    ((Operator.set.key, Value.document set) ∉ update →
      Entries.get? doc' field = Entries.get? doc field) := by
  induction update generalizing doc with
  | nil =>
    cases happly
    exact ⟨fun hmem => absurd hmem List.not_mem_nil, fun _ => rfl⟩
  | cons entry rest ih =>
    obtain ⟨key, operand⟩ := entry
    rw [apply] at happly
    cases hentry : applyEntry occasion key operand doc with
    | error fault => rw [hentry] at happly; cases happly
    | ok next =>
      rw [hentry] at happly
      obtain ⟨hset, hnone⟩ := ih (fun k b hmem => h k b (List.mem_cons_of_mem _ hmem)) happly
      obtain ⟨operator, bucket, rfl, rfl, hoperator⟩ := applyEntry_eq_ok hentry
      by_cases hown : operator = .set ∧ bucket = set
      · -- a second assignment of the same bucket changes nothing
        obtain ⟨rfl, rfl⟩ := hown
        cases hoperator
        rw [Entries.get?_insertAll] at hset hnone
        refine ⟨fun _ => ?_, fun habsent => absurd List.mem_cons_self habsent⟩
        by_cases hmem : (Operator.set.key, Value.document bucket) ∈ rest
        · rw [hset hmem, ← Option.or_assoc, Option.or_self]
        · exact hnone hmem
      · have hkept : Entries.get? next field = Entries.get? doc field := by
          rcases h operator.key bucket List.mem_cons_self with ⟨hkey, hbucket⟩ | hkeeps
          · exact absurd ⟨Operator.key_inj hkey, hbucket⟩ hown
          · exact get?_operatorApply_of_stored hstored hkeeps hoperator
        have hother : (operator.key, Value.document bucket)
            ≠ (Operator.set.key, Value.document set) := by
          rw [Ne, Prod.mk.injEq, Value.document.injEq]
          rintro ⟨hkey, hbucket⟩
          exact hown ⟨Operator.key_inj hkey, hbucket⟩
        rw [hkept] at hset hnone
        refine ⟨fun hmem => hset ?_, fun habsent => hnone ?_⟩
        · exact (List.mem_cons.mp hmem).resolve_left (Ne.symm hother)
        · exact fun hmem => habsent (List.mem_cons_of_mem _ hmem)

end Update

namespace UpdateSpec

open Update (Operator Occasion Spares)

/-! ## Keys under compiled updates -/

/-- The key that an update assigns to stored documents: what its `$set` writes last under the name of
the key. An update of fields is one such assignment. -/
def assignedKey? (spec : Document) : Option Value :=
  match split spec with
  | .ok (set, _) => Entries.get? set.reverse idField
  | .error _ => none

/-- Whether an update writes the key of a stored document by assignment if at all: the other
operators spare it. -/
def OnlySetsKey (spec : Document) : Prop :=
  ∀ set others, split spec = .ok (set, others) →
    ∀ operator bucket, (operator, Value.document bucket) ∈ others →
      operator = Operator.setOnInsert.key ∨ Spares idField operator bucket

/-- No policy keeps the key. -/
theorem owns_idField (policy : Policy) : policy.owns idField = false := by
  obtain ⟨created, modified, deleted⟩ := policy
  cases created <;> cases modified <;> cases deleted <;> decide

/-- Stripping only drops entries. -/
theorem mem_of_mem_strip {policy : Policy} {operator : String} {bucket : Document}
    {entry : String × Value} (h : entry ∈ (strip policy operator bucket).2) : entry ∈ bucket := by
  rw [strip_snd] at h
  split at h
  · exact Entries.mem_of_mem_foldl_remove (List.mem_filter.mp h).1
  · exact Entries.mem_of_mem_foldl_remove h

/-- A bucket that spares a field still does when it is stripped. -/
theorem spares_strip_of_spares {policy : Policy} {field operator : String} {bucket : Document}
    (h : Spares field operator bucket) : Spares field operator (strip policy operator bucket).2 := by
  refine ⟨fun hmem => h.1 ?_, fun hrename entry hmem => h.2 hrename entry (mem_of_mem_strip hmem)⟩
  obtain ⟨entry, hentry, hname⟩ := List.mem_map.mp hmem
  exact List.mem_map.mpr ⟨entry, mem_of_mem_strip hentry, hname⟩

/-- Stripping leaves what is assigned to the key. -/
theorem get?_reverse_strip_set (policy : Policy) (set : Document) :
    Entries.get? (strip policy Operator.set.key set).2.reverse idField
      = Entries.get? set.reverse idField := by
  rw [strip_snd, if_neg (by decide), stripFields, Entries.reverse_foldl_remove,
    Entries.get?_foldl_remove, if_neg]
  intro hmem
  have howns := owns_idField policy
  rw [Policy.owns, List.contains_eq_mem, decide_eq_false_iff_not] at howns
  exact howns (List.mem_filter.mp hmem).1

/-- Moving one operator to the end leaves the others. -/
theorem mem_moveToEnd_of_ne {buckets : Buckets} {operator : Operator} {entry : String × Document}
    (hmem : entry ∈ buckets) (hne : entry.1 ≠ operator.key) (own : Document) :
    entry ∈ moveToEnd buckets operator own := by
  have hkept : entry ∈ Entries.remove buckets operator.key :=
    List.mem_filter.mpr ⟨hmem, by simpa using hne⟩
  rw [moveToEnd]
  split
  · exact hkept
  · exact List.mem_append_left _ hkept

/-- Stamping leaves the operators that carry no stamps. -/
theorem mem_stamped_of_ne {policy : Policy} {context : UpdateContext} {now : DateTime}
    {buckets : Buckets} {entry : String × Document} (hmem : entry ∈ buckets)
    (hdate : entry.1 ≠ Operator.currentDate.key) (hinsert : entry.1 ≠ Operator.setOnInsert.key) :
    entry ∈ stamped policy context now buckets := by
  have hdated : entry ∈ (if policy.isActive then
      moveToEnd buckets .currentDate
        (timeStamps policy context (bucketOf buckets .currentDate))
    else buckets) := by
    split
    · exact mem_moveToEnd_of_ne hmem hdate _
    · exact hmem
  rw [stamped]
  split
  · exact mem_moveToEnd_of_ne hdated hinsert _
  · exact hdated

/-- What stands in a stamped update: what was there, or a bucket with stamps. -/
theorem cases_of_mem_stamped {policy : Policy} {context : UpdateContext} {now : DateTime}
    {buckets : Buckets} {entry : String × Document}
    (h : entry ∈ stamped policy context now buckets) :
    entry ∈ buckets ∨
      (policy.created = true ∧ entry = (Operator.setOnInsert.key,
        Entries.insert (bucketOf buckets .setOnInsert) createdField (.dateTime now))) ∨
      entry = (Operator.currentDate.key,
        timeStamps policy context (bucketOf buckets .currentDate)) := by
  obtain ⟨others, hsub, heq⟩ := exists_stamped_eq policy context now buckets
  rw [heq, List.mem_append, List.mem_append] at h
  rcases h with hold | hdate | hcreation
  · exact Or.inl (hsub entry hold)
  · rw [dateStamps] at hdate
    split at hdate
    · dsimp only at hdate
      split at hdate
      · cases hdate
      · exact Or.inr (Or.inr (List.mem_singleton.mp hdate))
    · cases hdate
  · rw [creationStamps] at hcreation
    split at hcreation
    · rename_i hstamp
      rw [Bool.and_eq_true] at hstamp
      exact Or.inr (Or.inl ⟨hstamp.1, List.mem_singleton.mp hcreation⟩)
    · cases hcreation

/-- What is left of an update that touches the key by assignment if at all: its buckets but that of
`$set` spare the key or concern new documents alone. -/
theorem spares_of_mem_stamped {policy : Policy} {context : UpdateContext} {now : DateTime}
    {buckets : Buckets} {set : Document} (h : ∀ operator bucket, (operator, bucket) ∈ buckets →
      operator = Operator.setOnInsert.key ∨ Spares idField operator bucket)
    {operator : String} {bucket : Document}
    (hmem : (operator, bucket) ∈ stamped policy context now (moveToEnd buckets .set set)) :
    (operator = Operator.set.key ∧ bucket = set) ∨ operator = Operator.setOnInsert.key ∨
      Spares idField operator bucket := by
  have hdate : idField ∉ Entries.keys (bucketOf (moveToEnd buckets .set set) .currentDate) := by
    rw [bucketOf_moveToEnd (by decide), bucketOf]
    cases hget : Entries.get? buckets Operator.currentDate.key with
    | none => exact List.not_mem_nil
    | some dates =>
      rcases h _ _ (Entries.mem_of_get? hget) with hinsert | hspares
      · exact absurd hinsert (by decide)
      · exact hspares.1
  rcases cases_of_mem_stamped hmem with hold | ⟨-, hinsert⟩ | hstamps
  · rcases mem_moveToEnd hold with hother | hset
    · exact Or.inr (h _ _ hother)
    · cases hset
      exact Or.inl ⟨rfl, rfl⟩
  · cases hinsert
    exact Or.inr (Or.inl rfl)
  · cases hstamps
    exact Or.inr (Or.inr ⟨not_mem_keys_timeStamps (owns_idField policy) context hdate,
      fun hrename => absurd hrename (by decide)⟩)

/-- An assignment that is not empty stands in the stamped update. -/
theorem set_mem_stamped (policy : Policy) (context : UpdateContext) (now : DateTime)
    (buckets : Buckets) {set : Document} (h : set ≠ []) :
    (Operator.set.key, set) ∈ stamped policy context now (moveToEnd buckets .set set) := by
  have hlast : (Operator.set.key, set) ∈ moveToEnd buckets .set set := by
    rw [moveToEnd, if_neg (by simpa using h)]
    exact List.mem_append_right _ List.mem_cons_self
  have hdate : Operator.set.key ≠ Operator.currentDate.key := by decide
  have hinsert : Operator.set.key ≠ Operator.setOnInsert.key := by decide
  exact mem_stamped_of_ne hlast hdate hinsert

/-- **The key after a compiled update** that writes it by assignment if at all: the stored document
has the key that the update assigns, or else the one that it had. -/
theorem get?_idField_of_compile {policy : Policy} {context : UpdateContext} {now : DateTime}
    {spec update : Document} (hcompile : (compile policy context now spec).2 = .ok update)
    (honly : OnlySetsKey spec) {occasion : Occasion} (hstored : occasion.inserting = false)
    {doc doc' : Document} (happly : Update.apply occasion update doc = .ok doc') :
    Entries.get? doc' idField = (assignedKey? spec).or (Entries.get? doc idField) := by
  obtain ⟨set, others, buckets, hsplit, hall, rfl⟩ := exists_parts_of_compile hcompile
  have hassigned : assignedKey? spec
      = Entries.get? (strip policy Operator.set.key set).2.reverse idField := by
    rw [assignedKey?, hsplit, get?_reverse_strip_set]
  generalize hleft : (strip policy Operator.set.key set).2 = left at hassigned happly
  -- what is left of the other operators spares the key or concerns new documents
  have hothers : ∀ operator bucket, (operator, bucket) ∈ buckets →
      operator = Operator.setOnInsert.key ∨ Spares idField operator bucket := by
    intro operator bucket hmem
    obtain ⟨own, hown, rfl⟩ := exists_of_mem_stripAll hall hmem
    exact (honly set others hsplit operator own hown).imp_right spares_strip_of_spares
  have hupdate : ∀ operator bucket, (operator, Value.document bucket) ∈
      toDocument (stamped policy context now (moveToEnd buckets .set left)) →
      (operator = Operator.set.key ∧ bucket = left) ∨ operator = Operator.setOnInsert.key ∨
        Spares idField operator bucket := by
    intro operator bucket hmem
    obtain ⟨entry, hentry, heq⟩ := List.mem_map.mp hmem
    cases heq
    exact spares_of_mem_stamped hothers hentry
  obtain ⟨hset, hnone⟩ := Update.get?_apply_of_set hstored hupdate happly
  rw [hassigned]
  by_cases hempty : left = []
  · -- nothing is left to assign, and an assignment of nothing changes nothing
    subst hempty
    rw [List.reverse_nil, Entries.get?_nil, Option.none_or] at hset ⊢
    by_cases hmem : (Operator.set.key, Value.document []) ∈
        toDocument (stamped policy context now (moveToEnd buckets .set []))
    · exact hset hmem
    · exact hnone hmem
  · exact hset (List.mem_map_of_mem (set_mem_stamped policy context now buckets hempty))

end UpdateSpec

/-! ## Keys under operations -/

section

section Operations

variable {α : Type}

/-- Whether an operation updates what is stored. -/
def Operation.isUpdate : Operation α → Bool
  | .findOneOrCreate _ _ | .upsert _ _ | .updateOne _ _ | .updateById _ _ | .findOneAndUpdate _ _
  | .updateMany _ _ => true
  | _ => false

/-- The update that an operation asks for: the caller's own, or the document of a value. -/
def Operation.spec? (model : Model α) : Operation α → Option Document
  | .findOneOrCreate _ value => (model.toDocument value).toOption
  | .upsert _ spec | .updateOne _ spec | .updateById _ spec | .findOneAndUpdate _ spec
  | .updateMany _ spec => some spec
  | _ => none

variable {repository : Repository α} {operation : Operation α}

namespace Repository

/-- The call of an operation that updates carries its compiled update. -/
theorem exists_update_of_writeCall (hupdate : operation.isUpdate = true) {now : DateTime}
    {call : AnyCall} (h : repository.writeCall now operation = some call) :
    ∃ spec context compiled update upsert, operation.spec? repository.model = some spec ∧
      (UpdateSpec.compile repository.policy context now spec).2 = .ok update ∧
      UpdateCall repository.collection compiled update upsert call := by
  cases operation with
  | findOneOrCreate filter value =>
    rw [writeCall] at h
    cases hdoc : repository.model.toDocument value with
    | error error => rw [hdoc] at h; cases h
    | ok doc =>
      rw [hdoc] at h
      obtain ⟨compiled, update, -, hcompile, rfl⟩ := exists_of_updateCall h
      refine ⟨doc, .upsert, compiled, update, true, ?_, hcompile, .oneRead⟩
      rw [Operation.spec?, hdoc]
      rfl
  | upsert filter spec =>
    obtain ⟨compiled, update, -, hcompile, rfl⟩ := exists_of_updateCall h
    exact ⟨spec, .upsert, compiled, update, true, rfl, hcompile, .one⟩
  | updateOne filter spec | updateById key spec =>
    obtain ⟨compiled, update, -, hcompile, rfl⟩ := exists_of_updateCall h
    exact ⟨spec, .update, compiled, update, false, rfl, hcompile, .one⟩
  | findOneAndUpdate filter spec =>
    obtain ⟨compiled, update, -, hcompile, rfl⟩ := exists_of_updateCall h
    exact ⟨spec, .update, compiled, update, false, rfl, hcompile, .oneRead⟩
  | updateMany filter spec =>
    obtain ⟨compiled, update, -, hcompile, rfl⟩ := exists_of_updateCall h
    exact ⟨spec, .update, compiled, update, false, rfl, hcompile, .many⟩
  | _ => cases hupdate

end Repository

variable [Runtime]

/-- A write keeps every document at its position: it is left as it is, or updated. -/
theorem Collection.Written.getElem? {now : DateTime} {query update : Document}
    {positions : List Nat} {isNew : Document → Prop} {docs docs' : List Document}
    (h : Written now query update positions isNew docs docs') {position : Nat} {doc : Document}
    (hdoc : docs[position]? = some doc) :
    ∃ doc', docs'[position]? = some doc' ∧ (position ∉ positions → doc' = doc) ∧
      (position ∈ positions → updated now update doc = .ok doc') := by
  obtain ⟨kept, hrewritten, hgrown⟩ := h
  -- a document that is stored goes behind all others
  have hgrows : ∀ doc', kept[position]? = some doc' → docs'[position]? = some doc' := by
    intro doc' hkept
    rcases hgrown with rfl | ⟨stored, -, rfl⟩
    · exact hkept
    · obtain ⟨hlt, -⟩ := List.getElem?_eq_some_iff.mp hkept
      rw [List.getElem?_append_left hlt, hkept]
  by_cases hmem : position ∈ positions
  · obtain ⟨found, doc', hfound, -, hupdate, hdoc'⟩ := hrewritten.written position hmem
    rw [hdoc, Option.some.injEq] at hfound
    subst hfound
    exact ⟨doc', hgrows doc' hdoc', fun hnot => absurd hmem hnot, fun _ => hupdate⟩
  · exact ⟨doc, hgrows doc ((hrewritten.kept position hmem).trans hdoc), fun _ => rfl,
      fun hin => absurd hin hmem⟩

/-- **Which documents keep their keys** under an operation that updates, whatever the policy, the
filter and the store are. Every document stays at its position, and one that the operation does not
write stays as it is. One that it writes, by an update that touches the key by assignment if at all,
keeps its key if and only if the update assigns no other. -/
theorem key_kept_iff_of_perform (hupdate : operation.isUpdate = true) (moment : Moment)
    (session : Session) {position : Nat} {doc : Document}
    (hdoc : (repository.stored session)[position]? = some doc) :
    ∃ doc' : Document,
      (repository.stored (repository.perform operation moment session).2)[position]? = some doc' ∧
      (position ∉ repository.written operation moment session → doc' = doc) ∧
      (position ∈ repository.written operation moment session →
        ∀ spec, operation.spec? repository.model = some spec → UpdateSpec.OnlySetsKey spec →
        (Entries.get? doc' idField = Entries.get? doc idField ↔
          ∀ key, UpdateSpec.assignedKey? spec = some key →
            Entries.get? doc idField = some key)) := by
  rcases repository.perform_cases operation moment session with
    ⟨hkept, hwritten⟩ | ⟨call, reply, store, hcall, hrun, hafter, hwritten⟩
  · refine ⟨doc, ?_, fun _ => rfl, fun hmem => ?_⟩
    · rw [Repository.stored, hkept]
      exact hdoc
    · rw [hwritten] at hmem
      exact absurd hmem List.not_mem_nil
  · obtain ⟨spec, context, compiled, update, upsert, hspec, hcompile, hisUpdate⟩ :=
      Repository.exists_update_of_writeCall hupdate hcall
    obtain ⟨doc', hdoc', huntouched, hupdated⟩ := (hisUpdate.written hrun).getElem? hdoc
    rw [hwritten, Repository.stored, hafter]
    refine ⟨doc', hdoc', huntouched, fun hmem own hown honly => ?_⟩
    rw [hspec, Option.some.injEq] at hown
    subst hown
    rw [UpdateSpec.get?_idField_of_compile hcompile honly rfl (hupdated hmem)]
    cases UpdateSpec.assignedKey? spec with
    | none => simp
    | some key => simp [eq_comm]

end Operations

end

/-- An update of fields that repeats the key of the note that it writes: the note has another title
and the same key. -/
theorem key_kept_iff_of_perform_title :
    ∃ (repository : Repository Document) (filter : Filter) (spec : Document) (moment : Moment)
      (session : Session) (doc doc' : Document),
      (repository.stored session)[0]? = some doc ∧
      0 ∈ repository.written (.upsert filter spec) moment session ∧
      UpdateSpec.OnlySetsKey spec ∧ UpdateSpec.assignedKey? spec = some (.int32 1) ∧
      (repository.stored (repository.perform (.upsert filter spec) moment session).2)[0]?
        = some doc' ∧
      Entries.get? doc' idField = Entries.get? doc idField ∧
      Entries.get? doc' "title" = some (.string "b") := by
  let repository : Repository Document :=
    ⟨.raw "Note" "notes" [], ⟨"Note", [("title", ⟨"title", .string⟩)]⟩, {}⟩
  let filter : Filter := { condition := .field "title" (.eq (.string "a")) }
  let spec : Document := [("_id", .int32 1), ("title", .string "b")]
  let doc : Document := [("_id", .int32 1), ("title", .string "a")]
  let session : Session := ⟨⟨[("notes", [doc])], .ofSource ⟨0, 0, 0⟩⟩, [], []⟩
  have hdoc : (repository.stored session)[0]? = some doc := rfl
  have hwritten : 0 ∈ repository.written (.upsert filter spec) ⟨⟨2000⟩, ⟨0, 0⟩⟩ session :=
    List.mem_singleton.mpr rfl
  have honly : UpdateSpec.OnlySetsKey spec := by
    intro set others hsplit operator bucket hmem
    cases hsplit
    cases hmem
  have hupdate : (.upsert filter spec : Operation Document).isUpdate = true := rfl
  obtain ⟨doc', hdoc', -, hkey⟩ :=
    key_kept_iff_of_perform hupdate ⟨⟨2000⟩, ⟨0, 0⟩⟩ session hdoc
  have hsame := (hkey hwritten spec rfl honly).mpr fun key hassigned => hassigned
  refine ⟨repository, filter, spec, _, session, doc, doc', hdoc, hwritten, honly, rfl, hdoc', hsame, ?_⟩
  cases hdoc'
  rfl

/-- A value that comes with a key is written over the note that a filter selects, and the note has
that key afterwards. -/
theorem key_changes_under_findOneOrCreate :
    ∃ (repository : Repository Document) (filter : Filter) (value : Document) (moment : Moment)
      (session : Session) (doc doc' : Document),
      (repository.stored session)[0]? = some doc ∧
      (repository.stored
        (repository.perform (.findOneOrCreate filter value) moment session).2)[0]? = some doc' ∧
      Entries.get? doc' idField ≠ Entries.get? doc idField := by
  let repository : Repository Document :=
    ⟨.raw "Note" "notes" [], ⟨"Note", [("title", ⟨"title", .string⟩)]⟩, {}⟩
  let filter : Filter := { condition := .field "title" (.eq (.string "a")) }
  let value : Document := [("_id", .int32 2), ("title", .string "a")]
  let doc : Document := [("_id", .int32 1), ("title", .string "a")]
  let session : Session := ⟨⟨[("notes", [doc])], .ofSource ⟨0, 0, 0⟩⟩, [], []⟩
  refine ⟨repository, filter, value, ⟨⟨2000⟩, ⟨0, 0⟩⟩, session, doc, value, rfl, rfl, ?_⟩
  simp [value, doc, idField, Entries.get?]

end DocStore
