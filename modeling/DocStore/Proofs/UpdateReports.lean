import DocStore.Proofs.CompiledBuckets
import DocStore.Proofs.Sameness

/-! # What compiling an update refuses, keeps and reports

An update is refused if it has fields beside operators, else if an operator has an operand that is
no bucket, else if nothing is left to do. Of any other update the caller's own entries are kept, and
every other entry is **dropped**: it stands under a field that the policy keeps, or renames a field
to one. Compilation looks for dropped entries field by field of the policy and not entry by entry of
the update, but its warnings are the dropped entries all the same, each of them once
(`UpdateSpec.subjects_of_compile`). -/

namespace DocStore

/-- **What a warning is about**: an operator, and the field of an entry in its bucket. -/
def UpdateWarning.subject : UpdateWarning → String × String
  | .managedField field operator => (operator, field)
  | .managedRename source => (Update.Operator.rename.key, source)

/-- The wording of a warning names the field. -/
theorem UpdateWarning.exists_message_eq (warning : UpdateWarning) :
    ∃ before after : String, warning.message = before ++ warning.subject.2 ++ after := by
  cases warning with
  | managedField field operator =>
    refine ⟨"ignoring caller write to ", " in " ++ (operator ++ "; the repository manages it"), ?_⟩
    rw [← String.append_assoc, ← String.append_assoc]
    rfl
  | managedRename source =>
    exact ⟨"ignoring rename of ", " onto a managed field", rfl⟩

/-- A policy keeps no field twice. -/
theorem Policy.nodup_ownedFields (policy : Policy) : policy.ownedFields.Nodup := by
  obtain ⟨created, modified, deleted⟩ := policy
  cases created <;> cases modified <;> cases deleted <;> decide

namespace UpdateSpec

open Update (Operator)

variable {policy : Policy} {context : UpdateContext} {now : DateTime}

/-- Whether no bucket repeats a field. -/
def FieldsOnce (update : Document) : Prop :=
  ∀ operator bucket, (operator, Value.document bucket) ∈ update → (Entries.keys bucket).Nodup

theorem FieldsOnce.tail {entry : String × Value} {rest : Document}
    (h : FieldsOnce (entry :: rest)) : FieldsOnce rest :=
  fun operator bucket hmem => h operator bucket (List.mem_cons_of_mem _ hmem)

/-- A well-formed update repeats no field in a bucket. -/
theorem fieldsOnce_operatorForm {spec : Document} (h : Value.WellFormed (.document spec)) :
    FieldsOnce (operatorForm spec) := by
  intro operator bucket hmem
  rw [operatorForm] at hmem
  split at hmem
  · cases List.mem_singleton.mp hmem
    exact h.1
  · have hbucket := Value.wellFormed_of_mem h.2 hmem
    exact hbucket.1

/-! ## Dropped entries -/

/-- The entries that are dropped from the bucket of an operator. -/
def droppedFrom (policy : Policy) (operator : String) (bucket : Document) :
    List (String × String) :=
  (bucket.filter fun entry => !isCallers policy operator entry).map fun entry => (operator, entry.1)

/-- **The dropped entries** of an update, each by its operator and its field. -/
def dropped (policy : Policy) (update : Document) : List (String × String) :=
  update.flatMap fun entry =>
    match entry.2 with
    | .document bucket => droppedFrom policy entry.1 bucket
    | _ => []

theorem dropped_cons (policy : Policy) (operator : String) (bucket rest : Document) :
    dropped policy ((operator, .document bucket) :: rest)
      = droppedFrom policy operator bucket ++ dropped policy rest :=
  List.flatMap_cons

theorem mem_droppedFrom {operator : String} {bucket : Document} {subject : String × String} :
    subject ∈ droppedFrom policy operator bucket ↔
      ∃ entry ∈ bucket, isCallers policy operator entry = false ∧
        (operator, entry.1) = subject := by
  simp [droppedFrom, and_assoc]

theorem mem_dropped {update : Document} (hnodup : (Entries.keys update).Nodup)
    {subject : String × String} :
    subject ∈ dropped policy update ↔ ∃ entry ∈ bucketAt update subject.1,
      isCallers policy subject.1 entry = false ∧ entry.1 = subject.2 := by
  obtain ⟨operator, field⟩ := subject
  rw [dropped, List.mem_flatMap]
  constructor
  · rintro ⟨⟨key, operand⟩, hmem, hdropped⟩
    cases operand with
    | document bucket =>
      obtain ⟨entry, hentry, hforeign, hsubject⟩ := mem_droppedFrom.mp hdropped
      cases hsubject
      rw [bucketAt_of_get? (Entries.get?_of_mem hnodup hmem)]
      exact ⟨entry, hentry, hforeign, rfl⟩
    | _ => cases hdropped
  · rintro ⟨entry, hentry, hforeign, rfl⟩
    exact ⟨_, mem_of_bucketAt (List.ne_nil_of_mem hentry),
      mem_droppedFrom.mpr ⟨entry, hentry, hforeign, rfl⟩⟩

/-- No entry is dropped twice. -/
theorem nodup_dropped {update : Document} (hnodup : (Entries.keys update).Nodup)
    (hbuckets : FieldsOnce update) : (dropped policy update).Nodup := by
  induction update with
  | nil => exact List.nodup_nil
  | cons entry rest ih =>
    obtain ⟨operator, operand⟩ := entry
    rw [Entries.keys_cons, List.nodup_cons] at hnodup
    have hrest := ih hnodup.2 hbuckets.tail
    cases operand with
    | document bucket =>
      rw [dropped_cons]
      refine List.Nodup.append ?_ hrest fun subject hfirst hlater => ?_
      · have hkeys := hbuckets operator bucket List.mem_cons_self
        have hsome : ((bucket.filter fun entry => !isCallers policy operator entry).map
            Prod.fst).Nodup := hkeys.sublist (List.filter_sublist.map Prod.fst)
        -- within a bucket the fields tell the entries apart
        refine List.Nodup.of_map Prod.snd ?_
        rwa [droppedFrom, List.map_map]
      · -- entries of one operator and of the others differ in the operator
        obtain ⟨entry, -, -, rfl⟩ := mem_droppedFrom.mp hfirst
        obtain ⟨other, hother, -⟩ := (mem_dropped hnodup.2).mp hlater
        exact hnodup.1 (List.mem_map.mpr ⟨_, mem_of_bucketAt (List.ne_nil_of_mem hother), rfl⟩)
    | _ => exact hrest

/-! ## Warnings -/

/-- The warnings of stripping. -/
theorem strip_fst (policy : Policy) (operator : String) (bucket : Document) :
    (strip policy operator bucket).1
      = (stripFields policy operator bucket).1 ++
        if operator = Operator.rename.key then
          (stripRenames policy (stripFields policy operator bucket).2).1
        else [] := by
  rw [strip]
  by_cases h : operator = Operator.rename.key
  · simp only [if_pos h]
  · simp only [if_neg h, List.append_nil]

/-- The fields of the policy that a bucket holds are warned of, each once. -/
theorem subjects_stripFields {bucket : Document} (hnodup : (Entries.keys bucket).Nodup)
    (operator : String) :
    ((stripFields policy operator bucket).1.map UpdateWarning.subject).Perm
      ((bucket.filter fun entry => policy.owns entry.1).map fun entry => (operator, entry.1)) := by
  have hfields : (policy.ownedFields.filter fun field => Entries.contains bucket field).Perm
      ((bucket.filter fun entry => policy.owns entry.1).map Prod.fst) := by
    -- the same fields, read off the policy or off the bucket
    refine (List.perm_ext_iff_of_nodup (policy.nodup_ownedFields.filter _)
      (hnodup.sublist (List.filter_sublist.map Prod.fst))).mpr fun field => ?_
    rw [List.mem_filter, Entries.contains_iff, Entries.keys, List.mem_map, List.mem_map]
    simp only [List.mem_filter, Policy.owns, List.contains_eq_mem, decide_eq_true_eq]
    constructor
    · rintro ⟨howned, entry, hentry, rfl⟩
      exact ⟨entry, ⟨hentry, howned⟩, rfl⟩
    · rintro ⟨entry, ⟨hentry, howned⟩, rfl⟩
      exact ⟨howned, entry, hentry, rfl⟩
  have hsubjects := hfields.map fun field => (operator, field)
  rw [List.map_map] at hsubjects
  rw [stripFields, List.map_map]
  exact hsubjects

/-- **Stripping warns of what it drops**, and of nothing else. -/
theorem subjects_strip {bucket : Document} (hnodup : (Entries.keys bucket).Nodup)
    (operator : String) :
    ((strip policy operator bucket).1.map UpdateWarning.subject).Perm
      (droppedFrom policy operator bucket) := by
  -- an entry is dropped for its own field, or else for the field that it renames to
  have hparts := (List.filter_append_perm (fun entry => policy.owns entry.1)
    (bucket.filter fun entry => !isCallers policy operator entry)).map
      fun entry : String × Value => (operator, entry.1)
  rw [List.filter_filter, List.filter_filter, List.map_append] at hparts
  have hfields : (bucket.filter fun entry =>
      policy.owns entry.1 && !isCallers policy operator entry)
        = bucket.filter fun entry => policy.owns entry.1 := by
    refine List.filter_congr fun entry _ => ?_
    rw [isCallers]
    cases policy.owns entry.1 <;> simp
  rw [hfields] at hparts
  rw [strip_fst, List.map_append]
  refine ((subjects_stripFields hnodup operator).append (List.Perm.of_eq ?_)).trans hparts
  by_cases hrename : operator = Operator.rename.key
  · rw [if_pos hrename, stripRenames, stripFields_eq_filter]
    dsimp only
    rw [List.filter_filter, List.map_map, hrename]
    refine congrArg _ (List.filter_congr fun entry _ => ?_)
    rw [isCallers, decide_eq_true rfl]
    cases policy.owns entry.1 <;> simp
  · rw [if_neg hrename]
    refine (List.map_eq_nil_iff.mpr (List.filter_eq_nil_iff.mpr fun entry _ => ?_)).symm
    rw [isCallers, decide_eq_false hrename]
    cases policy.owns entry.1 <;> simp

/-- The warnings of several operators, none of which is malformed. -/
theorem subjects_stripAll {update : Document} (hformed : malformed update = [])
    (hbuckets : FieldsOnce update) :
    ((stripAll policy update).1.map UpdateWarning.subject).Perm (dropped policy update) := by
  induction update with
  | nil => exact List.Perm.nil
  | cons entry rest ih =>
    obtain ⟨operator, operand⟩ := entry
    cases operand with
    | document bucket =>
      rw [stripAll, dropped_cons, List.map_append]
      exact (subjects_strip (hbuckets operator bucket List.mem_cons_self) operator).append
        (ih hformed hbuckets.tail)
    | _ => cases hformed

/-- **The warnings of a compilation** are about the dropped entries, each once. -/
theorem subjects_of_compile {spec : Document} (h : Value.WellFormed (.document spec))
    (hmixed : ¬ IsMixed spec) (hformed : malformed (operatorForm spec) = []) :
    ((compile policy context now spec).1.map UpdateWarning.subject).Perm
      (dropped policy (operatorForm spec)) := by
  have hset : Operator.set.key ∉ malformed (operatorForm spec) := by
    rw [hformed]
    exact List.not_mem_nil
  have hbuckets := fieldsOnce_operatorForm h
  have hwarnings : (compile policy context now spec).1
      = (strip policy Operator.set.key (bucketAt (operatorForm spec) Operator.set.key)).1
        ++ (stripAll policy (Entries.remove (operatorForm spec) Operator.set.key)).1 := by
    rw [compile, split_eq hmixed hset]
  have hothers := (malformed_remove hset).trans hformed
  rw [hwarnings, List.map_append]
  rcases perm_or_eq_remove (nodup_keys_operatorForm h.1) hset with hperm | ⟨hnone, hform⟩
  · -- the parts make up the update, so their dropped entries are the ones of the update
    have hall : FieldsOnce ((Operator.set.key,
          .document (bucketAt (operatorForm spec) Operator.set.key))
        :: Entries.remove (operatorForm spec) Operator.set.key) :=
      fun operator bucket hmem => hbuckets operator bucket (hperm.mem_iff.mpr hmem)
    have hdropped : (dropped policy (operatorForm spec)).Perm
        (droppedFrom policy Operator.set.key (bucketAt (operatorForm spec) Operator.set.key)
          ++ dropped policy (Entries.remove (operatorForm spec) Operator.set.key)) := by
      rw [← dropped_cons]
      exact hperm.flatMap_right _
    exact ((subjects_strip (hall _ _ List.mem_cons_self) _).append
      (subjects_stripAll hothers hall.tail)).trans hdropped.symm
  · rw [hform] at hothers
    have hempty : (Entries.keys ([] : Document)).Nodup := List.nodup_nil
    rw [hnone, hform]
    exact (subjects_strip hempty _).append (subjects_stripAll hothers hbuckets)

/-! ## What is refused -/

/-- **An update has nothing to do** if no entry of it is the caller's own and the policy stamps
nothing. -/
def IsIdle (policy : Policy) (context : UpdateContext) (spec : Document) : Prop :=
  (∀ operator, ownEntries policy spec operator = []) ∧ hasStamps policy context = false

/-- **The updates that are refused**, by their faults; every other one is compiled. -/
theorem refusals_of_compile (policy : Policy) (context : UpdateContext) (now : DateTime)
    {spec : Document} (hnodup : (Entries.keys spec).Nodup) :
    ((compile policy context now spec).2 = .error .mixedUpdate ↔ IsMixed spec) ∧
    (∀ operator, (compile policy context now spec).2 = .error (.invalidUpdate operator) ↔
      ¬ IsMixed spec ∧ firstMalformed? (operatorForm spec) = some operator) ∧
    ((compile policy context now spec).2 = .error .emptyUpdate ↔
      ¬ IsMixed spec ∧ malformed (operatorForm spec) = [] ∧ IsIdle policy context spec) ∧
    ((∃ update, (compile policy context now spec).2 = .ok update) ↔
      ¬ IsMixed spec ∧ malformed (operatorForm spec) = [] ∧ ¬ IsIdle policy context spec) := by
  rcases compile_cases policy context now hnodup with
    ⟨hmixed, hmix⟩ | ⟨hmixed, operator, hfirst, hinvalid⟩ |
      ⟨hmixed, hformed, buckets, htabulates, hfinish⟩
  · simp [hmix, hmixed]
  · have hsome : malformed (operatorForm spec) ≠ [] := fun hnone => by
      rw [firstMalformed?_eq_none_iff.mpr hnone] at hfirst
      cases hfirst
    simp [hinvalid, hmixed, hfirst, hsome]
  · have hnone := firstMalformed?_eq_none_iff.mpr hformed
    have hidle : buckets.isEmpty = true ↔ IsIdle policy context spec := by
      simp only [htabulates.isEmpty_iff, List.append_eq_nil_iff, forall_and,
        stampEntries_eq_nil_iff, IsIdle]
    rw [finish] at hfinish
    by_cases hempty : buckets.isEmpty = true
    · rw [if_pos hempty] at hfinish
      simp [hfinish, hmixed, hformed, hnone, hidle.mp hempty]
    · rw [if_neg hempty] at hfinish
      simp [hfinish, hmixed, hformed, hnone, mt hidle.mpr hempty]

/-! ## What a compiled update is -/

/-- **A compiled update**: operators with buckets that hold the caller's own entries, as they stand
in the bucket of the caller, and behind them the stamps of the policy. -/
structure IsCompiled (policy : Policy) (context : UpdateContext) (now : DateTime)
    (spec update : Document) : Prop where
  /-- No operator stands there twice. -/
  nodup : (Entries.keys update).Nodup
  /-- There are only operators. -/
  isOperator : ∀ operator ∈ Entries.keys update, isOperator operator = true
  /-- Every operand is a bucket that holds something. -/
  bucket : ∀ operator operand, (operator, operand) ∈ update →
    ∃ bucket, operand = .document bucket ∧ bucket ≠ []
  /-- What the buckets hold. -/
  bucketAt : ∀ operator, bucketAt update operator
    = ownEntries policy spec operator ++ stampEntries policy context now operator

/-- **Warnings report what is dropped** from the buckets of the caller: an entry that is not the
caller's own by exactly one of them, which names its field, and no other entry by any. -/
structure ReportsDropped (policy : Policy) (spec : Document) (warnings : List UpdateWarning) :
    Prop where
  /-- How often an entry is reported. -/
  count : ∀ operator, ∀ entry ∈ bucketAt (operatorForm spec) operator,
    (warnings.map UpdateWarning.subject).count (operator, entry.1)
      = if isCallers policy operator entry then 0 else 1
  /-- What a warning reports. -/
  reported : ∀ warning ∈ warnings,
    ∃ entry ∈ bucketAt (operatorForm spec) warning.subject.1,
      isCallers policy warning.subject.1 entry = false ∧ entry.1 = warning.subject.2 ∧
        ∃ before after : String, warning.message = before ++ entry.1 ++ after

/-- Stamps stand under operators. -/
theorem isOperator_of_stampEntries {operator : String}
    (h : stampEntries policy context now operator ≠ []) : isOperator operator = true := by
  by_cases hdate : operator = Operator.currentDate.key
  · rw [hdate]
    decide
  · by_cases hinsert : operator = Operator.setOnInsert.key
    · rw [hinsert]
      decide
    · rw [stampEntries, dateEntries, if_neg hdate, creationEntries,
        if_neg fun hall => hinsert hall.1] at h
      exact absurd rfl h

theorem isCompiled_of_compile {spec update : Document} (hnodup : (Entries.keys spec).Nodup)
    (h : (compile policy context now spec).2 = .ok update) :
    IsCompiled policy context now spec update := by
  obtain ⟨hmixed, buckets, rfl, htabulates⟩ := exists_tabulates_of_compile hnodup h
  refine ⟨keys_toDocument buckets ▸ htabulates.nodup, fun operator hmem => ?_,
    fun operator operand hmem => ?_, htabulates.bucketAt_toDocument⟩
  · -- the operator is one of the caller's, or else it is there for a stamp
    obtain ⟨⟨key, operand⟩, hentry, rfl⟩ := List.mem_map.mp hmem
    have hsome := (htabulates.mem_toDocument_iff.mp hentry).1
    by_cases hown : ownEntries policy spec key = []
    · rw [hown, List.nil_append] at hsome
      exact isOperator_of_stampEntries hsome
    · have hbucket : bucketAt (operatorForm spec) key ≠ [] := fun hnone => by
        rw [ownEntries, hnone] at hown
        exact hown rfl
      exact isOperator_of_mem_operatorForm hmixed
        (List.mem_map.mpr ⟨_, mem_of_bucketAt hbucket, rfl⟩)
  · obtain ⟨hsome, hoperand⟩ := htabulates.mem_toDocument_iff.mp hmem
    exact ⟨_, hoperand, hsome⟩

theorem reportsDropped_of_compile {spec : Document} (h : Value.WellFormed (.document spec))
    (hmixed : ¬ IsMixed spec) (hformed : malformed (operatorForm spec) = []) :
    ReportsDropped policy spec (compile policy context now spec).1 := by
  have hkeys := nodup_keys_operatorForm h.1
  have hbuckets := fieldsOnce_operatorForm h
  have hperm : ((compile policy context now spec).1.map UpdateWarning.subject).Perm
      (dropped policy (operatorForm spec)) := subjects_of_compile h hmixed hformed
  refine ⟨fun operator entry hentry => ?_, fun warning hwarning => ?_⟩
  · -- no other entry in the bucket of the operator stands under the field
    have hbucket := hbuckets _ _ (mem_of_bucketAt (List.ne_nil_of_mem hentry))
    have honly : (operator, entry.1) ∈ dropped policy (operatorForm spec) ↔
        isCallers policy operator entry = false := by
      rw [mem_dropped hkeys]
      constructor
      · rintro ⟨other, hother, hforeign, hname⟩
        rwa [← List.inj_on_of_nodup_map hbucket hother hentry hname]
      · intro hforeign
        exact ⟨entry, hentry, hforeign, rfl⟩
    rw [hperm.count_eq, (nodup_dropped hkeys hbuckets).count, if_congr honly rfl rfl]
    cases isCallers policy operator entry <;> rfl
  · have hsubject := hperm.mem_iff.mp (List.mem_map_of_mem hwarning)
    obtain ⟨entry, hentry, hforeign, hname⟩ := (mem_dropped hkeys).mp hsubject
    exact ⟨entry, hentry, hforeign, hname, hname ▸ warning.exists_message_eq⟩

/-- **Compilation of updates**, for every policy, in every context and at any time. An update is
refused as mixed if and only if it has operators and other fields; or else for a malformed operator
if it has one, which is `$set` if that is malformed and otherwise the first; or else as empty if and
only if it has nothing to do. Any other update is compiled: to operators with buckets that hold the
caller's own entries, in their order, and the stamps. Of the entries that are dropped each is
reported by exactly one warning, which names its field, and no warning reports an entry that is
kept. -/
theorem compile_refuses_keeps_reports (policy : Policy) (context : UpdateContext) (now : DateTime)
    {spec : Document} (h : Value.WellFormed (.document spec)) :
    ((compile policy context now spec).2 = .error .mixedUpdate ↔ IsMixed spec) ∧
    (∀ operator, (compile policy context now spec).2 = .error (.invalidUpdate operator) ↔
      ¬ IsMixed spec ∧ firstMalformed? (operatorForm spec) = some operator) ∧
    ((compile policy context now spec).2 = .error .emptyUpdate ↔
      ¬ IsMixed spec ∧ malformed (operatorForm spec) = [] ∧ IsIdle policy context spec) ∧
    ((∃ update, (compile policy context now spec).2 = .ok update) ↔
      ¬ IsMixed spec ∧ malformed (operatorForm spec) = [] ∧ ¬ IsIdle policy context spec) ∧
    (∀ update, (compile policy context now spec).2 = .ok update →
      IsCompiled policy context now spec update) ∧
    (¬ IsMixed spec → malformed (operatorForm spec) = [] →
      ReportsDropped policy spec (compile policy context now spec).1) := by
  obtain ⟨hmixed, hinvalid, hempty, hcompiled⟩ := refusals_of_compile policy context now h.1
  exact ⟨hmixed, hinvalid, hempty, hcompiled, fun _ => isCompiled_of_compile h.1,
    reportsDropped_of_compile h⟩

/-- A caller who writes lifecycle fields and moves other fields onto them and away from them: what
is left of the update is the caller's own, the stamps come behind it, and each entry that is dropped
is reported once. With a `$set` that is no document it would be refused. -/
theorem compile_refuses_keeps_reports_forged :
    ∃ spec : Document,
      spec = [("$rename", .document [("title", .string "headline"), ("draft", .string "modified"),
          ("created", .string "deleted")]),
        ("$setOnInsert", .document [("author", .string "ann"), ("created", .null)]),
        ("$unset", .document [("deleted", .null)]), ("$inc", .document [("views", .int32 1)])] ∧
      IsCompiled ⟨true, true, true⟩ .upsert ⟨1000⟩ spec
        [("$rename", .document [("title", .string "headline")]),
          ("$inc", .document [("views", .int32 1)]),
          ("$currentDate", .document [("modified", .bool true)]),
          ("$setOnInsert", .document [("author", .string "ann"), ("created", .dateTime ⟨1000⟩)])] ∧
      ReportsDropped ⟨true, true, true⟩ spec
        [.managedField "created" "$rename", .managedRename "draft",
          .managedField "created" "$setOnInsert", .managedField "deleted" "$unset"] ∧
      (compile ⟨true, true, true⟩ .upsert ⟨1000⟩ (spec ++ [("$set", .null)])).2
        = .error (.invalidUpdate "$set") := by
  let spec : Document := [("$rename", .document [("title", .string "headline"),
      ("draft", .string "modified"), ("created", .string "deleted")]),
    ("$setOnInsert", .document [("author", .string "ann"), ("created", .null)]),
    ("$unset", .document [("deleted", .null)]), ("$inc", .document [("views", .int32 1)])]
  have hformed : Value.WellFormed (.document spec) := by
    simp [spec, Value.WellFormed, Value.WellFormedFields]
  have hmalformed : Value.WellFormed (.document (spec ++ [("$set", .null)])) := by
    simp [spec, Value.WellFormed, Value.WellFormedFields]
  obtain ⟨-, -, -, -, hcompiled, hreports⟩ :=
    compile_refuses_keeps_reports ⟨true, true, true⟩ .upsert ⟨1000⟩ hformed
  obtain ⟨-, hinvalid, -⟩ :=
    compile_refuses_keeps_reports ⟨true, true, true⟩ .upsert ⟨1000⟩ hmalformed
  have hmixed : ¬ IsMixed spec := by decide
  have hmixed' : ¬ IsMixed (spec ++ [("$set", .null)]) := by decide
  have hnone : malformed (operatorForm spec) = [] := by decide
  have hset : firstMalformed? (operatorForm (spec ++ [("$set", .null)])) = some "$set" := by decide
  have hcompile : compile ⟨true, true, true⟩ .upsert ⟨1000⟩ spec
      = ([.managedField "created" "$rename", .managedRename "draft",
          .managedField "created" "$setOnInsert", .managedField "deleted" "$unset"],
        .ok [("$rename", .document [("title", .string "headline")]),
          ("$inc", .document [("views", .int32 1)]),
          ("$currentDate", .document [("modified", .bool true)]),
          ("$setOnInsert", .document [("author", .string "ann"), ("created", .dateTime ⟨1000⟩)])])
      := rfl
  rw [hcompile] at hcompiled hreports
  exact ⟨spec, rfl, hcompiled _ rfl, hreports hmixed hnone, (hinvalid _).mpr ⟨hmixed', hset⟩⟩

end UpdateSpec

end DocStore
