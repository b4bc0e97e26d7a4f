import DocStore.Proofs.CompiledBuckets

/-! # Paths to lifecycle fields in compiled updates

A store may read a name with a dot as a **path** into a field, so an update can address a lifecycle
field by its name or by a path that leads into it, and either as what an operator writes or as what
`$rename` writes to. Compilation looks for names: of the caller's entries those are left that are on
no name of a lifecycle field (`UpdateSpec.isCallers_iff`), and all that it adds are stamps
(`UpdateSpec.mem_stampEntries_iff`). So apart from the stamps no lifecycle field is addressed by its
name, and one is addressed by a path exactly where the caller does so
(`UpdateSpec.addresses_compiled_iff`). -/

namespace DocStore

/-- Whether a path **leads into** a field that the policy keeps: it begins with the field and a
dot. -/
def Policy.LeadsInto (policy : Policy) (path : String) : Prop :=
  ∃ field ∈ policy.ownedFields, (field.toList ++ ['.']) <+: path.toList

/-- Whether a path **addresses** a field that the policy keeps, by its name or from inside. -/
def Policy.Addresses (policy : Policy) (path : String) : Prop :=
  policy.owns path = true ∨ policy.LeadsInto path

instance (policy : Policy) (path : String) : Decidable (policy.LeadsInto path) :=
  inferInstanceAs (Decidable (∃ field ∈ policy.ownedFields, _))

instance (policy : Policy) (path : String) : Decidable (policy.Addresses path) :=
  inferInstanceAs (Decidable (_ ∨ _))

namespace UpdateSpec

open Update (Operator)

variable {policy : Policy} {context : UpdateContext} {now : DateTime}

/-! ## What an entry of an update names -/

/-- The **paths** that an entry in the bucket of an operator names: where it stands and, to rename
a field, the new name. -/
def paths (operator : String) (entry : String × Value) : List String :=
  match entry.2 with
  | .string target => if operator = Operator.rename.key then [entry.1, target] else [entry.1]
  | _ => [entry.1]

/-- Whether an update holds an entry in the bucket of an operator. -/
def Holds (update : Document) (operator : String) (entry : String × Value) : Prop :=
  ∃ bucket, (operator, .document bucket) ∈ update ∧ entry ∈ bucket

theorem holds_iff_mem_bucketAt {update : Document} (hnodup : (Entries.keys update).Nodup)
    {operator : String} {entry : String × Value} :
    Holds update operator entry ↔ entry ∈ bucketAt update operator := by
  constructor
  · rintro ⟨bucket, hmem, hentry⟩
    rwa [bucketAt_of_get? (Entries.get?_of_mem hnodup hmem)]
  · intro hentry
    exact ⟨_, mem_of_bucketAt (List.ne_nil_of_mem hentry), hentry⟩

/-- **The caller's own entries** are those that name no field of the policy. -/
theorem isCallers_iff {operator : String} {entry : String × Value} :
    isCallers policy operator entry = true ↔
      ∀ path ∈ paths operator entry, policy.owns path = false := by
  obtain ⟨key, operand⟩ := entry
  cases operand with
  | string target => by_cases h : operator = Operator.rename.key <;>
      simp [isCallers, paths, renamesOntoOwned, h]
  | _ => simp [isCallers, paths, renamesOntoOwned]

/-! ## Stamps -/

/-- **The stamps of an update**: what the policy writes to its own fields. -/
inductive IsStamp (policy : Policy) (context : UpdateContext) (now : DateTime) :
    String → String × Value → Prop
  /-- The modification time. -/
  | modified (h : policy.modified = true) :
    IsStamp policy context now Operator.currentDate.key (modifiedField, .bool true)
  /-- The deletion time, by an update that stands for a deletion. -/
  | deleted (h : policy.deleted = true) (hdeletes : context.softDelete = true) :
    IsStamp policy context now Operator.currentDate.key (deletedField, .bool true)
  /-- The creation time, written anew. -/
  | restamped (h : policy.created = true) (hrestamps : context.created = .restamp) :
    IsStamp policy context now Operator.currentDate.key (createdField, .bool true)
  /-- The creation time of a new document. -/
  | inserted (h : policy.created = true) (hinserts : context.created = .onInsert) :
    IsStamp policy context now Operator.setOnInsert.key (createdField, .dateTime now)

theorem mem_stampEntries_iff {operator : String} {entry : String × Value} :
    entry ∈ stampEntries policy context now operator ↔
      IsStamp policy context now operator entry := by
  simp only [stampEntries, dateEntries, creationEntries, timeStamps_nil, List.mem_append,
    List.mem_ite_nil_right, List.mem_singleton, Bool.and_eq_true, decide_eq_true_eq]
  constructor
  · rintro (⟨rfl, (⟨h, rfl⟩ | ⟨⟨h, hdeletes⟩, rfl⟩) | ⟨⟨h, hrestamps⟩, rfl⟩⟩ |
      ⟨⟨rfl, h, hinserts⟩, rfl⟩)
    · exact .modified h
    · exact .deleted h hdeletes
    · exact .restamped h hrestamps
    · exact .inserted h hinserts
  · intro hstamp
    cases hstamp with
    | modified h => exact Or.inl ⟨rfl, Or.inl (Or.inl ⟨h, rfl⟩)⟩
    | deleted h hdeletes => exact Or.inl ⟨rfl, Or.inl (Or.inr ⟨⟨h, hdeletes⟩, rfl⟩)⟩
    | restamped h hrestamps => exact Or.inl ⟨rfl, Or.inr ⟨⟨h, hrestamps⟩, rfl⟩⟩
    | inserted h hinserts => exact Or.inr ⟨⟨rfl, h, hinserts⟩, rfl⟩

/-- A stamp stands under a field of the policy. -/
theorem IsStamp.owns {operator : String} {entry : String × Value}
    (h : IsStamp policy context now operator entry) : policy.owns entry.1 = true := by
  cases h with
  | modified h => exact owns_modifiedField h
  | deleted h => exact Policy.owns_deletedField h
  | restamped h => exact owns_createdField h
  | inserted h => exact owns_createdField h

theorem mem_paths_self (operator : String) (entry : String × Value) :
    entry.1 ∈ paths operator entry := by
  rw [paths]
  split
  · split <;> exact List.mem_cons_self
  · exact List.mem_cons_self

/-! ## Compiled updates -/

/-- **What a compiled update holds**: the entries of the caller that name no field of the policy,
and the stamps. -/
theorem holds_compiled_iff {spec update : Document} (hnodup : (Entries.keys spec).Nodup)
    (h : (compile policy context now spec).2 = .ok update) {operator : String}
    {entry : String × Value} :
    Holds update operator entry ↔
      (Holds (operatorForm spec) operator entry ∧
        ∀ path ∈ paths operator entry, policy.owns path = false) ∨
      IsStamp policy context now operator entry := by
  obtain ⟨-, buckets, rfl, htabulates⟩ := exists_tabulates_of_compile hnodup h
  have hkeys : (Entries.keys (toDocument buckets)).Nodup :=
    keys_toDocument buckets ▸ htabulates.nodup
  rw [holds_iff_mem_bucketAt hkeys, htabulates.bucketAt_toDocument, List.mem_append,
    mem_stampEntries_iff, ownEntries, List.mem_filter, isCallers_iff,
    holds_iff_mem_bucketAt (nodup_keys_operatorForm hnodup)]

/-- **Lifecycle fields in compiled updates**, for every policy, in every context and at any time.
What names a field of the policy in a compiled update is a stamp. What addresses one is a stamp, or
an entry of the caller that names none but leads into one by a path; and every such entry of the
caller is there. So no field of the policy is addressed on behalf of the caller if and only if all
entries of the caller that lead into one also name one. -/
theorem addresses_compiled_iff {spec update : Document} (hnodup : (Entries.keys spec).Nodup)
    (h : (compile policy context now spec).2 = .ok update) :
    (∀ operator entry, Holds update operator entry →
      (∃ path ∈ paths operator entry, policy.owns path = true) →
        IsStamp policy context now operator entry) ∧
    (∀ operator entry,
      Holds update operator entry ∧ (∃ path ∈ paths operator entry, policy.Addresses path) ↔
        IsStamp policy context now operator entry ∨
        Holds (operatorForm spec) operator entry ∧
          (∀ path ∈ paths operator entry, policy.owns path = false) ∧
          ∃ path ∈ paths operator entry, policy.LeadsInto path) ∧
    ((∀ operator entry, Holds update operator entry →
        (∃ path ∈ paths operator entry, policy.Addresses path) →
          IsStamp policy context now operator entry) ↔
      ∀ operator entry, Holds (operatorForm spec) operator entry →
        (∃ path ∈ paths operator entry, policy.LeadsInto path) →
          ∃ path ∈ paths operator entry, policy.owns path = true) := by
  have haddressed : ∀ operator entry,
      Holds update operator entry ∧ (∃ path ∈ paths operator entry, policy.Addresses path) ↔
        IsStamp policy context now operator entry ∨
        Holds (operatorForm spec) operator entry ∧
          (∀ path ∈ paths operator entry, policy.owns path = false) ∧
          ∃ path ∈ paths operator entry, policy.LeadsInto path := by
    intro operator entry
    rw [holds_compiled_iff hnodup h]
    -- what names no field of the policy addresses one only from inside
    constructor
    · rintro ⟨⟨hholds, hnone⟩ | hstamp, path, hpath, haddresses⟩
      · refine Or.inr ⟨hholds, hnone, path, hpath, haddresses.resolve_left ?_⟩
        rw [hnone path hpath]
        exact Bool.false_ne_true
      · exact Or.inl hstamp
    · rintro (hstamp | ⟨hholds, hnone, path, hpath, hleads⟩)
      · exact ⟨Or.inr hstamp, entry.1, mem_paths_self operator entry, Or.inl hstamp.owns⟩
      · exact ⟨Or.inl ⟨hholds, hnone⟩, path, hpath, Or.inr hleads⟩
  refine ⟨fun operator entry hholds hnames => ?_, haddressed,
    fun hall operator entry hholds hleads => ?_,
    fun hall operator entry hholds haddresses => ?_⟩
  · obtain ⟨path, hpath, howns⟩ := hnames
    rcases (holds_compiled_iff hnodup h).mp hholds with ⟨-, hnone⟩ | hstamp
    · rw [hnone path hpath] at howns
      cases howns
    · exact hstamp
  · -- an entry that names no field of the policy would be there, and it is no stamp
    by_contra hnames
    have hnone : ∀ path ∈ paths operator entry, policy.owns path = false := fun path hpath =>
      Bool.eq_false_iff.mpr fun howns => hnames ⟨path, hpath, howns⟩
    obtain ⟨hthere, haddresses⟩ := (haddressed operator entry).mpr (Or.inr ⟨hholds, hnone, hleads⟩)
    exact hnames ⟨entry.1, mem_paths_self operator entry, (hall _ _ hthere haddresses).owns⟩
  · rcases (haddressed operator entry).mp ⟨hholds, haddresses⟩ with hstamp | ⟨hown, hnone, hleads⟩
    · exact hstamp
    · obtain ⟨path, hpath, howns⟩ := hall operator entry hown hleads
      rw [hnone path hpath] at howns
      cases howns

/-- A caller who writes into the deletion field and renames into it: the compiled update of a
deleting policy is what the caller wrote, so it addresses the field and stamps nothing. -/
theorem addresses_compiled_iff_dotted :
    ∃ spec update : Document,
      spec = [("$rename", .document [("b", .string "deleted.by")]),
        ("$set", .document [("deleted.at", .int32 1), ("a", .int32 2)])] ∧
      (compile ⟨false, false, true⟩ .update ⟨0⟩ spec).2 = .ok update ∧ update = spec ∧
      Holds update "$set" ("deleted.at", .int32 1) ∧
      Policy.Addresses ⟨false, false, true⟩ "deleted.at" ∧
      (∀ operator entry, ¬ IsStamp ⟨false, false, true⟩ .update ⟨0⟩ operator entry) ∧
      ¬ ∀ operator entry, Holds update operator entry →
        (∃ path ∈ paths operator entry, Policy.Addresses ⟨false, false, true⟩ path) →
          IsStamp ⟨false, false, true⟩ .update ⟨0⟩ operator entry := by
  let spec : Document := [("$rename", .document [("b", .string "deleted.by")]),
    ("$set", .document [("deleted.at", .int32 1), ("a", .int32 2)])]
  have hcompile : (compile ⟨false, false, true⟩ .update ⟨0⟩ spec).2 = .ok spec := rfl
  have hnodup : (Entries.keys spec).Nodup := by decide
  have hholds : Holds spec "$set" ("deleted.at", .int32 1) :=
    ⟨_, List.mem_cons_of_mem _ List.mem_cons_self, List.mem_cons_self⟩
  have hnone : ∀ operator entry, ¬ IsStamp ⟨false, false, true⟩ .update ⟨0⟩ operator entry := by
    intro operator entry hstamp
    cases hstamp <;> contradiction
  obtain ⟨-, -, hsafe⟩ := addresses_compiled_iff hnodup hcompile
  refine ⟨spec, spec, rfl, hcompile, rfl, hholds, by decide, hnone, fun hall => ?_⟩
  obtain ⟨path, hpath, howns⟩ := hsafe.mp hall "$set" _ hholds
    ⟨"deleted.at", List.mem_cons_self, by decide⟩
  rw [List.mem_singleton.mp hpath] at howns
  cases howns

end UpdateSpec

end DocStore
