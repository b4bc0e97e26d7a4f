import DocStore.Proofs.Entries
import DocStore.Proofs.Outcome
import DocStore.Schema.Tables
import Mathlib.Data.List.Induction
import Mathlib.Data.List.Nodup

/-! # What schemas are made of

A list of declared fields has a schema unless it is empty or a name occurs twice in it, and the first
field that repeats a name is what is wrong with it (`Schema.differ_or_repeats`). The entries of the
schema are the declared fields and, where none of them has its name, the key of the document
(`Schema.entriesOf`). The two tables of a schema are one list of entries, read in either direction
(`Schema.Tables.of`), so each storage name leads back to its one field, and a reference resolves by
what the entries are and not by their order (`Schema.resolve_congr`). -/

namespace DocStore

namespace Schema

/-! ## Names that differ -/

/-- **Declared fields with different names**: no logical name occurs twice, and no storage name. -/
structure NamesDiffer (fields : List FieldDescriptor) : Prop where
  logical : (fields.map FieldDescriptor.name).Nodup
  storage : (fields.map FieldDescriptor.storageName).Nodup

/-- **A field repeats a name** of fields before it. Its logical name is looked at first. -/
inductive Repeats (before : List FieldDescriptor) (field : FieldDescriptor) : SchemaFault → Prop
  | logical (h : field.name ∈ before.map FieldDescriptor.name) :
    Repeats before field (.duplicateField field.name)
  | storage (hnew : field.name ∉ before.map FieldDescriptor.name)
      (h : field.storageName ∈ before.map FieldDescriptor.storageName) :
    Repeats before field (.duplicateStorageName field.storageName)

variable {before after fields : List FieldDescriptor} {field : FieldDescriptor}

/-- One more field keeps the names different if both of its names are new. -/
theorem namesDiffer_concat_iff :
    NamesDiffer (before ++ [field]) ↔ NamesDiffer before ∧
      field.name ∉ before.map FieldDescriptor.name ∧
      field.storageName ∉ before.map FieldDescriptor.storageName := by
  have hconcat : ∀ (names : List String) (name : String),
      (names ++ [name]).Nodup ↔ names.Nodup ∧ name ∉ names := by
    intro names name
    rw [← List.concat_eq_append, List.nodup_concat]
    exact and_comm
  constructor
  · rintro ⟨hlogical, hstorage⟩
    rw [List.map_append, List.map_singleton, hconcat] at hlogical hstorage
    exact ⟨⟨hlogical.1, hstorage.1⟩, hlogical.2, hstorage.2⟩
  · rintro ⟨hbefore, hlogical, hstorage⟩
    constructor
    · rw [List.map_append, List.map_singleton, hconcat]
      exact ⟨hbefore.logical, hlogical⟩
    · rw [List.map_append, List.map_singleton, hconcat]
      exact ⟨hbefore.storage, hstorage⟩

/-- A field repeats no name just where both of its names are new. -/
theorem exists_repeats_iff :
    (∃ fault, Repeats before field fault) ↔ ¬ (field.name ∉ before.map FieldDescriptor.name ∧
      field.storageName ∉ before.map FieldDescriptor.storageName) := by
  constructor
  · rintro ⟨fault, hfault⟩ ⟨hname, hstorage⟩
    cases hfault with
    | logical h => exact hname h
    | storage _ h => exact hstorage h
  · intro h
    by_cases hname : field.name ∈ before.map FieldDescriptor.name
    · exact ⟨_, .logical hname⟩
    · exact ⟨_, .storage hname (by_contra fun hstorage => h ⟨hname, hstorage⟩)⟩

/-- **Names differ, or there is a first repetition.** -/
theorem differ_or_repeats (fields : List FieldDescriptor) :
    NamesDiffer fields ∨ ∃ before field after fault, fields = before ++ field :: after ∧
      NamesDiffer before ∧ Repeats before field fault := by
  induction fields using List.reverseRecOn with
  | nil => exact Or.inl ⟨List.nodup_nil, List.nodup_nil⟩
  | append_singleton fields last ih =>
    rcases ih with hdiffer | ⟨before, field, after, fault, rfl, hbefore, hrepeats⟩
    · by_cases hnew : last.name ∉ fields.map FieldDescriptor.name ∧
          last.storageName ∉ fields.map FieldDescriptor.storageName
      · exact Or.inl (namesDiffer_concat_iff.mpr ⟨hdiffer, hnew⟩)
      · obtain ⟨fault, hrepeats⟩ := exists_repeats_iff.mpr hnew
        exact Or.inr ⟨fields, last, [], fault, rfl, hdiffer, hrepeats⟩
    · exact Or.inr ⟨before, field, after ++ [last], fault, by simp, hbefore, hrepeats⟩

/-! ## The entries of a schema -/

/-- What is entered for a declared field. -/
def entryOf (field : FieldDescriptor) : String × FieldInfo := (field.name, infoOf field)

/-- Whether one of the fields has the name of the key, as its logical name or its storage name. -/
def NamesKey (fields : List FieldDescriptor) : Prop :=
  ∃ field ∈ fields, field.name = idField ∨ field.storageName = idField

instance (fields : List FieldDescriptor) : Decidable (NamesKey fields) :=
  inferInstanceAs (Decidable (∃ field ∈ fields, _))

/-- **The entries of a schema**: the declared fields, and the key of the document unless one of them
has its name. -/
def entriesOf (fields : List FieldDescriptor) : Entries FieldInfo :=
  fields.map entryOf ++ if NamesKey fields then [] else [(idField, ⟨idField, .objectId⟩)]

/-- The storage names of entries. -/
def storageNames (entries : Entries FieldInfo) : List String :=
  entries.map fun entry => entry.2.storageName

theorem keys_map_entryOf (fields : List FieldDescriptor) :
    Entries.keys (fields.map entryOf) = fields.map FieldDescriptor.name := by
  rw [Entries.keys, List.map_map]
  rfl

theorem storageNames_map_entryOf (fields : List FieldDescriptor) :
    storageNames (fields.map entryOf) = fields.map FieldDescriptor.storageName := by
  rw [storageNames, List.map_map]
  rfl

theorem storesUnder_iff (entries : Entries FieldInfo) (name : String) :
    storesUnder entries name = true ↔ name ∈ storageNames entries := by
  simp [storesUnder, storageNames]

/-- **Entries with different names**, as the entries of a schema are. -/
structure EntriesDiffer (entries : Entries FieldInfo) : Prop where
  logical : (Entries.keys entries).Nodup
  storage : (storageNames entries).Nodup

/-- The key of the document is added just where no field has its name. -/
theorem withKey_map_entryOf (fields : List FieldDescriptor) :
    withKey (fields.map entryOf) = entriesOf fields := by
  have hnames : (Entries.contains (fields.map entryOf) idField
      || storesUnder (fields.map entryOf) idField) = true ↔ NamesKey fields := by
    rw [Bool.or_eq_true, Entries.contains_iff, storesUnder_iff, keys_map_entryOf,
      storageNames_map_entryOf, List.mem_map, List.mem_map]
    constructor
    · rintro (⟨field, hmem, hname⟩ | ⟨field, hmem, hname⟩)
      · exact ⟨field, hmem, Or.inl hname⟩
      · exact ⟨field, hmem, Or.inr hname⟩
    · rintro ⟨field, hmem, hname | hname⟩
      · exact Or.inl ⟨field, hmem, hname⟩
      · exact Or.inr ⟨field, hmem, hname⟩
  rw [withKey, entriesOf]
  by_cases hkey : NamesKey fields
  · rw [if_pos hkey, if_pos (hnames.mpr hkey), List.append_nil]
  · rw [if_neg hkey, if_neg (mt hnames.mp hkey)]

/-- The entries of fields with different names have different names. -/
theorem NamesDiffer.entriesOf (h : NamesDiffer fields) : EntriesDiffer (entriesOf fields) := by
  rw [Schema.entriesOf]
  by_cases hkey : NamesKey fields
  · rw [if_pos hkey, List.append_nil]
    exact ⟨keys_map_entryOf fields ▸ h.logical, storageNames_map_entryOf fields ▸ h.storage⟩
  · -- the key comes last, and neither of its names is taken
    have hdeclared : NamesDiffer (fields ++ [⟨idField, idField, ""⟩]) := by
      refine namesDiffer_concat_iff.mpr ⟨h, fun hmem => ?_, fun hmem => ?_⟩
      · obtain ⟨field, hfield, hname⟩ := List.mem_map.mp hmem
        exact hkey ⟨field, hfield, Or.inl hname⟩
      · obtain ⟨field, hfield, hname⟩ := List.mem_map.mp hmem
        exact hkey ⟨field, hfield, Or.inr hname⟩
    rw [if_neg hkey]
    constructor
    · have hlogical := hdeclared.logical
      rw [List.map_append, ← keys_map_entryOf] at hlogical
      rw [Entries.keys, List.map_append]
      exact hlogical
    · have hstorage := hdeclared.storage
      rw [List.map_append, ← storageNames_map_entryOf] at hstorage
      rw [storageNames, List.map_append]
      exact hstorage

/-! ## Collecting declared fields -/

/-- Fields are collected in two parts, the second one behind what the first has come to. -/
theorem collect_append (entries : Entries FieldInfo) (first second : List FieldDescriptor) :
    collect entries (first ++ second)
      = (collect entries first).bind fun collected => collect collected second := by
  induction first generalizing entries with
  | nil => rfl
  | cons field rest ih =>
    rw [List.cons_append, collect, collect]
    split
    · rfl
    · split
      · rfl
      · exact ih _

/-- One field is collected behind others. -/
theorem collect_map_entryOf (before : List FieldDescriptor) (field : FieldDescriptor)
    (after : List FieldDescriptor) :
    collect (before.map entryOf) (field :: after)
      = if field.name ∈ before.map FieldDescriptor.name then .error (.duplicateField field.name)
        else if field.storageName ∈ before.map FieldDescriptor.storageName then
          .error (.duplicateStorageName field.storageName)
        else collect ((before ++ [field]).map entryOf) after := by
  rw [collect, List.map_append]
  simp only [Entries.contains_iff, storesUnder_iff, keys_map_entryOf, storageNames_map_entryOf]
  rfl

/-- **Fields with different names** are all collected. -/
theorem collect_of_namesDiffer (h : NamesDiffer fields) :
    collect [] fields = .ok (fields.map entryOf) := by
  induction fields using List.reverseRecOn with
  | nil => rfl
  | append_singleton before field ih =>
    obtain ⟨hbefore, hname, hstorage⟩ := namesDiffer_concat_iff.mp h
    rw [collect_append, ih hbefore]
    exact (collect_map_entryOf before field []).trans
      ((if_neg hname).trans (if_neg hstorage))

/-- **The first field that repeats a name** is refused. -/
theorem collect_of_repeats (hbefore : NamesDiffer before) {fault : SchemaFault}
    (h : Repeats before field fault) (after : List FieldDescriptor) :
    collect [] (before ++ field :: after) = .error fault := by
  rw [collect_append, collect_of_namesDiffer hbefore]
  refine (collect_map_entryOf before field after).trans ?_
  cases h with
  | logical hname => exact if_pos hname
  | storage hnew hstorage => exact (if_neg hnew).trans (if_pos hstorage)

/-! ## Resolution -/

section

variable {schema other : Schema} {name : String} {info : FieldInfo}

/-- The field that is stored under a name. -/
theorem stored?_eq_some_iff (h : EntriesDiffer schema.fields) :
    schema.stored? name = some info ↔
      ∃ logical, (logical, info) ∈ schema.fields ∧ info.storageName = name := by
  constructor
  · intro hstored
    obtain ⟨⟨logical, found⟩, hfind, rfl⟩ := Option.map_eq_some_iff.mp hstored
    exact ⟨logical, List.mem_of_find?_eq_some hfind, by simpa using List.find?_some hfind⟩
  · rintro ⟨logical, hmem, rfl⟩
    cases hstored : schema.stored? info.storageName with
    | none =>
      have hother := List.find?_eq_none.mp (Option.map_eq_none_iff.mp hstored) _ hmem
      simp at hother
    | some found =>
      -- storage names differ, so the entry that is found is the one that is there
      obtain ⟨entry, hfind, rfl⟩ := Option.map_eq_some_iff.mp hstored
      have hsame : entry = (logical, info) :=
        List.inj_on_of_nodup_map h.storage (List.mem_of_find?_eq_some hfind) hmem
          (by simpa using List.find?_some hfind)
      rw [hsame]

/-- **What a reference without a dot resolves to**: the entry of that logical name if there is one,
and otherwise the entry that is stored under it. -/
theorem resolve_eq_ok_iff (h : EntriesDiffer schema.fields) (hdot : '.' ∉ name.toList) :
    schema.resolve name = .ok info ↔
      (name, info) ∈ schema.fields ∨ (name ∉ Entries.keys schema.fields ∧
        ∃ logical, (logical, info) ∈ schema.fields ∧ info.storageName = name) := by
  have hpath : name.toList.contains '.' ≠ true := by simpa using hdot
  rw [resolve, if_neg hpath, get?]
  cases hget : Entries.get? schema.fields name with
  | some found =>
    have hmem := Entries.mem_of_get? hget
    have hkey : name ∈ Entries.keys schema.fields := List.mem_map.mpr ⟨_, hmem, rfl⟩
    simp only [Except.ok.injEq, hkey, not_true, false_and, or_false]
    refine ⟨fun heq => heq ▸ hmem, fun hother => ?_⟩
    rw [Entries.get?_of_mem h.logical hother] at hget
    exact (Option.some.inj hget).symm
  | none =>
    have hkey := (Entries.get?_eq_none_iff _ _).mp hget
    have hmem : (name, info) ∉ schema.fields := fun hmem => hkey (List.mem_map.mpr ⟨_, hmem, rfl⟩)
    rw [← stored?_eq_some_iff h]
    simp only [hmem, hkey, not_false_eq_true, true_and, false_or]
    cases schema.stored? name <;> simp

/-- A reference without a dot resolves to nothing if no entry has it as either name. -/
theorem resolve_eq_error_iff (hdot : '.' ∉ name.toList) {error : Error} :
    schema.resolve name = .error error ↔ error = .unknownField name ∧
      name ∉ Entries.keys schema.fields ∧ name ∉ storageNames schema.fields := by
  have hpath : name.toList.contains '.' ≠ true := by simpa using hdot
  have hstored : schema.stored? name = none ↔ name ∉ storageNames schema.fields := by
    simp [stored?, storageNames]
  rw [← hstored, ← Entries.get?_eq_none_iff, resolve, if_neg hpath, get?]
  cases Entries.get? schema.fields name with
  | some found => simp
  | none =>
    cases schema.stored? name with
    | some found => simp
    | none => simp [eq_comm]

/-- **The order of entries does not matter** to what a reference resolves to. -/
theorem resolve_congr (h : EntriesDiffer schema.fields) (hperm : schema.fields.Perm other.fields)
    (name : String) : other.resolve name = schema.resolve name := by
  by_cases hdot : '.' ∈ name.toList
  · rw [resolve, if_pos (by simpa using hdot), resolve, if_pos (by simpa using hdot)]
  · have hother : EntriesDiffer other.fields :=
      ⟨(hperm.map _).nodup h.logical, (hperm.map _).nodup h.storage⟩
    have hkeys : name ∈ Entries.keys other.fields ↔ name ∈ Entries.keys schema.fields :=
      (hperm.map _).symm.mem_iff
    cases hresolve : schema.resolve name with
    | ok info =>
      rw [resolve_eq_ok_iff h hdot] at hresolve
      rw [resolve_eq_ok_iff hother hdot, hkeys]
      simpa only [hperm.mem_iff] using hresolve
    | error error =>
      rw [resolve_eq_error_iff hdot] at hresolve ⊢
      exact ⟨hresolve.1, hkeys.not.mpr hresolve.2.1,
        (hperm.map _).symm.mem_iff.not.mpr hresolve.2.2⟩

end

/-! ## The two tables -/

namespace Tables

/-- **The tables of entries**: the entries under their logical names, and these under their storage
names. -/
def of (entries : Entries FieldInfo) : Tables :=
  ⟨entries, entries.map fun entry => (entry.2.storageName, entry.1)⟩

theorem keys_byStorage_of (entries : Entries FieldInfo) :
    Entries.keys (of entries).byStorage = storageNames entries := by
  rw [of, Entries.keys, List.map_map]
  rfl

theorem contains_byStorage_of (entries : Entries FieldInfo) (name : String) :
    Entries.contains (of entries).byStorage name = storesUnder entries name := by
  rw [Bool.eq_iff_iff, Entries.contains_iff, keys_byStorage_of, storesUnder_iff]

/-- New names go to the end of both tables. -/
theorem insert_of {entries : Entries FieldInfo} {name : String} {info : FieldInfo}
    (hname : name ∉ Entries.keys entries) (hstorage : info.storageName ∉ storageNames entries) :
    (⟨Entries.insert (of entries).byName name info,
      Entries.insert (of entries).byStorage info.storageName name⟩ : Tables)
      = of (entries ++ [(name, info)]) := by
  have hbyName : Entries.insert (of entries).byName name info = entries ++ [(name, info)] :=
    Entries.insert_of_absent hname info
  rw [hbyName, Entries.insert_of_absent (by rwa [keys_byStorage_of]), of, of, List.map_append]
  rfl

/-- **Filling the tables** of entries comes to what adding to the entries comes to. -/
theorem fill_of (entries : Entries FieldInfo) (fields : List FieldDescriptor) :
    (of entries).fill fields = (collect entries fields).map of := by
  induction fields generalizing entries with
  | nil => rfl
  | cons field rest ih =>
    have hstored : Entries.contains (of entries).byStorage (infoOf field).storageName
        = storesUnder entries field.storageName := contains_byStorage_of entries _
    rw [fill, add, collect, hstored]
    by_cases hname : Entries.contains entries field.name = true
    · rw [if_pos hname, if_pos (show Entries.contains (of entries).byName _ = true from hname)]
      rfl
    · rw [if_neg hname,
        if_neg (show ¬ Entries.contains (of entries).byName _ = true from hname)]
      by_cases hstorage : storesUnder entries field.storageName = true
      · rw [if_pos hstorage, if_pos hstorage]
        rfl
      · rw [if_neg hstorage, if_neg hstorage, insert_of (mt (Entries.contains_iff _ _).mpr hname)
          (mt (storesUnder_iff _ _).mpr hstorage), ← ih]
        rfl

/-- The key of the document is entered in both tables of entries or in none. -/
theorem withKey_of (entries : Entries FieldInfo) :
    (of entries).withKey = of (Schema.withKey entries) := by
  have hnames : Entries.contains (of entries).byName idField = Entries.contains entries idField :=
    rfl
  rw [withKey, Schema.withKey, contains_byStorage_of, hnames]
  by_cases hname : Entries.contains entries idField = true
  · simp [hname]
  · by_cases hstorage : storesUnder entries idField = true
    · simp [hstorage]
    · simp only [hname, hstorage, Bool.not_false, Bool.and_self, if_true, Bool.or_self,
        Bool.false_eq_true, if_false]
      exact insert_of (mt (Entries.contains_iff _ _).mpr hname)
        (mt (storesUnder_iff _ _).mpr hstorage)

/-- **The tables of a list of fields** are those of the entries of its schema. -/
theorem build_eq (model : String) (fields : List FieldDescriptor) :
    build model fields = (Schema.build model fields).map fun schema => of schema.fields := by
  have hfill := fill_of [] fields
  rw [build, Schema.build]
  split
  · rfl
  · rw [show ({} : Tables) = of [] from rfl, hfill]
    cases collect [] fields with
    | error fault => rfl
    | ok entries => exact congrArg Except.ok (withKey_of entries)

/-- **The tables are inverse to each other**: a storage name leads to a logical name just where that
one holds the field that is stored under it. -/
def Inverse (tables : Tables) : Prop :=
  ∀ stored logical, Entries.get? tables.byStorage stored = some logical ↔
    ∃ info, Entries.get? tables.byName logical = some info ∧ info.storageName = stored

variable {entries : Entries FieldInfo}

theorem inverse_of (h : EntriesDiffer entries) : (of entries).Inverse := by
  intro stored logical
  constructor
  · intro hget
    obtain ⟨⟨name, info⟩, hmem, heq⟩ := List.mem_map.mp (Entries.mem_of_get? hget)
    cases heq
    exact ⟨info, Entries.get?_of_mem h.logical hmem, rfl⟩
  · rintro ⟨info, hget, rfl⟩
    refine Entries.get?_of_mem (by rw [keys_byStorage_of]; exact h.storage) ?_
    exact List.mem_map.mpr ⟨_, Entries.mem_of_get? hget, rfl⟩

/-- A storage name leads through the tables to the field that is stored under it. -/
theorem bind_byStorage_of (h : EntriesDiffer entries) (model name : String) :
    (Entries.get? (of entries).byStorage name).bind (Entries.get? (of entries).byName)
      = (⟨model, entries⟩ : Schema).stored? name := by
  ext info
  rw [@stored?_eq_some_iff ⟨model, entries⟩ name info h, Option.bind_eq_some_iff]
  constructor
  · rintro ⟨logical, hstorage, hget⟩
    obtain ⟨found, hfound, hname⟩ := (inverse_of h name logical).mp hstorage
    rw [hget, Option.some.injEq] at hfound
    exact ⟨logical, Entries.mem_of_get? hget, hfound ▸ hname⟩
  · rintro ⟨logical, hmem, hname⟩
    have hget := Entries.get?_of_mem h.logical hmem
    exact ⟨logical, (inverse_of h name logical).mpr ⟨info, hget, hname⟩, hget⟩

/-- Resolution through the tables is resolution in the schema. -/
theorem resolve_of (h : EntriesDiffer entries) (model name : String) :
    (of entries).resolve name = (⟨model, entries⟩ : Schema).resolve name := by
  rw [resolve, Schema.resolve, bind_byStorage_of h model]
  rfl

end Tables

/-! ## Building a schema -/

theorem build_of_namesDiffer (model : String) (hfields : fields ≠ []) (h : NamesDiffer fields) :
    build model fields = .ok ⟨model, entriesOf fields⟩ := by
  rw [build, if_neg (by simpa using hfields), collect_of_namesDiffer h]
  exact congrArg (fun entries => Except.ok (Schema.mk model entries)) (withKey_map_entryOf fields)

theorem build_of_repeats (model : String) (hbefore : NamesDiffer before) {fault : SchemaFault}
    (h : Repeats before field fault) (after : List FieldDescriptor) :
    build model (before ++ field :: after) = .error (.invalidSchema model fault) := by
  rw [build, if_neg (by simp), collect_of_repeats hbefore h]

/-- **Which fields have a schema**, and which one that is. -/
theorem build_eq_ok_iff {model : String} {schema : Schema} :
    build model fields = .ok schema
      ↔ fields ≠ [] ∧ NamesDiffer fields ∧ schema = ⟨model, entriesOf fields⟩ := by
  constructor
  · intro hbuild
    have hfields : fields ≠ [] := by
      rintro rfl
      cases hbuild
    rcases differ_or_repeats fields with hdiffer | ⟨before, field, after, fault, rfl, hbefore, h⟩
    · rw [build_of_namesDiffer model hfields hdiffer, Except.ok.injEq] at hbuild
      exact ⟨hfields, hdiffer, hbuild.symm⟩
    · rw [build_of_repeats model hbefore h] at hbuild
      cases hbuild
  · rintro ⟨hfields, hdiffer, rfl⟩
    exact build_of_namesDiffer model hfields hdiffer

/-- **Which fields have none**, and why. -/
theorem build_eq_error_iff {model : String} {error : Error} :
    build model fields = .error error
      ↔ (fields = [] ∧ error = .invalidSchema model .noFields) ∨
        ∃ before field after fault, fields = before ++ field :: after ∧ NamesDiffer before ∧
          Repeats before field fault ∧ error = .invalidSchema model fault := by
  constructor
  · intro hbuild
    by_cases hfields : fields = []
    · subst hfields
      cases hbuild
      exact Or.inl ⟨rfl, rfl⟩
    · rcases differ_or_repeats fields with hdiffer | ⟨before, field, after, fault, rfl, hbefore, h⟩
      · rw [build_of_namesDiffer model hfields hdiffer] at hbuild
        cases hbuild
      · rw [build_of_repeats model hbefore h] at hbuild
        cases hbuild
        exact Or.inr ⟨before, field, after, fault, rfl, hbefore, h, rfl⟩
  · rintro (⟨rfl, rfl⟩ | ⟨before, field, after, fault, rfl, hbefore, h, rfl⟩)
    · rfl
    · exact build_of_repeats model hbefore h after

theorem entriesDiffer_of_build {model : String} {schema : Schema}
    (h : build model fields = .ok schema) : EntriesDiffer schema.fields := by
  obtain ⟨-, hdiffer, rfl⟩ := build_eq_ok_iff.mp h
  exact hdiffer.entriesOf

/-- Fields in another order have the same entries, in another order. -/
theorem exists_build_of_perm {model : String} {schema : Schema}
    (h : build model fields = .ok schema) {reordered : List FieldDescriptor}
    (hperm : fields.Perm reordered) :
    ∃ other, build model reordered = .ok other ∧ schema.fields.Perm other.fields := by
  obtain ⟨hfields, hdiffer, rfl⟩ := build_eq_ok_iff.mp h
  have hreordered : NamesDiffer reordered :=
    ⟨(hperm.map _).nodup hdiffer.logical, (hperm.map _).nodup hdiffer.storage⟩
  refine ⟨_, build_of_namesDiffer model (fun hnil => hfields ?_) hreordered, ?_⟩
  · rwa [hnil, List.perm_nil] at hperm
  · have hkey : NamesKey fields ↔ NamesKey reordered := by
      simp only [NamesKey, hperm.mem_iff]
    exact (hperm.map entryOf).append (by rw [if_congr hkey rfl rfl])

/-- **The index of declared fields**: what a schema that was built of them is and does. -/
structure Indexes (schema : Schema) (model : String) (fields : List FieldDescriptor) : Prop where
  /-- Each declared field has its one entry, and the key has one unless a field has its name. -/
  entries : schema = ⟨model, entriesOf fields⟩
  /-- No name occurs twice among the entries. -/
  differ : EntriesDiffer schema.fields
  /-- The two tables that are filled field by field hold these entries, they are inverse to each
  other, and resolution through them is resolution in the schema. -/
  tables : ∃ tables, Tables.build model fields = .ok tables ∧ tables.byName = schema.fields ∧
    tables.Inverse ∧ ∀ name, tables.resolve name = schema.resolve name
  /-- A name without a dot resolves to the entry of that logical name, or else to the entry that is
  stored under it. -/
  resolves : ∀ name, '.' ∉ name.toList → ∀ info, schema.resolve name = .ok info ↔
    (name, info) ∈ schema.fields ∨ (name ∉ Entries.keys schema.fields ∧
      ∃ logical, (logical, info) ∈ schema.fields ∧ info.storageName = name)
  /-- If there is neither, it is unknown. -/
  unknown : ∀ name, '.' ∉ name.toList → ∀ error, schema.resolve name = .error error ↔
    error = .unknownField name ∧ name ∉ Entries.keys schema.fields ∧
      name ∉ storageNames schema.fields
  /-- The order of the fields does not matter. -/
  anyOrder : ∀ reordered, fields.Perm reordered →
    ∃ other, build model reordered = .ok other ∧ schema.fields.Perm other.fields ∧
      ∀ name, other.resolve name = schema.resolve name

theorem indexes_of_build {model : String} {schema : Schema} (h : build model fields = .ok schema) :
    schema.Indexes model fields where
  entries := (build_eq_ok_iff.mp h).2.2
  differ := entriesDiffer_of_build h
  tables := by
    have hdiffer := entriesDiffer_of_build h
    have hschema := (build_eq_ok_iff.mp h).2.2
    refine ⟨Tables.of schema.fields, by rw [Tables.build_eq, h]; rfl, rfl,
      Tables.inverse_of hdiffer, fun name => ?_⟩
    rw [Tables.resolve_of hdiffer model]
    exact congrArg (resolve · name) (by rw [hschema])
  resolves := fun _ hdot _ => resolve_eq_ok_iff (entriesDiffer_of_build h) hdot
  unknown := fun _ hdot _ => resolve_eq_error_iff hdot
  anyOrder := fun reordered hperm => by
    obtain ⟨other, hother, hentries⟩ := exists_build_of_perm h hperm
    exact ⟨other, hother, hentries, resolve_congr (entriesDiffer_of_build h) hentries⟩

/-- A declared field is found by its logical name, if that is no path. -/
theorem resolve_of_mem {model : String} {schema : Schema} (h : build model fields = .ok schema)
    (hmem : field ∈ fields) (hdot : '.' ∉ field.name.toList) :
    schema.resolve field.name = .ok (infoOf field) := by
  have hentry : entryOf field ∈ entriesOf fields :=
    List.mem_append_left _ (List.mem_map.mpr ⟨field, hmem, rfl⟩)
  refine ((indexes_of_build h).resolves field.name hdot _).mpr (Or.inl ?_)
  rw [(indexes_of_build h).entries]
  exact hentry

/-- **Schemas index declared fields exactly.** There is a schema if and only if there are fields and
no logical name and no storage name occurs twice; otherwise the first field that repeats a name is
reported, its logical name before its storage name. A schema has one entry for each declared field,
and one for the key of the document if no field has its name. Its two tables are inverse to each
other, and a name without a dot resolves by its logical name, then by its storage name, whatever the
order of the fields. -/
theorem build_indexes_exactly (model : String) (fields : List FieldDescriptor) :
    (∀ schema, build model fields = .ok schema
      ↔ fields ≠ [] ∧ NamesDiffer fields ∧ schema = ⟨model, entriesOf fields⟩) ∧
    (∀ error, build model fields = .error error
      ↔ (fields = [] ∧ error = .invalidSchema model .noFields) ∨
        ∃ before field after fault, fields = before ++ field :: after ∧ NamesDiffer before ∧
          Repeats before field fault ∧ error = .invalidSchema model fault) ∧
    ∀ schema, build model fields = .ok schema → schema.Indexes model fields :=
  ⟨fun _ => build_eq_ok_iff, fun _ => build_eq_error_iff, fun _ => indexes_of_build⟩

/-- Two fields, each stored under the logical name of the other: each name resolves to the field that
has it as its logical name, and the key is a field as well. A third field that is stored under a
name that is taken is refused. -/
theorem build_indexes_exactly_crossed :
    ∃ (title lead late : FieldDescriptor) (schema : Schema), title = ⟨"title", "lead", "String"⟩ ∧
      lead = ⟨"lead", "title", "Vec<String>"⟩ ∧ late = ⟨"note", "lead", "String"⟩ ∧
      NamesDiffer [title, lead] ∧ build "Post" [title, lead] = .ok schema ∧
      schema.fields = [("title", infoOf title), ("lead", infoOf lead), ("_id", ⟨"_id", .objectId⟩)] ∧
      schema.resolve "title" = .ok (infoOf title) ∧ schema.resolve "lead" = .ok (infoOf lead) ∧
      schema.resolve "_id" = .ok ⟨"_id", .objectId⟩ ∧
      build "Post" [title, lead, late] = .error (.invalidSchema "Post" (.duplicateStorageName "lead"))
      := by
  let title : FieldDescriptor := ⟨"title", "lead", "String"⟩
  let lead : FieldDescriptor := ⟨"lead", "title", "Vec<String>"⟩
  let late : FieldDescriptor := ⟨"note", "lead", "String"⟩
  have hdiffer : NamesDiffer [title, lead] := ⟨by decide, by decide⟩
  obtain ⟨hok, -, hindexes⟩ := build_indexes_exactly "Post" [title, lead]
  obtain ⟨-, herror, -⟩ := build_indexes_exactly "Post" [title, lead, late]
  have hbuild := (hok _).mpr ⟨by decide, hdiffer, rfl⟩
  have hindexed := hindexes _ hbuild
  have hfields : entriesOf [title, lead] = [("title", infoOf title), ("lead", infoOf lead),
      ("_id", ⟨"_id", .objectId⟩)] := by
    rw [entriesOf, if_neg (by decide)]
    rfl
  refine ⟨title, lead, late, _, rfl, rfl, rfl, hdiffer, hbuild, hfields,
    (hindexed.resolves "title" (by decide) _).mpr ?_,
    (hindexed.resolves "lead" (by decide) _).mpr ?_,
    (hindexed.resolves "_id" (by decide) _).mpr ?_,
    (herror _).mpr (Or.inr ⟨[title, lead], late, [], _, rfl, hdiffer,
      .storage (by decide) (by decide), rfl⟩)⟩
  all_goals rw [hfields]; simp

end Schema

end DocStore
