import DocStore.Filter.Compile
import DocStore.Proofs.Entries
import DocStore.Proofs.Outcome

/-! # What a projection leaves of a document

A list of fields becomes a projection that gives every listed storage name the same flag
(`Filter.Flags`). A store reads the kind of a projection off its flags again: it includes if a field
other than the key is set. So excluded fields are left out and included fields are kept beside the
key, as the list asks for; but a list that includes nothing other than the key has no such flag, and
every field is kept (`Filter.view_eq_requested_unless_keyOnly`). -/

namespace DocStore

namespace Filter

/-! ## Flags of listed fields -/

/-- The storage names of listed fields. -/
def storageNames (schema : Schema) (fields : List (String × Bool)) : List String :=
  fields.filterMap fun field => (schema.resolve field.1).toOption.map FieldInfo.storageName

/-- The flag of a field that is included or excluded. -/
def flag (included : Bool) : Value := .int32 (if included then 1 else 0)

/-- **The flags of a projection**: all listed fields are of one kind and have its flag. -/
structure Flags (schema : Schema) (included : Bool) (fields : List (String × Bool))
    (start projection : Document) : Prop where
  /-- The fields are of one kind, and fields of the schema. -/
  resolved : ∀ field ∈ fields,
    field.2 = included ∧ ∃ info, schema.resolve field.1 = .ok info
  /-- Every listed storage name has the flag. -/
  get? : ∀ name, Entries.get? projection name
    = if name ∈ storageNames schema fields then some (flag included) else Entries.get? start name
  /-- No storage name is flagged twice. -/
  nodup : (Entries.keys start).Nodup → (Entries.keys projection).Nodup

variable {schema : Schema} {included : Bool} {fields : List (String × Bool)}
  {start projection : Document}

@[simp] theorem truthy_flag (included : Bool) : (flag included).truthy = included := by
  cases included <;> rfl

theorem storageNames_cons {name : String} {kind : Bool} {info : FieldInfo}
    (hinfo : schema.resolve name = .ok info) (rest : List (String × Bool)) :
    storageNames schema ((name, kind) :: rest) = info.storageName :: storageNames schema rest := by
  simp [storageNames, hinfo, Except.toOption]

/-- **Compiling listed fields** flags them. -/
theorem flags_of_compileFields
    (h : compileFields schema included start fields = .ok projection) :
    Flags schema included fields start projection := by
  induction fields generalizing start with
  | nil =>
    cases h
    exact ⟨by simp, by simp [storageNames], id⟩
  | cons field rest ih =>
    obtain ⟨name, kind⟩ := field
    by_cases hkind : kind = included
    · subst hkind
      rw [compileFields_cons] at h
      obtain ⟨info, hresolve, hlater⟩ := Outcome.bind_eq_ok_iff.mp h
      have hrest := ih hlater
      refine ⟨?_, fun other => ?_, fun hstart => hrest.nodup (Entries.nodup_keys_insert hstart _ _)⟩
      · intro field hmem
        rcases List.mem_cons.mp hmem with rfl | hrestMem
        · exact ⟨rfl, info, hresolve⟩
        · exact hrest.resolved field hrestMem
      · rw [hrest.get?, Entries.get?_insert, storageNames_cons hresolve]
        by_cases hlisted : other ∈ storageNames schema rest
        · simp [hlisted]
        · by_cases hfirst : other = info.storageName <;> simp [hlisted, hfirst, flag]
    · rw [compileFields_cons_of_ne hkind] at h
      cases h

/-! ## The kind of a projection -/

/-- A projection includes if it includes a field other than the key. -/
theorem Flags.isInclusive_iff (h : Flags schema included fields [] projection) :
    Projection.isInclusive projection = true
      ↔ included = true ∧ ∃ name ∈ storageNames schema fields, name ≠ idField := by
  simp only [Projection.isInclusive, List.any_eq_true, Bool.and_eq_true, bne_iff_ne]
  constructor
  · rintro ⟨⟨name, value⟩, hmem, hne, htruthy⟩
    have hvalue := h.get? name
    rw [Entries.get?_of_mem (h.nodup List.nodup_nil) hmem] at hvalue
    split at hvalue
    · rename_i hlisted
      rw [Option.some.injEq] at hvalue
      exact ⟨by simpa [hvalue] using htruthy, name, hlisted, hne⟩
    · cases hvalue
  · rintro ⟨hincluded, name, hlisted, hne⟩
    have hvalue := h.get? name
    rw [if_pos hlisted] at hvalue
    exact ⟨(name, flag included), Entries.mem_of_get? hvalue, hne, by simp [hincluded]⟩

/-- What a projection says of a field: the flag of the listed fields, if it is one of them. -/
theorem Flags.get?_of_nil (h : Flags schema included fields [] projection) (name : String) :
    Entries.get? projection name
      = if name ∈ storageNames schema fields then some (flag included) else none :=
  h.get? name

/-- Where fields are excluded, all others are kept. -/
theorem Flags.keeps_of_excluded (h : Flags schema false fields [] projection) (name : String) :
    Projection.keeps projection name = decide (name ∉ storageNames schema fields) := by
  have hexclusive : Projection.isInclusive projection = false := by simpa using h.isInclusive_iff
  unfold Projection.keeps
  by_cases hlisted : name ∈ storageNames schema fields <;>
    simp [h.get?_of_nil, hexclusive, hlisted]

/-- Where fields are included, the key is kept with them. -/
theorem Flags.keeps_idField (h : Flags schema true fields [] projection) :
    Projection.keeps projection idField = true := by
  unfold Projection.keeps
  by_cases hlisted : idField ∈ storageNames schema fields <;> simp [h.get?_of_nil, hlisted]

/-- Where a field other than the key is included, only what is listed is kept beside the key. -/
theorem Flags.keeps_of_included (h : Flags schema true fields [] projection)
    (hother : ∃ name ∈ storageNames schema fields, name ≠ idField) (name : String) :
    Projection.keeps projection name
      = decide (name ∈ storageNames schema fields ∨ name = idField) := by
  by_cases hkey : name = idField
  · simp [hkey, h.keeps_idField]
  · have hinclusive : Projection.isInclusive projection = true :=
      h.isInclusive_iff.mpr ⟨rfl, hother⟩
    unfold Projection.keeps
    by_cases hlisted : name ∈ storageNames schema fields <;>
      simp [h.get?_of_nil, hkey, hinclusive, hlisted]

/-- Where nothing but the key is included, every field is kept. -/
theorem Flags.keeps_of_keyOnly (h : Flags schema true fields [] projection)
    (honly : ∀ name ∈ storageNames schema fields, name = idField) (name : String) :
    Projection.keeps projection name = true := by
  by_cases hkey : name = idField
  · rw [hkey, h.keeps_idField]
  · have hexclusive : Projection.isInclusive projection = false := by
      rw [Bool.eq_false_iff]
      intro hinclusive
      obtain ⟨-, other, hlisted, hne⟩ := h.isInclusive_iff.mp hinclusive
      exact hne (honly other hlisted)
    have hunlisted : name ∉ storageNames schema fields := fun hlisted => hkey (honly name hlisted)
    unfold Projection.keeps
    simp [h.get?_of_nil, hkey, hexclusive, hunlisted]

/-! ## What is left of a document -/

/-- **What a list of fields asks for**: of a document the listed fields and the key if the fields
are included, and all but the listed fields if they are excluded. -/
def requested (schema : Schema) (included : Bool) (fields : List (String × Bool))
    (doc : Document) : Document :=
  doc.filter fun entry =>
    if included then decide (entry.1 ∈ storageNames schema fields ∨ entry.1 = idField)
    else decide (entry.1 ∉ storageNames schema fields)

/-- Whether listed fields include **nothing but the key**. -/
def IncludesKeyOnly (schema : Schema) (included : Bool) (fields : List (String × Bool)) : Prop :=
  included = true ∧ ∀ name ∈ storageNames schema fields, name = idField

/-- A projection leaves what its list asks for. -/
theorem Flags.project_eq_requested (h : Flags schema included fields [] projection)
    (honly : ¬ IncludesKeyOnly schema included fields) (doc : Document) :
    Projection.project projection doc = requested schema included fields doc := by
  unfold Projection.project requested
  refine List.filter_congr fun entry _ => ?_
  cases included with
  | false => simp [h.keeps_of_excluded]
  | true =>
    have hother : ∃ name ∈ storageNames schema fields, name ≠ idField := by
      by_contra hnone
      push Not at hnone
      exact honly ⟨rfl, hnone⟩
    simp [h.keeps_of_included hother]

/-- A projection that includes nothing but the key leaves the whole document. -/
theorem Flags.project_of_keyOnly (h : Flags schema included fields [] projection)
    (honly : IncludesKeyOnly schema included fields) (doc : Document) :
    Projection.project projection doc = doc := by
  obtain ⟨rfl, hnames⟩ := honly
  exact List.filter_eq_self.mpr fun entry _ => h.keeps_of_keyOnly hnames entry.1

/-- The key alone is what a list asks for that includes nothing else. -/
theorem requested_of_keyOnly (honly : IncludesKeyOnly schema included fields) (doc : Document) :
    requested schema included fields doc = doc.filter fun entry => decide (entry.1 = idField) := by
  obtain ⟨rfl, hnames⟩ := honly
  refine List.filter_congr fun entry _ => ?_
  have hkey : (entry.1 ∈ storageNames schema fields ∨ entry.1 = idField) ↔ entry.1 = idField :=
    ⟨fun h => h.elim (hnames entry.1) id, Or.inr⟩
  simp [hkey]

/-- The compiled options hold the flags of the listed fields. -/
theorem exists_flags_of_compileOptions {filter : Filter} {options : QueryOptions}
    (h : filter.compileOptions schema = .ok options) (hfields : filter.fields ≠ []) :
    ∃ included projection, options.projection = some projection ∧
      Flags schema included filter.fields [] projection := by
  obtain ⟨skip, -, hlimited⟩ := Outcome.bind_eq_ok_iff.mp h
  obtain ⟨limit, -, hsorted⟩ := Outcome.bind_eq_ok_iff.mp hlimited
  obtain ⟨sort, -, hprojected⟩ := Outcome.bind_eq_ok_iff.mp hsorted
  obtain ⟨projection, hprojection, hall⟩ := Outcome.bind_eq_ok_iff.mp hprojected
  cases hall
  obtain ⟨⟨name, included⟩, rest, hlist⟩ := List.exists_cons_of_ne_nil hfields
  rw [Filter.projection, hlist] at hprojection
  dsimp only at hprojection
  rw [← hlist] at hprojection
  obtain ⟨compiled, hcompiled, rfl⟩ := Outcome.map_eq_ok_iff.mp hprojection
  exact ⟨included, compiled, rfl, flags_of_compileFields hcompiled⟩

/-- **A projection leaves what was asked for**, unless nothing but the key is included. The fields of
a list that compiles are all included or all excluded, and each is a field of the schema. Of every
document, included fields leave the entries of the listed storage names and of the key, excluded
fields the entries of all other names, with their values and in their order. Only where the list
includes nothing but the key, under whichever names, the whole document is left, so that what was
asked for is left of those documents alone that hold nothing else. -/
theorem view_eq_requested_unless_keyOnly {filter : Filter} {options : QueryOptions}
    (h : filter.compileOptions schema = .ok options) (hfields : filter.fields ≠ []) :
    ∃ included,
      (∀ field ∈ filter.fields,
        field.2 = included ∧ ∃ info, schema.resolve field.1 = .ok info) ∧
      (¬ IncludesKeyOnly schema included filter.fields →
        ∀ doc, options.view doc = requested schema included filter.fields doc) ∧
      (IncludesKeyOnly schema included filter.fields →
        ∀ doc, options.view doc = doc ∧
          (options.view doc = requested schema included filter.fields doc
            ↔ ∀ entry ∈ doc, entry.1 = idField)) := by
  obtain ⟨included, projection, hprojection, hflags⟩ := exists_flags_of_compileOptions h hfields
  have hview : ∀ doc, options.view doc = Projection.project projection doc := by
    intro doc
    rw [QueryOptions.view, hprojection]
  refine ⟨included, hflags.resolved, fun honly doc => ?_, fun honly doc => ?_⟩
  · rw [hview, hflags.project_eq_requested honly]
  · rw [hview, hflags.project_of_keyOnly honly, requested_of_keyOnly honly]
    refine ⟨rfl, ?_⟩
    rw [eq_comm, List.filter_eq_self]
    simp

/-- Posts with a title that is listed under both of its names, and posts of which nothing but the
key is listed: the title is left beside the key, but the whole post is left where only its key was
asked for. -/
theorem view_eq_requested_unless_keyOnly_posts :
    ∃ (schema : Schema) (titles keys : Filter) (titleOptions keyOptions : QueryOptions)
      (post : Document),
      titles.fields = [("title", true), ("h", true)] ∧ keys.fields = [("id", true)] ∧
      post = [("_id", .int32 1), ("h", .string "Letter"), ("secret", .bool true)] ∧
      (titles.compileOptions schema = .ok titleOptions ∧ titles.fields ≠ [] ∧
        keys.compileOptions schema = .ok keyOptions ∧ keys.fields ≠ []) ∧
      titleOptions.view post = [("_id", .int32 1), ("h", .string "Letter")] ∧
      keyOptions.view post = post ∧
      requested schema true keys.fields post = [("_id", .int32 1)] ∧
      keyOptions.view post ≠ requested schema true keys.fields post := by
  let schema : Schema := ⟨"Post", [("id", ⟨"_id", .objectId⟩), ("title", ⟨"h", .string⟩)]⟩
  let titles : Filter := { fields := [("title", true), ("h", true)] }
  let keys : Filter := { fields := [("id", true)] }
  let post : Document := [("_id", .int32 1), ("h", .string "Letter"), ("secret", .bool true)]
  obtain ⟨titleOptions, htitles⟩ : ∃ options, titles.compileOptions schema = .ok options := ⟨_, rfl⟩
  obtain ⟨keyOptions, hkeys⟩ : ∃ options, keys.compileOptions schema = .ok options := ⟨_, rfl⟩
  have htitlesListed : titles.fields ≠ [] := List.cons_ne_nil _ _
  have hkeysListed : keys.fields ≠ [] := List.cons_ne_nil _ _
  obtain ⟨included, hresolved, hrequested, -⟩ :=
    view_eq_requested_unless_keyOnly htitles htitlesListed
  obtain ⟨included', hresolved', -, hwhole⟩ := view_eq_requested_unless_keyOnly hkeys hkeysListed
  have hincluded : included = true := (hresolved ("title", true) List.mem_cons_self).1.symm
  have hincluded' : included' = true := (hresolved' ("id", true) List.mem_cons_self).1.symm
  subst hincluded hincluded'
  have hother : ¬ IncludesKeyOnly schema true titles.fields := by
    rintro ⟨-, honly⟩
    have htitle : "h" ∈ storageNames schema titles.fields := by decide
    exact absurd (honly "h" htitle) (by decide)
  have honly : IncludesKeyOnly schema true keys.fields := ⟨rfl, by decide⟩
  obtain ⟨hview, hiff⟩ := hwhole honly post
  refine ⟨schema, titles, keys, titleOptions, keyOptions, post, rfl, rfl, rfl,
    ⟨htitles, htitlesListed, hkeys, hkeysListed⟩, (hrequested hother post).trans rfl, hview, rfl,
    fun hsame => ?_⟩
  have hkey : ("secret" : String) = idField := hiff.mp hsame ("secret", .bool true) (by simp [post])
  exact absurd hkey (by decide)

end Filter

end DocStore
