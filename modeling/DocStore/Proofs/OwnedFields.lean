import DocStore.Lifecycle.UpdateSpec
import DocStore.Proofs.UpdateFrame

/-! # Lifecycle fields under compiled updates

Compilation strips what the caller says about a field that the policy keeps and puts its own stamps
behind everything else. A compiled update therefore has three parts: what is left of the caller's
operators, which spare every field of the policy, then the stamps of the time, then the creation
stamp of a new document. `UpdateSpec.get?_apply_compile` reads off what each field of the policy
holds in the end (`UpdateSpec.ownedAfter`). -/

namespace DocStore

/-- The fields that a policy keeps. -/
theorem Policy.owns_iff {policy : Policy} {field : String} :
    policy.owns field = true ↔
      (policy.created = true ∧ field = createdField) ∨
        (policy.modified = true ∧ field = modifiedField) ∨
          (policy.deleted = true ∧ field = deletedField) := by
  obtain ⟨created, modified, deleted⟩ := policy
  cases created <;> cases modified <;> cases deleted <;> simp [owns, ownedFields]

/-- The fields that a policy does not keep. -/
theorem Policy.owns_eq_false_iff {policy : Policy} {field : String} :
    policy.owns field = false ↔
      ¬ (policy.created = true ∧ field = createdField) ∧
        ¬ (policy.modified = true ∧ field = modifiedField) ∧
          ¬ (policy.deleted = true ∧ field = deletedField) := by
  rw [← Bool.not_eq_true, owns_iff, not_or, not_or]

/-- A policy that hides documents keeps the deletion field. -/
theorem Policy.owns_deletedField {policy : Policy} (h : policy.deleted = true) :
    policy.owns deletedField = true :=
  owns_iff.mpr (Or.inr (Or.inr ⟨h, rfl⟩))

namespace UpdateSpec

open Update (Operator Occasion Spares)

/-! ## Stripping -/

/-- The bucket that stripping leaves. -/
theorem strip_snd (policy : Policy) (operator : String) (bucket : Document) :
    (strip policy operator bucket).2
      = if operator = Operator.rename.key then
          (stripRenames policy (stripFields policy operator bucket).2).2
        else (stripFields policy operator bucket).2 := by
  rw [strip]
  by_cases h : operator = Operator.rename.key
  · simp only [if_pos h]
  · simp only [if_neg h]

/-- Stripping leaves no entry of a field that the policy keeps. -/
theorem not_mem_keys_stripFields {policy : Policy} {field : String} (h : policy.owns field = true)
    (operator : String) (bucket : Document) :
    field ∉ Entries.keys (stripFields policy operator bucket).2 := by
  rw [← Entries.get?_eq_none_iff, stripFields, Entries.get?_foldl_remove]
  by_cases hb : Entries.contains bucket field = true
  · have hmem : field ∈ policy.ownedFields.filter fun field => Entries.contains bucket field :=
      List.mem_filter.mpr ⟨by simpa [Policy.owns] using h, hb⟩
    rw [if_pos hmem]
  · rw [Entries.contains_iff, ← Entries.get?_eq_none_iff] at hb
    rw [hb, ite_self]

/-- A stripped bucket spares every field that the policy keeps. -/
theorem spares_strip {policy : Policy} {field : String} (h : policy.owns field = true)
    (operator : String) (bucket : Document) :
    Spares field operator (strip policy operator bucket).2 := by
  have hkeys := not_mem_keys_stripFields h operator bucket
  rw [strip_snd]
  by_cases hop : operator = Operator.rename.key
  · rw [if_pos hop]
    refine ⟨fun hmem => ?_, fun _ entry hmem htarget => ?_⟩
    · obtain ⟨entry, hentry, hname⟩ := List.mem_map.mp hmem
      exact hkeys (List.mem_map.mpr ⟨entry, (List.mem_filter.mp hentry).1, hname⟩)
    · have hkept := (List.mem_filter.mp hmem).2
      rw [htarget, renamesOntoOwned, h] at hkept
      cases hkept
  · rw [if_neg hop]
    exact ⟨hkeys, fun hrename => absurd hrename hop⟩

/-- Every stripped bucket is what stripping leaves of an operand. -/
theorem exists_of_mem_stripAll {policy : Policy} {entries : List (String × Value)}
    {buckets : Buckets} (hok : (stripAll policy entries).2 = .ok buckets) {operator : String}
    {bucket : Document} (hmem : (operator, bucket) ∈ buckets) :
    ∃ own, (operator, .document own) ∈ entries ∧ bucket = (strip policy operator own).2 := by
  induction entries generalizing buckets with
  | nil =>
    rw [stripAll] at hok
    cases hok
    cases hmem
  | cons entry rest ih =>
    obtain ⟨name, operand⟩ := entry
    cases operand with
    | document own =>
      rw [stripAll] at hok
      cases hrest : (stripAll policy rest).2 with
      | error error =>
        simp only [hrest, Except.map] at hok
        cases hok
      | ok others =>
        simp only [hrest, Except.map, Except.ok.injEq] at hok
        subst hok
        -- the first operand leaves a bucket in front of the others, or none
        have hcases : (operator, bucket) = (name, (strip policy name own).2) ∨
            (operator, bucket) ∈ others := by
          split at hmem
          · exact Or.inr hmem
          · exact List.mem_cons.mp hmem
        rcases hcases with heq | hlater
        · cases heq
          exact ⟨own, List.mem_cons_self, rfl⟩
        · obtain ⟨found, hfound, heq⟩ := ih hrest hlater
          exact ⟨found, List.mem_cons_of_mem _ hfound, heq⟩
    | _ =>
      rw [stripAll] at hok
      · cases hok
      · simp

/-- All stripped buckets spare every field that the policy keeps. -/
theorem spares_stripAll {policy : Policy} {field : String} (h : policy.owns field = true)
    {entries : List (String × Value)} {buckets : Buckets}
    (hok : (stripAll policy entries).2 = .ok buckets) {operator : String} {bucket : Document}
    (hmem : (operator, bucket) ∈ buckets) : Spares field operator bucket := by
  obtain ⟨own, -, rfl⟩ := exists_of_mem_stripAll hok hmem
  exact spares_strip h operator own

/-- Moving an operator to the end adds nothing but its own bucket. -/
theorem mem_moveToEnd {buckets : Buckets} {operator : Operator} {own : Document}
    {entry : String × Document} (h : entry ∈ moveToEnd buckets operator own) :
    entry ∈ buckets ∨ entry = (operator.key, own) := by
  rw [moveToEnd] at h
  split at h
  · exact Or.inl (Entries.mem_of_mem_remove h)
  · rcases List.mem_append.mp h with hold | hnew
    · exact Or.inl (Entries.mem_of_mem_remove hold)
    · exact Or.inr (List.mem_singleton.mp hnew)

/-! ## The parts of a compiled update -/

/-- The stamps of the time that an update carries. -/
def dateStamps (policy : Policy) (context : UpdateContext) (buckets : Buckets) : Buckets :=
  if policy.isActive then
    let bucket := timeStamps policy context (bucketOf buckets .currentDate)
    if bucket.isEmpty then [] else [(Operator.currentDate.key, bucket)]
  else []

/-- The creation stamp that an update carries for a new document. -/
def creationStamps (policy : Policy) (context : UpdateContext) (now : DateTime)
    (buckets : Buckets) : Buckets :=
  if policy.created && decide (context.created = .onInsert) then
    [(Operator.setOnInsert.key,
      Entries.insert (bucketOf buckets .setOnInsert) createdField (.dateTime now))]
  else []

theorem insert_ne_nil (entries : Document) (key : String) (value : Value) :
    (Entries.insert entries key value).isEmpty = false := by
  cases entries with
  | nil => rfl
  | cons entry rest =>
    obtain ⟨k, old⟩ := entry
    rw [Entries.insert]
    split <;> rfl

/-- The bucket of one operator does not change when another is moved to the end. -/
theorem bucketOf_moveToEnd {operator other : Operator} (h : operator.key ≠ other.key)
    (buckets : Buckets) (bucket : Document) :
    bucketOf (moveToEnd buckets other bucket) operator = bucketOf buckets operator := by
  rw [bucketOf, bucketOf, moveToEnd]
  split
  · rw [Entries.get?_remove_of_ne _ h]
  · rw [Entries.get?_append, Entries.get?_remove_of_ne _ h, Entries.get?_cons, if_neg (Ne.symm h)]
    simp

/-- **The parts of stamped buckets**: some of the buckets as they are, the stamps of the time, and
the creation stamp. -/
theorem exists_stamped_eq (policy : Policy) (context : UpdateContext) (now : DateTime)
    (buckets : Buckets) :
    ∃ others : Buckets, (∀ entry ∈ others, entry ∈ buckets) ∧
      stamped policy context now buckets
        = others ++ (dateStamps policy context buckets
          ++ creationStamps policy context now buckets) := by
  -- first the stamps of the time go to the end, behind what is left of the buckets
  have hdate : ∃ others : Buckets, (∀ entry ∈ others, entry ∈ buckets) ∧
      (if policy.isActive then
        moveToEnd buckets .currentDate (timeStamps policy context (bucketOf buckets .currentDate))
      else buckets) = others ++ dateStamps policy context buckets := by
    by_cases hactive : policy.isActive = true
    · refine ⟨Entries.remove buckets Operator.currentDate.key,
        fun entry => Entries.mem_of_mem_remove, ?_⟩
      rw [if_pos hactive, dateStamps, if_pos hactive, moveToEnd]
      dsimp only
      split <;> simp
    · exact ⟨buckets, fun _ h => h, by rw [if_neg hactive, dateStamps, if_neg hactive]; simp⟩
  obtain ⟨others, hsub, heq⟩ := hdate
  -- the creation stamp joins a bucket that this has not changed
  have hbucket : bucketOf (others ++ dateStamps policy context buckets) .setOnInsert
      = bucketOf buckets .setOnInsert := by
    rw [← heq]
    split
    · exact bucketOf_moveToEnd (by decide) _ _
    · rfl
  rw [stamped, heq, hbucket]
  by_cases hinsert : (policy.created && decide (context.created = .onInsert)) = true
  · refine ⟨Entries.remove others Operator.setOnInsert.key,
      fun entry h => hsub entry (Entries.mem_of_mem_remove h), ?_⟩
    -- moving it to the end drops its old bucket and leaves the stamps of the time
    have hkeep : Entries.remove (dateStamps policy context buckets) Operator.setOnInsert.key
        = dateStamps policy context buckets := by
      rw [dateStamps]
      dsimp only
      split
      · split
        · rfl
        · rfl
      · rfl
    rw [if_pos hinsert, creationStamps, if_pos hinsert, moveToEnd, insert_ne_nil,
      if_neg Bool.false_ne_true, Entries.remove, List.filter_append]
    rw [Entries.remove] at hkeep
    rw [hkeep, List.append_assoc]
    rfl
  · exact ⟨others, hsub, by
      rw [if_neg hinsert, creationStamps, if_neg hinsert, List.append_nil]⟩

/-- **The buckets of a compiled update**: what is left of the other operators, then what is left of
`$set`, with the stamps of the policy. -/
theorem exists_parts_of_compile {policy : Policy} {context : UpdateContext} {now : DateTime}
    {spec update : Document} (h : (compile policy context now spec).2 = .ok update) :
    ∃ set others buckets, split spec = .ok (set, others) ∧
      (stripAll policy others).2 = .ok buckets ∧
      update = toDocument (stamped policy context now
        (moveToEnd buckets .set (strip policy Operator.set.key set).2)) := by
  rw [compile] at h
  cases hsplit : split spec with
  | error error => rw [hsplit] at h; cases h
  | ok parts =>
    obtain ⟨set, others⟩ := parts
    rw [hsplit] at h
    dsimp only at h
    cases hall : (stripAll policy others).2 with
    | error error => rw [hall] at h; cases h
    | ok buckets =>
      rw [hall] at h
      refine ⟨set, others, buckets, rfl, hall, ?_⟩
      simp only [Except.bind, finish] at h
      split at h
      · cases h
      · cases h
        rfl

/-- A compiled update is made of stamped buckets that spare every field of the policy. -/
theorem exists_buckets_of_compile {policy : Policy} {context : UpdateContext} {now : DateTime}
    {spec update : Document} (h : (compile policy context now spec).2 = .ok update) :
    ∃ buckets : Buckets, update = toDocument (stamped policy context now buckets) ∧
      ∀ field, policy.owns field = true →
        ∀ operator bucket, (operator, bucket) ∈ buckets → Spares field operator bucket := by
  obtain ⟨set, others, buckets, -, hall, hupdate⟩ := exists_parts_of_compile h
  refine ⟨moveToEnd buckets .set (strip policy Operator.set.key set).2, hupdate, ?_⟩
  intro field howns operator bucket hmem
  rcases mem_moveToEnd hmem with hold | hnew
  · exact spares_stripAll howns hall hold
  · rw [Prod.mk.injEq] at hnew
    rw [hnew.1, hnew.2]
    exact spares_strip howns _ set

/-! ## What a compiled update leaves in a field of the policy -/

/-- What a field of the policy holds after an update that was compiled at one time and applied on
an occasion: a new document is stamped with the time of compilation, every other stamp is the time
of the occasion, and where there is no stamp the field keeps what it held `before`. -/
def ownedAfter (policy : Policy) (context : UpdateContext) (compiledAt : DateTime)
    (occasion : Occasion) (field : String) (before : Option Value) : Option Value :=
  if policy.created = true ∧ context.created = .onInsert ∧ occasion.inserting = true
      ∧ field = createdField then some (.dateTime compiledAt)
  else if field ∈ Entries.keys (timeStamps policy context []) then
    some (.dateTime occasion.now)
  else before

/-- The deletion field is stamped by a deletion and by nothing else. -/
theorem ownedAfter_deletedField (policy : Policy) (context : UpdateContext)
    (compiledAt : DateTime) (occasion : Occasion) (before : Option Value) :
    ownedAfter policy context compiledAt occasion deletedField before
      = if (policy.deleted && context.softDelete) = true then some (.dateTime occasion.now)
        else before := by
  have hcreated : deletedField ≠ createdField := by decide
  have hmodified : deletedField ≠ modifiedField := by decide
  have hstamped : deletedField ∈ Entries.keys (timeStamps policy context [])
      ↔ (policy.deleted && context.softDelete) = true := by
    simp [timeStamps, Entries.mem_keys_insertIf, hcreated, hmodified]
  rw [ownedAfter, if_neg fun hall => hcreated hall.2.2.2]
  simp only [hstamped]

/-- The modification field is stamped by every update of a policy that keeps it. -/
theorem ownedAfter_modifiedField {policy : Policy} (h : policy.modified = true)
    (context : UpdateContext) (compiledAt : DateTime) (occasion : Occasion)
    (before : Option Value) :
    ownedAfter policy context compiledAt occasion modifiedField before
      = some (.dateTime occasion.now) := by
  have hcreated : modifiedField ≠ createdField := by decide
  have hstamped : modifiedField ∈ Entries.keys (timeStamps policy context []) := by
    simp [timeStamps, Entries.mem_keys_insertIf, h]
  rw [ownedAfter, if_neg fun hall => hcreated hall.2.2.2, if_pos hstamped]

/-- What the creation field holds after an update of a policy that keeps it: a new document gets
the time of compilation if the update may store one, a restamped one the time of the occasion, and
every other document keeps what it has. -/
def createdAfter (context : UpdateContext) (compiledAt : DateTime) (occasion : Occasion)
    (before : Option Value) : Option Value :=
  match context.created with
  | .never => before
  | .onInsert => if occasion.inserting then some (.dateTime compiledAt) else before
  | .restamp => some (.dateTime occasion.now)

/-- The creation field is stamped as the context says and in no other way. -/
theorem ownedAfter_createdField {policy : Policy} (h : policy.created = true)
    (context : UpdateContext) (compiledAt : DateTime) (occasion : Occasion)
    (before : Option Value) :
    ownedAfter policy context compiledAt occasion createdField before
      = createdAfter context compiledAt occasion before := by
  have hmodified : createdField ≠ modifiedField := by decide
  have hdeleted : createdField ≠ deletedField := by decide
  have hstamped : createdField ∈ Entries.keys (timeStamps policy context [])
      ↔ context.created = .restamp := by
    simp [timeStamps, Entries.mem_keys_insertIf, hmodified, hdeleted, h]
  rw [ownedAfter, createdAfter]
  simp only [h, hstamped]
  cases context.created with
  | never => simp
  | onInsert => simp
  | restamp => simp

/-- The stamps of the time are added to the fields that a bucket names. -/
theorem mem_keys_timeStamps (policy : Policy) (context : UpdateContext) (bucket : Document)
    (field : String) :
    field ∈ Entries.keys (timeStamps policy context bucket)
      ↔ field ∈ Entries.keys (timeStamps policy context []) ∨ field ∈ Entries.keys bucket := by
  simp only [timeStamps, Entries.mem_keys_insertIf, Entries.keys_nil, List.not_mem_nil, or_false,
    or_assoc]

/-- The stamps of the time are on fields that the policy keeps. -/
theorem not_mem_keys_timeStamps {policy : Policy} {field : String}
    (hunowned : policy.owns field = false) (context : UpdateContext) {bucket : Document}
    (h : field ∉ Entries.keys bucket) : field ∉ Entries.keys (timeStamps policy context bucket) := by
  rw [Policy.owns, List.contains_eq_mem, decide_eq_false_iff_not, Policy.ownedFields] at hunowned
  simp only [List.mem_append, not_or] at hunowned
  obtain ⟨⟨hcreated, hmodified⟩, hdeleted⟩ := hunowned
  rw [timeStamps, Entries.mem_keys_insertIf, Entries.mem_keys_insertIf, Entries.mem_keys_insertIf]
  rintro (⟨hstamp, rfl⟩ | ⟨hstamp, rfl⟩ | ⟨hstamp, rfl⟩ | hold)
  · rw [Bool.and_eq_true] at hstamp
    exact hcreated (by rw [if_pos hstamp.1]; exact List.mem_singleton_self _)
  · rw [Bool.and_eq_true] at hstamp
    exact hdeleted (by rw [if_pos hstamp.1]; exact List.mem_singleton_self _)
  · exact hmodified (by rw [if_pos hstamp]; exact List.mem_singleton_self _)
  · exact h hold

/-- A policy that keeps a field is active. -/
theorem isActive_of_owns {policy : Policy} {field : String} (h : policy.owns field = true) :
    policy.isActive = true := by
  obtain ⟨created, modified, deleted⟩ := policy
  cases created <;> cases modified <;> cases deleted <;>
    first | rfl | (rw [Policy.owns] at h; cases h)

/-- The bucket of an operator spares what all buckets spare. -/
theorem not_mem_keys_bucketOf {buckets : Buckets} {field : String}
    (h : ∀ operator bucket, (operator, bucket) ∈ buckets → Spares field operator bucket)
    (operator : Operator) : field ∉ Entries.keys (bucketOf buckets operator) := by
  rw [bucketOf]
  cases hget : Entries.get? buckets operator.key with
  | none => simp
  | some bucket => exact (h _ _ (Entries.mem_of_get? hget)).1

/-- The stamps of the time write the time to a field of the policy, or leave it as it is. -/
theorem get?_apply_dateStamps {policy : Policy} {context : UpdateContext} {buckets : Buckets}
    {occasion : Occasion} {doc doc' : Document} {field : String} (howns : policy.owns field = true)
    (h : ∀ operator bucket, (operator, bucket) ∈ buckets → Spares field operator bucket)
    (happly : Update.apply occasion (toDocument (dateStamps policy context buckets)) doc
      = .ok doc') :
    Entries.get? doc' field
      = if field ∈ Entries.keys (timeStamps policy context []) then some (.dateTime occasion.now)
        else Entries.get? doc field := by
  have hmem : field ∈ Entries.keys (timeStamps policy context (bucketOf buckets .currentDate))
      ↔ field ∈ Entries.keys (timeStamps policy context []) := by
    rw [mem_keys_timeStamps]
    simp [not_mem_keys_bucketOf h .currentDate]
  rw [dateStamps, if_pos (isActive_of_owns howns)] at happly
  dsimp only at happly
  split at happly
  · rename_i hempty
    rw [List.isEmpty_iff] at hempty
    rw [hempty] at hmem
    cases happly
    rw [if_neg fun hstamp => by simpa using hmem.mpr hstamp]
  · have hbucket := Update.apply_singleton occasion .currentDate
      (timeStamps policy context (bucketOf buckets .currentDate)) doc
    rw [toDocument, List.map_cons, List.map_nil, hbucket, Operator.apply] at happly
    cases happly
    rw [Update.get?_stampAll]
    simp only [hmem]

/-- The creation stamp writes the creation time of a new document and nothing else. -/
theorem get?_apply_creationStamps {policy : Policy} {context : UpdateContext} {now : DateTime}
    {buckets : Buckets} {occasion : Occasion} {doc doc' : Document} {field : String}
    (h : ∀ operator bucket, (operator, bucket) ∈ buckets → Spares field operator bucket)
    (happly : Update.apply occasion (toDocument (creationStamps policy context now buckets)) doc
      = .ok doc') :
    Entries.get? doc' field
      = if policy.created = true ∧ context.created = .onInsert ∧ occasion.inserting = true
          ∧ field = createdField then some (.dateTime now)
        else Entries.get? doc field := by
  rw [creationStamps] at happly
  split at happly
  · rename_i hinsert
    rw [Bool.and_eq_true, decide_eq_true_eq] at hinsert
    have hbucket := Update.apply_singleton occasion .setOnInsert
      (Entries.insert (bucketOf buckets .setOnInsert) createdField (.dateTime now)) doc
    rw [toDocument, List.map_cons, List.map_nil, hbucket, Operator.apply] at happly
    cases happly
    have habsent := not_mem_keys_bucketOf h .setOnInsert
    by_cases hinserting : occasion.inserting = true
    · rw [if_pos hinserting]
      by_cases hfield : field = createdField
      · rw [if_pos ⟨hinsert.1, hinsert.2, hinserting, hfield⟩, hfield]
        rw [hfield] at habsent
        exact Entries.get?_insertAll_insert_of_absent _ _ habsent
      · rw [if_neg fun hall => hfield hall.2.2.2]
        refine Entries.get?_insertAll_of_absent _ _ fun hmem => ?_
        rcases (Entries.mem_keys_insert _ _ _ _).mp hmem with heq | hold
        · exact hfield heq
        · exact habsent hold
    · rw [if_neg hinserting, if_neg fun hall => hinserting hall.2.2.1]
  · rename_i hinsert
    cases happly
    rw [if_neg fun hall => hinsert (by simp [hall.1, hall.2.1])]

/-- **What a compiled update leaves in a field of the policy**, whatever the caller asks for. -/
theorem get?_apply_compile {policy : Policy} {context : UpdateContext} {now : DateTime}
    {spec update : Document} (hcompile : (compile policy context now spec).2 = .ok update)
    {occasion : Occasion} {doc doc' : Document} (happly : Update.apply occasion update doc = .ok doc')
    {field : String} (howns : policy.owns field = true) :
    Entries.get? doc' field
      = ownedAfter policy context now occasion field (Entries.get? doc field) := by
  obtain ⟨buckets, hupdate, hspares⟩ := exists_buckets_of_compile hcompile
  obtain ⟨others, hsub, hparts⟩ := exists_stamped_eq policy context now buckets
  have hown := hspares field howns
  rw [hupdate, hparts, toDocument, List.map_append, List.map_append, Update.apply_append] at happly
  cases hfirst : Update.apply occasion (toDocument others) doc with
  | error fault => rw [toDocument] at hfirst; rw [hfirst] at happly; cases happly
  | ok middle =>
    -- what is left of the caller's operators spares the field
    have hmiddle : Entries.get? middle field = Entries.get? doc field := by
      refine Update.get?_apply_of_spares (fun key bucket hmem => ?_) hfirst
      obtain ⟨entry, hentry, heq⟩ := List.mem_map.mp hmem
      cases heq
      exact hown _ _ (hsub _ hentry)
    rw [toDocument] at hfirst
    rw [hfirst, Except.bind, Update.apply_append] at happly
    cases hdate : Update.apply occasion (toDocument (dateStamps policy context buckets)) middle with
    | error fault => rw [toDocument] at hdate; rw [hdate] at happly; cases happly
    | ok late =>
      -- then come the stamps of the time, and the creation stamp is last
      have hlate := get?_apply_dateStamps howns hown hdate
      rw [toDocument] at hdate
      rw [hdate] at happly
      rw [get?_apply_creationStamps hown happly, hlate, hmiddle, ownedAfter]

/-- A compiled update that deletes nothing leaves the deletion field as it is. -/
theorem get?_deletedField_of_compile {policy : Policy} (hdeleted : policy.deleted = true)
    {context : UpdateContext} (hsoft : context.softDelete = false) {now : DateTime}
    {spec update : Document} (hcompile : (compile policy context now spec).2 = .ok update)
    {occasion : Occasion} {doc doc' : Document}
    (happly : Update.apply occasion update doc = .ok doc') :
    Entries.get? doc' deletedField = Entries.get? doc deletedField := by
  rw [get?_apply_compile hcompile happly (Policy.owns_deletedField hdeleted),
    ownedAfter_deletedField, hsoft, Bool.and_false, if_neg Bool.false_ne_true]

/-- A policy that keeps the modification time keeps its field. -/
theorem owns_modifiedField {policy : Policy} (h : policy.modified = true) :
    policy.owns modifiedField = true :=
  Policy.owns_iff.mpr (Or.inr (Or.inl ⟨h, rfl⟩))

/-- A policy that keeps the creation time keeps its field. -/
theorem owns_createdField {policy : Policy} (h : policy.created = true) :
    policy.owns createdField = true :=
  Policy.owns_iff.mpr (Or.inl ⟨h, rfl⟩)

/-- **The lifecycle fields after one update**, for every policy and every context. Whatever the
caller asks for, a compiled update that is applied to a document stamps the modification time with
the time of the occasion, stamps the deletion time exactly if it stands for a deletion, and stamps
the creation time as the context says; a field that it does not stamp keeps its value or its
absence. -/
theorem lifecycleFields_of_compile {policy : Policy} {context : UpdateContext}
    {compiledAt : DateTime} {spec update : Document}
    (hcompile : (compile policy context compiledAt spec).2 = .ok update) {occasion : Occasion}
    {doc doc' : Document} (happly : Update.apply occasion update doc = .ok doc') :
    (policy.modified = true →
      Entries.get? doc' modifiedField = some (.dateTime occasion.now)) ∧
    (policy.deleted = true →
      Entries.get? doc' deletedField
        = if context.softDelete then some (.dateTime occasion.now)
          else Entries.get? doc deletedField) ∧
    (policy.created = true →
      Entries.get? doc' createdField
        = createdAfter context compiledAt occasion (Entries.get? doc createdField)) := by
  refine ⟨fun hmodified => ?_, fun hdeleted => ?_, fun hcreated => ?_⟩
  · rw [get?_apply_compile hcompile happly (owns_modifiedField hmodified),
      ownedAfter_modifiedField hmodified]
  · rw [get?_apply_compile hcompile happly (Policy.owns_deletedField hdeleted),
      ownedAfter_deletedField, hdeleted, Bool.true_and]
  · rw [get?_apply_compile hcompile happly (owns_createdField hcreated),
      ownedAfter_createdField hcreated]

/-- A caller who forges, moves and removes lifecycle fields in an update that stands for a deletion
and may store a document: a note that is stored is stamped all the same. -/
theorem lifecycleFields_of_compile_forged :
    ∃ (spec update doc doc' : Document),
      (compile ⟨true, true, true⟩ ⟨.onInsert, true⟩ ⟨1000⟩ spec).2 = .ok update ∧
      Update.apply ⟨⟨2000⟩, true⟩ update doc = .ok doc' ∧
      Entries.get? spec "$rename" = some (.document [("title", .string "modified")]) ∧
      Entries.get? doc' modifiedField = some (.dateTime ⟨2000⟩) ∧
      Entries.get? doc' deletedField = some (.dateTime ⟨2000⟩) ∧
      Entries.get? doc' createdField = some (.dateTime ⟨1000⟩) := by
  let spec : Document :=
    [("$setOnInsert", .document [("created", .int32 0)]),
      ("$rename", .document [("title", .string "modified")]),
      ("$unset", .document [("deleted", .null), ("draft", .null)])]
  let doc : Document := [("title", .string "note"), ("draft", .bool true)]
  have hcompile : (compile ⟨true, true, true⟩ ⟨.onInsert, true⟩ ⟨1000⟩ spec).2
      = .ok [("$unset", .document [("draft", .null)]),
          ("$currentDate", .document [("modified", .bool true), ("deleted", .bool true)]),
          ("$setOnInsert", .document [("created", .dateTime ⟨1000⟩)])] := rfl
  have happly : Update.apply ⟨⟨2000⟩, true⟩
      [("$unset", .document [("draft", .null)]),
        ("$currentDate", .document [("modified", .bool true), ("deleted", .bool true)]),
        ("$setOnInsert", .document [("created", .dateTime ⟨1000⟩)])] doc
      = .ok [("title", .string "note"), ("modified", .dateTime ⟨2000⟩),
          ("deleted", .dateTime ⟨2000⟩), ("created", .dateTime ⟨1000⟩)] := rfl
  obtain ⟨hmodified, hdeleted, hcreated⟩ := lifecycleFields_of_compile hcompile happly
  exact ⟨spec, _, doc, _, hcompile, happly, rfl, hmodified rfl, hdeleted rfl, hcreated rfl⟩

end UpdateSpec

end DocStore
