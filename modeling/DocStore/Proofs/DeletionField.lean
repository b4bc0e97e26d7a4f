import DocStore.Lifecycle.Deletion
import DocStore.Proofs.OwnedFields
import DocStore.Proofs.ShownWrites
import DocStore.Proofs.UpdateParts

/-! # The deletion field in updates

An update that does not mention the deletion field compiles to the same update whether the policy
keeps the field or not, and no document is hidden or shown by it. The update that stands for a
deletion hides every document that it is applied to. -/

namespace DocStore

/-- The policy that keeps the same fields but for the deletion time. -/
def Policy.withoutDeletion (policy : Policy) : Policy := { policy with deleted := false }

/-- Whether an update **does not mention a field**: not as a field to write, not in the bucket of an
operator, and not as the target of a renaming. -/
def UpdateSpec.Avoids (field : String) (spec : Document) : Prop :=
  field ∉ Entries.keys spec ∧
    ∀ operator bucket, isOperator operator = true → (operator, Value.document bucket) ∈ spec →
      Update.Spares field operator bucket

namespace UpdateSpec

open Update (Operator Spares)

variable {policy : Policy}

/-! ## Compilation with and without the deletion field -/

theorem ownedFields_eq (h : policy.deleted = true) :
    policy.ownedFields = policy.withoutDeletion.ownedFields ++ [deletedField] := by
  rw [Policy.ownedFields, Policy.ownedFields, Policy.withoutDeletion, h, if_pos rfl,
    if_neg Bool.false_ne_true, List.append_nil]

/-- Nothing is stripped for a field that is absent. -/
theorem stripFields_eq (h : policy.deleted = true) {bucket : Document}
    (habsent : deletedField ∉ Entries.keys bucket) (operator : String) :
    stripFields policy operator bucket = stripFields policy.withoutDeletion operator bucket := by
  have hcontains : Entries.contains bucket deletedField = false := by
    rwa [← Bool.not_eq_true, Entries.contains_iff]
  rw [stripFields, stripFields, ownedFields_eq h, List.filter_append, List.filter_singleton,
    hcontains, cond_false, List.append_nil]

/-- Nothing is stripped for a target that no renaming has. -/
theorem stripRenames_eq (h : policy.deleted = true) {bucket : Document}
    (htargets : ∀ entry ∈ bucket, entry.2 ≠ .string deletedField) :
    stripRenames policy bucket = stripRenames policy.withoutDeletion bucket := by
  have hsame : ∀ entry ∈ bucket,
      renamesOntoOwned policy entry.2 = renamesOntoOwned policy.withoutDeletion entry.2 := by
    rintro ⟨source, target⟩ hmem
    cases target with
    | string target =>
      have hne : target ≠ deletedField := fun heq =>
        htargets _ hmem (congrArg Value.string heq)
      rw [renamesOntoOwned, renamesOntoOwned, Policy.owns, Policy.owns, ownedFields_eq h,
        List.contains_eq_mem, List.contains_eq_mem]
      simp [hne]
    | _ => rfl
  rw [stripRenames, stripRenames]
  have hdropped : (bucket.filter fun entry => renamesOntoOwned policy entry.2)
      = bucket.filter fun entry => renamesOntoOwned policy.withoutDeletion entry.2 :=
    List.filter_congr hsame
  have hkept : (bucket.filter fun entry => !renamesOntoOwned policy entry.2)
      = bucket.filter fun entry => !renamesOntoOwned policy.withoutDeletion entry.2 :=
    List.filter_congr fun entry hmem => by rw [hsame entry hmem]
  rw [hdropped, hkept]

/-- A bucket that spares the deletion field is stripped alike. -/
theorem strip_eq (h : policy.deleted = true) {operator : String} {bucket : Document}
    (hspares : Spares deletedField operator bucket) :
    strip policy operator bucket = strip policy.withoutDeletion operator bucket := by
  rw [strip, strip, stripFields_eq h hspares.1]
  by_cases hrename : operator = Operator.rename.key
  · have htargets : ∀ entry ∈ (stripFields policy.withoutDeletion operator bucket).2,
        entry.2 ≠ .string deletedField := fun entry hmem =>
      hspares.2 hrename entry (Entries.mem_of_mem_foldl_remove hmem)
    simp only [if_pos hrename, stripRenames_eq h htargets]
  · simp only [if_neg hrename]

/-- Buckets that spare the deletion field are stripped alike. -/
theorem stripAll_eq (h : policy.deleted = true) {entries : List (String × Value)}
    (hspares : ∀ operator bucket, (operator, Value.document bucket) ∈ entries →
      Spares deletedField operator bucket) :
    stripAll policy entries = stripAll policy.withoutDeletion entries := by
  induction entries with
  | nil => rfl
  | cons entry rest ih =>
    obtain ⟨operator, operand⟩ := entry
    have hrest := ih fun operator bucket hmem =>
      hspares operator bucket (List.mem_cons_of_mem _ hmem)
    cases operand with
    | document bucket =>
      rw [stripAll, stripAll, strip_eq h (hspares operator bucket List.mem_cons_self), hrest]
    | _ => rfl

/-- The parts of an update that avoids a field spare it. -/
theorem spares_split {field : String} {spec set others : Document} (h : Avoids field spec)
    (hsplit : split spec = .ok (set, others)) :
    Spares field Operator.set.key set ∧
      ∀ operator bucket, (operator, Value.document bucket) ∈ others →
        Spares field operator bucket := by
  have hrename : Operator.set.key ≠ Operator.rename.key := by decide
  rw [split] at hsplit
  rcases style_cases spec with ⟨-, hstyle⟩ | ⟨-, hstyle⟩ | ⟨-, hoperators, hstyle⟩
  · rw [hstyle] at hsplit
    cases hsplit
  · rw [hstyle] at hsplit
    cases hsplit
    exact ⟨⟨h.1, fun heq => absurd heq hrename⟩, fun _ _ hmem => absurd hmem List.not_mem_nil⟩
  · rw [hstyle] at hsplit
    -- all keys of the update are operators, so each bucket spares the field
    have hothers : ∀ operator bucket,
        (operator, Value.document bucket) ∈ Entries.remove spec Operator.set.key →
        Spares field operator bucket := fun operator bucket hmem => by
      have hold := Entries.mem_of_mem_remove hmem
      exact h.2 operator bucket (hoperators operator (List.mem_map_of_mem hold)) hold
    dsimp only at hsplit
    split at hsplit
    · cases hsplit
      exact ⟨⟨List.not_mem_nil, fun heq => absurd heq hrename⟩, hothers⟩
    · rename_i bucket hset
      cases hsplit
      exact ⟨h.2 _ _ (by rfl) (Entries.mem_of_get? hset), hothers⟩
    · cases hsplit

/-- An update that deletes nothing is stamped alike. -/
theorem stamped_eq (hmodified : policy.modified = true) {context : UpdateContext}
    (hsoft : context.softDelete = false) (now : DateTime) (buckets : Buckets) :
    stamped policy context now buckets = stamped policy.withoutDeletion context now buckets := by
  have hstamps : ∀ bucket,
      timeStamps policy context bucket = timeStamps policy.withoutDeletion context bucket := by
    intro bucket
    rw [timeStamps, timeStamps, hsoft, Bool.and_false, Bool.and_false]
    rfl
  have hactive : policy.isActive = true := by
    rw [Policy.isActive, hmodified, Bool.or_true, Bool.true_or]
  have hactive' : policy.withoutDeletion.isActive = true := by
    rw [Policy.isActive, Policy.withoutDeletion, hmodified, Bool.or_true, Bool.true_or]
  rw [stamped, stamped, hactive, hactive', hstamps]
  rfl

/-- **Compilation with and without the deletion field**: an update that avoids the field compiles to
the same update, or to the same error. -/
theorem compile_eq (hmodified : policy.modified = true) (hdeleted : policy.deleted = true)
    {context : UpdateContext} (hsoft : context.softDelete = false) (now : DateTime)
    {spec : Document} (h : Avoids deletedField spec) :
    compile policy context now spec = compile policy.withoutDeletion context now spec := by
  rw [compile, compile]
  cases hsplit : split spec with
  | error error => rfl
  | ok parts =>
    obtain ⟨set, others⟩ := parts
    obtain ⟨hset, hothers⟩ := spares_split h hsplit
    have hstamped : ∀ buckets, stamped policy context now buckets
        = stamped policy.withoutDeletion context now buckets := stamped_eq hmodified hsoft now
    dsimp only
    rw [strip_eq hdeleted hset, stripAll_eq hdeleted hothers]
    simp only [hstamped]

/-! ## What an update does to the deletion field -/

/-- A compiled update that deletes nothing hides nothing, whenever it is applied. -/
theorem keepsShown_of_compile (hdeleted : policy.deleted = true) {context : UpdateContext}
    (hsoft : context.softDelete = false) {compiledAt : DateTime} {spec update : Document}
    (hcompile : (compile policy context compiledAt spec).2 = .ok update) (now : DateTime) :
    Collection.KeepsShown now update := by
  intro doc doc' happly
  exact Document.isShown_congr (get?_deletedField_of_compile hdeleted hsoft hcompile happly)

end UpdateSpec

/-! ## The update that stands for a deletion -/

/-- What a document holds has its equal in a document that contains it. -/
theorem Value.exists_equal_of_containedIn {fields other : Document} {key : String} {value : Value}
    (h : Value.containedIn fields other = true) (hvalue : Entries.get? fields key = some value) :
    ∃ stored, Entries.get? other key = some stored ∧ value.equal stored = true := by
  induction fields with
  | nil => cases hvalue
  | cons entry rest ih =>
    obtain ⟨k, first⟩ := entry
    rw [Value.containedIn, Bool.and_eq_true] at h
    rw [Entries.get?_cons] at hvalue
    by_cases hk : k = key
    · rw [if_pos hk, Option.some.injEq] at hvalue
      obtain ⟨hfirst, -⟩ := h
      rw [hk, hvalue] at hfirst
      cases hget : Entries.get? other key with
      | none => rw [hget] at hfirst; cases hfirst
      | some stored => rw [hget] at hfirst; exact ⟨stored, rfl, hfirst⟩
    · rw [if_neg hk] at hvalue
      exact ih h.2 hvalue

/-- Only a time equals a time. -/
theorem Value.eq_of_equal_dateTime {value : Value} {at_ : DateTime}
    (h : value.equal (.dateTime at_) = true) : value = .dateTime at_ := by
  cases value with
  | dateTime own => rw [Value.equal, decide_eq_true_eq] at h; rw [h]
  | _ => cases h

/-- The stamp of a deletion. -/
def deletionStamp : Document :=
  [(Update.Operator.currentDate.key,
    .document [(modifiedField, .bool true), (deletedField, .bool true)])]

/-- **The update that stands for a deletion** stamps the modification and the deletion time. -/
theorem deletionUpdate_eq {policy : Policy} (hmodified : policy.modified = true)
    (hdeleted : policy.deleted = true) (now : DateTime) :
    policy.deletionUpdate now = .ok (some deletionStamp) := by
  obtain ⟨created, modified, deleted⟩ := policy
  cases hmodified
  cases hdeleted
  cases created <;> rfl

/-- A shown document is not equal to what the stamp of a deletion makes of it: it has no field for
the deletion time, or something else there. -/
theorem equal_stampAll_eq_false {doc : Document} (hshown : doc.isShown = true) (now : DateTime) :
    doc.equal (Update.stampAll doc [modifiedField, deletedField] (.dateTime now)) = false := by
  rw [← Bool.not_eq_true, Document.equal, Bool.and_eq_true, beq_iff_eq]
  rintro ⟨hlength, hcontained⟩
  -- a field that is missing makes the stamped document longer; one that is there is no time
  cases hget : Entries.get? doc deletedField with
  | none =>
    have habsent : deletedField ∉ Entries.keys (Entries.insert doc modifiedField
        (.dateTime now)) := by
      rw [← Entries.get?_eq_none_iff, Entries.get?_insert_of_ne _ _ (by decide), hget]
    have hstamped : Update.stampAll doc [modifiedField, deletedField] (.dateTime now)
        = Entries.insert (Entries.insert doc modifiedField (.dateTime now)) deletedField
          (.dateTime now) := rfl
    rw [hstamped, Entries.length_insert, if_neg habsent, Entries.length_insert] at hlength
    split at hlength <;> omega
  | some value =>
    obtain ⟨stored, hstored, hequal⟩ := Value.exists_equal_of_containedIn hcontained hget
    rw [Update.get?_stampAll, if_pos (by decide), Option.some.injEq] at hstored
    rw [← hstored] at hequal
    rw [Value.eq_of_equal_dateTime hequal] at hget
    rw [(Document.isShown_eq_false_iff doc).mpr ⟨now, hget⟩] at hshown
    cases hshown

/-- **A deletion hides** every document that it is applied to. -/
theorem hides_deletionStamp (now : DateTime) : Collection.Hides now deletionStamp := by
  intro doc
  refine ⟨Update.stampAll doc [modifiedField, deletedField] (.dateTime now), rfl, ?_,
    fun hshown => equal_stampAll_eq_false hshown now⟩
  rw [Document.isShown_eq_false_iff]
  exact ⟨now, by rw [Update.get?_stampAll, if_pos (by decide)]⟩

end DocStore
