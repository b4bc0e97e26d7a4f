import DocStore.Proofs.Entries
import DocStore.Update.Apply

/-! # What an update leaves alone

A frame law for updates: a field that no bucket names, as a key or as the target of a renaming,
holds after the update what it held before. Entries of an update act one after the other, so an
update in two parts is applied in two steps. -/

namespace DocStore

namespace Update

/-! ## Keys of operators -/

/-- The key of an operator names it. -/
theorem Operator.ofKey?_key (operator : Operator) :
    Operator.ofKey? operator.key = some operator := by
  cases operator <;> rfl

theorem Operator.key_inj {operator other : Operator} (h : operator.key = other.key) :
    operator = other := by
  have hname := congrArg Operator.ofKey? h
  rw [ofKey?_key, ofKey?_key] at hname
  exact Option.some.inj hname

/-! ## Updates in parts -/

/-- An update in two parts is applied in two steps. -/
theorem apply_append (occasion : Occasion) (first second : Document) (doc : Document) :
    apply occasion (first ++ second) doc
      = (apply occasion first doc).bind (apply occasion second) := by
  induction first generalizing doc with
  | nil => rfl
  | cons entry rest ih =>
    obtain ⟨key, operand⟩ := entry
    rw [List.cons_append, apply, apply]
    cases applyEntry occasion key operand doc with
    | error fault => rfl
    | ok next => exact ih next

/-- An update of one entry with a bucket. -/
theorem apply_singleton (occasion : Occasion) (operator : Operator) (bucket doc : Document) :
    apply occasion [(operator.key, .document bucket)] doc = operator.apply occasion bucket doc := by
  rw [apply, applyEntry, Operator.ofKey?_key]
  dsimp only
  cases operator.apply occasion bucket doc <;> rfl

/-- What is applied is an operator with its bucket. -/
theorem applyEntry_eq_ok {occasion : Occasion} {key : String} {operand : Value}
    {doc doc' : Document} (h : applyEntry occasion key operand doc = .ok doc') :
    ∃ operator bucket, key = operator.key ∧ operand = .document bucket ∧
      Operator.apply operator occasion bucket doc = .ok doc' := by
  unfold applyEntry at h
  split at h
  · rename_i bucket
    split at h
    · rename_i operator hkey
      refine ⟨operator, bucket, ?_, rfl, h⟩
      unfold Operator.ofKey? at hkey
      split at hkey <;> first | (cases hkey; rfl) | cases hkey
    · cases h
  · cases h

/-! ## Stamps -/

/-- What a field holds after one value is written to many fields. -/
theorem get?_stampAll (doc : Document) (fields : List String) (value : Value) (field : String) :
    Entries.get? (stampAll doc fields value) field
      = if field ∈ fields then some value else Entries.get? doc field := by
  induction fields generalizing doc with
  | nil => simp [stampAll]
  | cons first rest ih =>
    have hstep : stampAll doc (first :: rest) value
        = stampAll (Entries.insert doc first value) rest value := rfl
    rw [hstep, ih, Entries.get?_insert]
    by_cases hr : field ∈ rest
    · simp [hr]
    · by_cases hf : field = first <;> simp [hr, hf]

/-! ## The frame of an update -/

/-- Whether the bucket of an operator leaves a field alone: no entry has its name, and no entry
renames another field to it. -/
def Spares (field operator : String) (bucket : Document) : Prop :=
  field ∉ Entries.keys bucket ∧
    (operator = Operator.rename.key → ∀ entry ∈ bucket, entry.2 ≠ .string field)

/-- Adding amounts to other fields leaves a field as it is. -/
theorem get?_incrementAll {bucket doc doc' : Document} {field : String}
    (h : field ∉ Entries.keys bucket) (happly : incrementAll bucket doc = .ok doc') :
    Entries.get? doc' field = Entries.get? doc field := by
  induction bucket generalizing doc with
  | nil =>
    rw [incrementAll, Except.ok.injEq] at happly
    rw [happly]
  | cons entry rest ih =>
    obtain ⟨key, amount⟩ := entry
    rw [Entries.keys_cons, List.mem_cons, not_or] at h
    rw [incrementAll] at happly
    cases hsum : increment key (Entries.get? doc key) amount with
    | error fault => rw [hsum] at happly; cases happly
    | ok sum =>
      rw [hsum] at happly
      rw [ih h.2 happly, Entries.get?_insert_of_ne _ _ h.1]

/-- Moving other fields to other names leaves a field as it is. -/
theorem get?_renameAll {bucket doc doc' : Document} {field : String}
    (h : field ∉ Entries.keys bucket) (htarget : ∀ entry ∈ bucket, entry.2 ≠ .string field)
    (happly : renameAll bucket doc = .ok doc') :
    Entries.get? doc' field = Entries.get? doc field := by
  fun_induction renameAll bucket doc with
  | case1 doc =>
    rw [Except.ok.injEq] at happly
    rw [happly]
  | case2 source target rest doc value hsource ih =>
    rw [Entries.keys_cons, List.mem_cons, not_or] at h
    -- the value moves away from another field and on to another field
    have hne : field ≠ target := fun heq =>
      htarget (source, .string target) List.mem_cons_self (by rw [heq])
    have hrest := ih h.2 (fun entry hmem => htarget entry (List.mem_cons_of_mem _ hmem)) happly
    rw [hrest, Entries.get?_insert_of_ne _ _ hne, Entries.get?_remove_of_ne _ h.1]
  | case3 source target rest doc hsource ih =>
    rw [Entries.keys_cons, List.mem_cons, not_or] at h
    exact ih h.2 (fun entry hmem => htarget entry (List.mem_cons_of_mem _ hmem)) happly
  | case4 => cases happly

/-- An operator whose bucket spares a field leaves it as it is. -/
theorem get?_operatorApply {operator : Operator} {occasion : Occasion} {bucket doc doc' : Document}
    {field : String} (h : Spares field operator.key bucket)
    (happly : operator.apply occasion bucket doc = .ok doc') :
    Entries.get? doc' field = Entries.get? doc field := by
  obtain ⟨hkeys, htargets⟩ := h
  cases operator with
  | set =>
    cases happly
    exact Entries.get?_insertAll_of_absent doc bucket hkeys
  | setOnInsert =>
    cases happly
    split
    · exact Entries.get?_insertAll_of_absent doc bucket hkeys
    · rfl
  | unset =>
    cases happly
    rw [removeAll, Entries.get?_foldl_remove, if_neg hkeys]
  | inc => exact get?_incrementAll hkeys happly
  | currentDate =>
    cases happly
    rw [get?_stampAll, if_neg hkeys]
  | rename => exact get?_renameAll hkeys (htargets rfl) happly

/-- **The frame of an update**: a field that every bucket spares holds what it held before. -/
theorem get?_apply_of_spares {occasion : Occasion} {update doc doc' : Document} {field : String}
    (h : ∀ key bucket, (key, Value.document bucket) ∈ update → Spares field key bucket)
    (happly : apply occasion update doc = .ok doc') :
    Entries.get? doc' field = Entries.get? doc field := by
  induction update generalizing doc with
  | nil =>
    rw [apply, Except.ok.injEq] at happly
    rw [happly]
  | cons entry rest ih =>
    obtain ⟨key, operand⟩ := entry
    rw [apply] at happly
    cases hentry : applyEntry occasion key operand doc with
    | error fault => rw [hentry] at happly; cases happly
    | ok next =>
      rw [hentry] at happly
      rw [ih (fun k b hmem => h k b (List.mem_cons_of_mem _ hmem)) happly]
      obtain ⟨operator, bucket, rfl, rfl, hoperator⟩ := applyEntry_eq_ok hentry
      exact get?_operatorApply (h operator.key bucket List.mem_cons_self) hoperator

end Update

end DocStore
