import DocStore.Lifecycle.UpdateSpec
import DocStore.Proofs.Entries
import DocStore.Query.Match
import Mathlib.Data.List.Nodup

/-! # The parts of an update

Compilation reads an update as operators with buckets, and takes the bucket of `$set` apart from the
other operators (`UpdateSpec.split_eq`). It refuses to where there are fields beside operators or
where `$set` has no bucket, and otherwise the two parts make up the update
(`UpdateSpec.perm_or_eq_remove`). -/

namespace DocStore

namespace UpdateSpec

open Update (Operator)

/-! ## Operators with buckets -/

/-- An update as operators with buckets: fields to write are one `$set`. -/
def operatorForm (spec : Document) : Document :=
  match style spec with
  | .ok .fields => [(Operator.set.key, .document spec)]
  | _ => spec

/-- The bucket of an operator in an update; it is empty if there is none. -/
def bucketAt (update : Document) (operator : String) : Document :=
  match Entries.get? update operator with
  | some (.document bucket) => bucket
  | _ => []

theorem bucketAt_of_get? {update bucket : Document} {operator : String}
    (h : Entries.get? update operator = some (.document bucket)) :
    bucketAt update operator = bucket := by
  rw [bucketAt, h]

theorem bucketAt_of_not_mem {update : Document} {operator : String}
    (h : operator ∉ Entries.keys update) : bucketAt update operator = [] := by
  rw [bucketAt, (Entries.get?_eq_none_iff _ _).mpr h]

/-- A bucket that holds something stands in the update. -/
theorem mem_of_bucketAt {update : Document} {operator : String}
    (h : bucketAt update operator ≠ []) :
    (operator, .document (bucketAt update operator)) ∈ update := by
  rw [bucketAt] at h ⊢
  split at h
  · rename_i hget
    exact Entries.mem_of_get? hget
  · exact absurd rfl h

theorem bucketAt_cons (operator : String) (bucket rest : Document) (other : String) :
    bucketAt ((operator, .document bucket) :: rest) other
      = if other = operator then bucket else bucketAt rest other := by
  rw [bucketAt, Entries.get?_cons]
  by_cases hother : other = operator
  · rw [if_pos hother.symm, if_pos hother]
  · rw [if_neg (Ne.symm hother), if_neg hother]
    rfl

theorem bucketAt_remove (update : Document) (operator other : String) :
    bucketAt (Entries.remove update operator) other
      = if other = operator then [] else bucketAt update other := by
  rw [bucketAt, Entries.get?_remove]
  by_cases hother : other = operator
  · rw [if_pos hother, if_pos hother]
  · rw [if_neg hother, if_neg hother]
    rfl

/-! ## Faults -/

/-- Whether an update has fields beside operators. -/
def IsMixed (spec : Document) : Prop :=
  (∃ key ∈ Entries.keys spec, isOperator key = true) ∧
    ∃ key ∈ Entries.keys spec, isOperator key = false

instance (spec : Document) : Decidable (IsMixed spec) :=
  inferInstanceAs (Decidable (_ ∧ _))

/-- **The malformed operators** of an update, in order: those with an operand that is no bucket. -/
def malformed (update : Document) : List String :=
  (update.filter fun entry => !Query.isDocument entry.2).map Prod.fst

/-- The style of an update by its keys. -/
theorem style_cases (spec : Document) :
    (IsMixed spec ∧ style spec = .error .mixedUpdate) ∨
    (¬ IsMixed spec ∧ style spec = .ok .fields) ∨
    (¬ IsMixed spec ∧ (∀ key ∈ Entries.keys spec, isOperator key = true) ∧
      style spec = .ok .operators) := by
  have hplain : (Entries.keys spec).any (fun key => !isOperator key) = true ↔
      ∃ key ∈ Entries.keys spec, isOperator key = false := by simp
  have hoperator : (Entries.keys spec).any isOperator = true ↔
      ∃ key ∈ Entries.keys spec, isOperator key = true := List.any_eq_true
  -- both say the same of the two questions that the style is read off
  rw [IsMixed, ← hplain, ← hoperator, style]
  cases hany : (Entries.keys spec).any fun key => !isOperator key with
  | true => cases (Entries.keys spec).any isOperator <;> simp
  | false =>
    simp only [List.any_eq_false, Bool.not_eq_true', Bool.not_eq_false] at hany
    cases (Entries.keys spec).any isOperator <;> simpa using hany

theorem nodup_keys_operatorForm {spec : Document} (h : (Entries.keys spec).Nodup) :
    (Entries.keys (operatorForm spec)).Nodup := by
  rw [operatorForm]
  split
  · exact List.nodup_singleton _
  · exact h

/-- Only operators are left in the operator form of an update that is not mixed. -/
theorem isOperator_of_mem_operatorForm {spec : Document} (hmixed : ¬ IsMixed spec) {key : String}
    (h : key ∈ Entries.keys (operatorForm spec)) : isOperator key = true := by
  rw [operatorForm] at h
  rcases style_cases spec with ⟨hmix, -⟩ | ⟨-, hstyle⟩ | ⟨-, hkeys, hstyle⟩
  · exact absurd hmix hmixed
  · rw [hstyle] at h
    rw [List.mem_singleton.mp h]
    exact (by decide : isOperator Operator.set.key = true)
  · rw [hstyle] at h
    exact hkeys key h

/-- **The malformed operator that is noticed**: `$set`, wherever it stands, or else the first. -/
def firstMalformed? (update : Document) : Option String :=
  if Operator.set.key ∈ malformed update then some Operator.set.key else (malformed update).head?

theorem firstMalformed?_eq_none_iff {update : Document} :
    firstMalformed? update = none ↔ malformed update = [] := by
  rw [firstMalformed?]
  split
  · rename_i hset
    simp [List.ne_nil_of_mem hset]
  · exact List.head?_eq_none_iff

theorem mem_malformed {update : Document} {operator : String} :
    operator ∈ malformed update ↔
      ∃ operand, (operator, operand) ∈ update ∧ Query.isDocument operand = false := by
  simp [malformed]

/-- To leave out an operator with a bucket leaves the malformed ones. -/
theorem malformed_remove {update : Document} {operator : String}
    (h : operator ∉ malformed update) :
    malformed (Entries.remove update operator) = malformed update := by
  rw [malformed, Entries.remove, List.filter_filter, malformed]
  refine congrArg _ (List.filter_congr fun entry hmem => ?_)
  -- an entry with a bucket is left out on both sides, any other is not under the operator
  by_cases hentry : Query.isDocument entry.2 = true
  · simp [hentry]
  · have hne : entry.1 ≠ operator := by
      rintro rfl
      exact h (mem_malformed.mpr ⟨entry.2, hmem, by simpa using hentry⟩)
    simp [hne]

/-! ## The bucket of `$set` and the other operators -/

/-- A mixed update is not taken apart. -/
theorem split_of_isMixed {spec : Document} (h : IsMixed spec) :
    split spec = .error .mixedUpdate := by
  rcases style_cases spec with ⟨-, hstyle⟩ | ⟨hmixed, -⟩ | ⟨hmixed, -⟩
  · rw [split, hstyle]
  · exact absurd h hmixed
  · exact absurd h hmixed

/-- Where `$set` is malformed, that is noticed first. -/
theorem split_of_malformed {spec : Document} (hnodup : (Entries.keys spec).Nodup)
    (hmixed : ¬ IsMixed spec) (h : Operator.set.key ∈ malformed (operatorForm spec)) :
    split spec = .error (.invalidUpdate Operator.set.key) := by
  rcases style_cases spec with ⟨hmix, -⟩ | ⟨-, hstyle⟩ | ⟨-, -, hstyle⟩
  · exact absurd hmix hmixed
  · rw [operatorForm, hstyle] at h
    cases h
  · rw [operatorForm, hstyle] at h
    obtain ⟨operand, hmem, hoperand⟩ := mem_malformed.mp h
    rw [split, hstyle]
    dsimp only
    rw [Entries.get?_of_mem hnodup hmem]
    cases operand with
    | document bucket => cases hoperand
    | _ => rfl

/-- **An update is taken apart** into the bucket of `$set` and the other operators. -/
theorem split_eq {spec : Document} (hmixed : ¬ IsMixed spec)
    (h : Operator.set.key ∉ malformed (operatorForm spec)) :
    split spec = .ok (bucketAt (operatorForm spec) Operator.set.key,
      Entries.remove (operatorForm spec) Operator.set.key) := by
  rcases style_cases spec with ⟨hmix, -⟩ | ⟨-, hstyle⟩ | ⟨-, -, hstyle⟩
  · exact absurd hmix hmixed
  · have hform : operatorForm spec = [(Operator.set.key, .document spec)] := by
      rw [operatorForm, hstyle]
    have hsplit : split spec = .ok (spec, []) := by rw [split, hstyle]
    have hothers : Entries.remove [(Operator.set.key, Value.document spec)] Operator.set.key = [] :=
      rfl
    rw [hsplit, hform, bucketAt_cons, if_pos rfl, hothers]
  · have hform : operatorForm spec = spec := by rw [operatorForm, hstyle]
    rw [hform] at h ⊢
    cases hget : Entries.get? spec Operator.set.key with
    | none =>
      rw [bucketAt_of_not_mem ((Entries.get?_eq_none_iff _ _).mp hget), split, hstyle]
      dsimp only
      rw [hget]
    | some operand =>
      cases operand with
      | document bucket =>
        rw [bucketAt_of_get? hget, split, hstyle]
        dsimp only
        rw [hget]
      | _ => exact absurd (mem_malformed.mpr ⟨_, Entries.mem_of_get? hget, rfl⟩) h

/-- **The parts make up the update**: an operator with its bucket and the others are all that it
has, or else the operator is not there and the others are the update itself. -/
theorem perm_or_eq_remove {update : Document} (hnodup : (Entries.keys update).Nodup)
    {operator : String} (h : operator ∉ malformed update) :
    update.Perm ((operator, .document (bucketAt update operator))
        :: Entries.remove update operator) ∨
      bucketAt update operator = [] ∧ Entries.remove update operator = update := by
  cases hget : Entries.get? update operator with
  | none =>
    have habsent := (Entries.get?_eq_none_iff _ _).mp hget
    exact Or.inr ⟨bucketAt_of_not_mem habsent, Entries.remove_of_absent habsent⟩
  | some operand =>
    cases operand with
    | document bucket =>
      rw [bucketAt_of_get? hget]
      exact Or.inl (Entries.perm_cons_remove hnodup hget)
    | _ => exact absurd (mem_malformed.mpr ⟨_, Entries.mem_of_get? hget, rfl⟩) h

end UpdateSpec

end DocStore
