import DocStore.Proofs.Birth
import DocStore.Proofs.DeletionField
import DocStore.Proofs.KeyStability
import DocStore.Proofs.ListWrites
import DocStore.Proofs.Meaning

/-! # The fields that a condition names

What a condition means for a document depends on the fields that it names alone
(`Condition.meaning_congr`), and it fixes no other field (`Condition.names_of_fixed?`). So a write
that leaves these fields as they are, and the deletion field with them, leaves a document among the
matches of a restricted query (`Repository.holds_restricted`). -/

namespace DocStore

namespace Condition

/-- Whether one of several tests is on a field of the store. -/
def NamedIn (schema : Schema) (field : String) (tests : List (String × FieldOperator)) : Prop :=
  ∃ test ∈ tests, ∃ info, schema.resolve test.1 = .ok info ∧ info.storageName = field

/-- Whether a condition **names** a field of the store. -/
def Names (schema : Schema) (field : String) (condition : Condition) : Prop :=
  NamedIn schema field condition.leaves

theorem NamedIn.of_left {schema : Schema} {field : String}
    {first second : List (String × FieldOperator)} (h : NamedIn schema field first) :
    NamedIn schema field (first ++ second) := by
  obtain ⟨test, hmem, hinfo⟩ := h
  exact ⟨test, List.mem_append_left second hmem, hinfo⟩

theorem NamedIn.of_right {schema : Schema} {field : String}
    {first second : List (String × FieldOperator)} (h : NamedIn schema field second) :
    NamedIn schema field (first ++ second) := by
  obtain ⟨test, hmem, hinfo⟩ := h
  exact ⟨test, List.mem_append_right first hmem, hinfo⟩

/-! ## The meaning depends on the named fields -/

mutual

/-- **The meaning of a condition** is the same for documents that agree in the fields that it
names. -/
theorem meaning_congr [Runtime] {schema : Schema} {first second : Document} :
    ∀ condition : Condition,
      (∀ field, condition.Names schema field →
        Entries.get? first field = Entries.get? second field) →
      condition.meaning schema first = condition.meaning schema second
  | .and children, h => by
    rw [meaning, meaning, (meanings_congr children h).1]
  | .or children, h => by
    rw [meaning, meaning, (meanings_congr children h).2]
  | .nor children, h => by
    rw [meaning, meaning, (meanings_congr children h).2]
  | .field name operator, h => by
    rw [meaning, meaning]
    cases hinfo : schema.resolve name with
    | error error => rfl
    | ok info =>
      dsimp only
      rw [h info.storageName ⟨(name, operator), List.mem_singleton_self _, info, hinfo, rfl⟩]
termination_by structural condition => condition

theorem meanings_congr [Runtime] {schema : Schema} {first second : Document} :
    ∀ conditions : List Condition,
      (∀ field, NamedIn schema field (leavesAll conditions) →
        Entries.get? first field = Entries.get? second field) →
      allMean schema first conditions = allMean schema second conditions ∧
        anyMeans schema first conditions = anyMeans schema second conditions
  | [], _ => ⟨rfl, rfl⟩
  | condition :: rest, h => by
    have hfirst := meaning_congr condition fun field hnamed => h field hnamed.of_left
    have hrest := meanings_congr rest fun field hnamed => h field hnamed.of_right
    rw [allMean, allMean, anyMeans, anyMeans, hfirst, hrest.1, hrest.2]
    exact ⟨rfl, rfl⟩
termination_by structural conditions => conditions

end

/-! ## What a condition fixes -/

mutual

/-- **A field that a condition fixes** has the value of one of its tests for equality. -/
theorem exists_of_fixed? {schema : Schema} {field : String} {value : Value} :
    ∀ condition : Condition, condition.fixed? schema field = some value →
      ∃ name info, (name, .eq value) ∈ condition.leaves ∧ schema.resolve name = .ok info ∧
        info.storageName = field
  | .and children, h => by
    rw [fixed?] at h
    exact exists_of_fixedAmong? children h
  | .or children, h | .nor children, h => by
    rw [fixed?] at h
    cases h
  | .field name operator, h => by
    rw [fixed?] at h
    cases hinfo : schema.resolve name with
    | error error => rw [hinfo] at h; cases h
    | ok info =>
      rw [hinfo] at h
      dsimp only at h
      split at h
      · rename_i hname
        cases operator with
        | eq own => cases h; exact ⟨name, info, List.mem_singleton_self _, hinfo, hname⟩
        | _ => cases h
      · cases h
termination_by structural condition => condition

theorem exists_of_fixedAmong? {schema : Schema} {field : String} {value : Value} :
    ∀ conditions : List Condition, fixedAmong? schema field conditions = some value →
      ∃ name info, (name, .eq value) ∈ leavesAll conditions ∧ schema.resolve name = .ok info ∧
        info.storageName = field
  | [], h => by
    rw [fixedAmong?] at h
    cases h
  | condition :: rest, h => by
    rw [fixedAmong?] at h
    rcases Option.or_eq_some_iff.mp h with hrest | ⟨-, hfirst⟩
    · obtain ⟨name, info, hmem, hinfo⟩ := exists_of_fixedAmong? rest hrest
      exact ⟨name, info, List.mem_append_right _ hmem, hinfo⟩
    · obtain ⟨name, info, hmem, hinfo⟩ := exists_of_fixed? condition hfirst
      exact ⟨name, info, List.mem_append_left _ hmem, hinfo⟩
termination_by structural conditions => conditions

end

/-- A condition names what it fixes. -/
theorem names_of_fixed? {schema : Schema} {field : String} {value : Value} {condition : Condition}
    (h : condition.fixed? schema field = some value) : condition.Names schema field := by
  obtain ⟨name, info, hmem, hinfo, hname⟩ := exists_of_fixed? condition h
  exact ⟨(name, .eq value), hmem, info, hinfo, hname⟩

/-- A condition fixes no field that it does not name. -/
theorem fixed?_of_not_names {schema : Schema} {field : String} {condition : Condition}
    (h : ¬ condition.Names schema field) : condition.fixed? schema field = none := by
  cases hfixed : condition.fixed? schema field with
  | none => rfl
  | some value => exact absurd (names_of_fixed? hfixed) h

end Condition

/-! ## Updates that avoid a field -/

namespace UpdateSpec

open Update (Operator Spares)

/-- An update that avoids a field spares it once it is compiled, unless the policy keeps the
field. -/
theorem spares_of_compile {policy : Policy} {context : UpdateContext} {now : DateTime}
    {spec update : Document} (hcompile : (compile policy context now spec).2 = .ok update)
    {field : String} (hunowned : policy.owns field = false) (havoids : Avoids field spec)
    {key : String} {bucket : Document} (hmem : (key, Value.document bucket) ∈ update) :
    Spares field key bucket := by
  obtain ⟨set, others, buckets, hsplit, hstrip, rfl⟩ := exists_parts_of_compile hcompile
  obtain ⟨hset, hothers⟩ := spares_split havoids hsplit
  generalize hall : moveToEnd buckets .set (strip policy Operator.set.key set).2 = all at hmem
  have hspares : ∀ operator bucket, (operator, bucket) ∈ all → Spares field operator bucket := by
    intro operator bucket hbucket
    rw [← hall] at hbucket
    rcases mem_moveToEnd hbucket with hother | hown
    · obtain ⟨own, hown, rfl⟩ := exists_of_mem_stripAll hstrip hother
      exact spares_strip_of_spares (hothers operator own hown)
    · cases hown
      exact spares_strip_of_spares hset
  have hinsert : Operator.setOnInsert.key ≠ Operator.rename.key := by decide
  have hdate : Operator.currentDate.key ≠ Operator.rename.key := by decide
  obtain ⟨entry, hentry, heq⟩ := List.mem_map.mp hmem
  cases heq
  -- what stands there was there before, or carries stamps, which are on fields of the policy
  rcases cases_of_mem_stamped hentry with hold | ⟨hcreated, rfl⟩ | rfl
  · exact hspares _ _ hold
  · refine ⟨fun hkey => ?_, fun hrename => absurd hrename hinsert⟩
    rcases (Entries.mem_keys_insert _ _ _ _).mp hkey with rfl | hold
    · rw [owns_createdField hcreated] at hunowned
      cases hunowned
    · exact not_mem_keys_bucketOf hspares _ hold
  · exact ⟨not_mem_keys_timeStamps hunowned context (not_mem_keys_bucketOf hspares _),
      fun hrename => absurd hrename hdate⟩

/-- **A field that an update avoids** holds afterwards what it held before. -/
theorem get?_apply_of_avoids {policy : Policy} {context : UpdateContext} {now : DateTime}
    {spec update : Document} (hcompile : (compile policy context now spec).2 = .ok update)
    {field : String} (hunowned : policy.owns field = false) (havoids : Avoids field spec)
    {occasion : Update.Occasion} {doc doc' : Document}
    (happly : Update.apply occasion update doc = .ok doc') :
    Entries.get? doc' field = Entries.get? doc field :=
  Update.get?_apply_of_spares (fun _ _ hmem => spares_of_compile hcompile hunowned havoids hmem)
    happly

end UpdateSpec

/-! ## Restricted queries -/

namespace Repository

variable {α : Type} {repository : Repository α} {filter : Filter} {compiled : CompiledFilter}

variable [Runtime]

/-- **What a restricted filter matches**: the documents for which its condition holds, as far as
they are shown. It is at fault nowhere. -/
theorem holds_restricted (hnames : repository.schema.HasPlainNames)
    (hpatterns : ∀ test ∈ filter.condition.leaves, test.2.PatternsParse)
    (h : repository.restricted filter = .ok compiled) (doc : Document) :
    Query.holds doc compiled.query
      = .ok (filter.condition.meaning repository.schema doc &&
          (!repository.policy.deleted || doc.isShown)) := by
  obtain ⟨query, hquery, hrestricted⟩ := repository.exists_query_of_restricted h
  obtain ⟨query', hquery', hholds⟩ := Condition.exists_query hnames filter.condition
    (Condition.makesSense_of_compile hquery hpatterns)
  obtain rfl : query' = query := Except.ok.inj (hquery'.symm.trans hquery)
  rw [hrestricted, holds_restrict, hholds]
  cases repository.policy.deleted <;>
    cases filter.condition.meaning repository.schema doc <;> rfl

/-- A restricted filter makes sense of every document. -/
theorem evaluates_restricted (hnames : repository.schema.HasPlainNames)
    (hpatterns : ∀ test ∈ filter.condition.leaves, test.2.PatternsParse)
    (h : repository.restricted filter = .ok compiled) (docs : List Document) :
    Query.Evaluates compiled.query docs :=
  fun doc _ => ⟨_, holds_restricted hnames hpatterns h doc⟩

end Repository

end DocStore
