import DocStore.Proofs.Outcome
import DocStore.Proofs.OwnedFields
import DocStore.Proofs.UpdateOrder
import DocStore.Proofs.UpdateParts
import Mathlib.Data.List.Nodup

/-! # What compilation makes of the caller's update

The caller's part of an update (`UpdateSpec.callersPart`) is what the caller asks for without the
entries that touch a field of the policy. Compilation takes `$set` out and writes it last, puts the
stamps into buckets of their own operators at the end, and leaves out buckets that have nothing
left, so the compiled update makes the changes of the caller's part and the stamps in an order of
its own (`UpdateSpec.changes_of_compile`). Where no field is addressed twice this order does not
matter, and the stamps touch only fields of the policy: the compiled update does to every other
field what the caller asked for. -/

namespace DocStore

namespace UpdateSpec

open Update (Operator Occasion Change Agree AddressOnce IsSupported Unambiguous changes
  applyChanges)

/-! ## The caller's part -/

/-- Whether an entry in the bucket of an operator is the **caller's own**: it does not stand under a
field that the policy keeps, and it does not rename a field to one. -/
def isCallers (policy : Policy) (operator : String) (entry : String × Value) : Bool :=
  !policy.owns entry.1 &&
    !(decide (operator = Operator.rename.key) && renamesOntoOwned policy entry.2)

/-- An update without the entries that are not the caller's own. -/
def withoutOwned (policy : Policy) (update : Document) : Document :=
  update.map fun entry =>
    match entry.2 with
    | .document bucket => (entry.1, .document (bucket.filter (isCallers policy entry.1)))
    | operand => (entry.1, operand)

/-- **The caller's part** of an update: its operators, without the entries on fields that the policy
keeps and without renamings to such fields. -/
def callersPart (policy : Policy) (spec : Document) : Document :=
  withoutOwned policy (operatorForm spec)

variable {policy : Policy} {context : UpdateContext} {now : DateTime}

/-- What stripping leaves of the fields of a bucket. -/
theorem stripFields_eq_filter (policy : Policy) (operator : String) (bucket : Document) :
    (stripFields policy operator bucket).2 = bucket.filter fun entry => !policy.owns entry.1 := by
  rw [stripFields, Entries.foldl_remove_eq_filter]
  refine List.filter_congr fun entry hmem => ?_
  have hcontains : Entries.contains bucket entry.1 = true :=
    (Entries.contains_iff bucket entry.1).mpr (List.mem_map_of_mem hmem)
  simp [Policy.owns, hcontains]

/-- Stripping leaves exactly the caller's own entries. -/
theorem strip_eq_filter (policy : Policy) (operator : String) (bucket : Document) :
    (strip policy operator bucket).2 = bucket.filter (isCallers policy operator) := by
  rw [strip_snd]
  by_cases hrename : operator = Operator.rename.key
  · rw [if_pos hrename, stripRenames, stripFields_eq_filter]
    dsimp only
    rw [List.filter_filter]
    refine List.filter_congr fun entry _ => ?_
    rw [isCallers, decide_eq_true hrename, Bool.true_and, Bool.and_comm]
  · rw [if_neg hrename, stripFields_eq_filter]
    refine List.filter_congr fun entry _ => ?_
    rw [isCallers, decide_eq_false hrename, Bool.false_and, Bool.not_false, Bool.and_true]

/-- Whether a change is the caller's own. -/
def isCallersChange (policy : Policy) (change : Change) : Bool :=
  isCallers policy change.operator.key (change.field, change.operand)

theorem changes_filter (policy : Policy) (operator : Operator) (bucket : Document) :
    operator.changes (bucket.filter (isCallers policy operator.key))
      = (operator.changes bucket).filter (isCallersChange policy) := by
  rw [Operator.changes, Operator.changes, List.filter_map]
  rfl

/-- The changes of an update without the entries that are not the caller's own. -/
theorem changes_withoutOwned {update : Document} (h : IsSupported update) :
    changes (withoutOwned policy update) = (changes update).filter (isCallersChange policy) := by
  induction update with
  | nil => rfl
  | cons entry rest ih =>
    obtain ⟨operator, bucket, rfl⟩ := h entry List.mem_cons_self
    have hrest := ih fun later hmem => h later (List.mem_cons_of_mem _ hmem)
    rw [Update.changes_cons, List.filter_append, ← changes_filter, ← hrest, ← Update.changes_cons]
    rfl

theorem isSupported_withoutOwned {update : Document} (h : IsSupported update) :
    IsSupported (withoutOwned policy update) := by
  intro entry hmem
  obtain ⟨before, hbefore, rfl⟩ := List.mem_map.mp hmem
  obtain ⟨operator, bucket, rfl⟩ := h before hbefore
  exact ⟨operator, _, rfl⟩

/-- A change that is the caller's own addresses no field of the policy. -/
theorem not_owns_of_isCallersChange {change : Change} (h : isCallersChange policy change = true)
    {field : String} (hmem : field ∈ change.fields) : policy.owns field = false := by
  obtain ⟨operator, own, operand⟩ := change
  rw [isCallersChange, isCallers, Bool.and_eq_true, Bool.not_eq_true', Bool.not_eq_true'] at h
  obtain ⟨hown, htarget⟩ := h
  rw [Change.fields] at hmem
  split at hmem
  · rename_i target hoperator hoperand
    dsimp only at hoperator hoperand
    subst hoperator hoperand
    rw [decide_eq_true rfl, Bool.true_and, renamesOntoOwned] at htarget
    rcases List.mem_cons.mp hmem with rfl | hlast
    · exact hown
    · rw [List.mem_singleton.mp hlast]
      exact htarget
  · rw [List.mem_singleton.mp hmem]
    exact hown

/-! ## The changes of buckets -/

/-- Whether all buckets stand under operators. -/
def AllOperators (buckets : Buckets) : Prop :=
  ∀ entry ∈ buckets, ∃ operator : Operator, entry.1 = operator.key

theorem AllOperators.isSupported {buckets : Buckets} (h : AllOperators buckets) :
    IsSupported (toDocument buckets) := by
  intro entry hmem
  obtain ⟨⟨key, bucket⟩, hbucket, rfl⟩ := List.mem_map.mp hmem
  obtain ⟨operator, rfl⟩ := h _ hbucket
  exact ⟨operator, bucket, rfl⟩

theorem AllOperators.moveToEnd {buckets : Buckets} (h : AllOperators buckets)
    (operator : Operator) (bucket : Document) :
    AllOperators (UpdateSpec.moveToEnd buckets operator bucket) := by
  intro entry hmem
  rcases mem_moveToEnd hmem with hold | rfl
  · exact h entry hold
  · exact ⟨operator, rfl⟩

theorem changes_append (first second : Buckets) :
    changes (toDocument (first ++ second))
      = changes (toDocument first) ++ changes (toDocument second) := by
  rw [toDocument, List.map_append, changes, List.flatMap_append]
  rfl

theorem changes_singleton (operator : Operator) (bucket : Document) :
    changes (toDocument [(operator.key, bucket)]) = operator.changes bucket := by
  rw [toDocument, List.map_cons, List.map_nil, Update.changes_cons]
  exact List.append_nil _

/-- The changes of buckets are those of one operator and those of the others. -/
theorem changes_perm_bucketOf {buckets : Buckets} (hnodup : (Entries.keys buckets).Nodup)
    (operator : Operator) :
    (changes (toDocument buckets)).Perm
      (operator.changes (bucketOf buckets operator)
        ++ changes (toDocument (Entries.remove buckets operator.key))) := by
  rw [bucketOf]
  cases hget : Entries.get? buckets operator.key with
  | none =>
    rw [Entries.remove_of_absent ((Entries.get?_eq_none_iff _ _).mp hget)]
    exact List.Perm.refl _
  | some bucket =>
    have hperm := (Entries.perm_cons_remove hnodup hget).map fun (entry : String × Document) =>
      ((entry.1, .document entry.2) : String × Value)
    refine (hperm.flatMap_right _).trans (List.Perm.of_eq ?_)
    exact Update.changes_cons operator bucket _

/-- **Moving an operator to the end** with some more entries in its bucket adds their changes. -/
theorem changes_moveToEnd {buckets : Buckets} (hnodup : (Entries.keys buckets).Nodup)
    (operator : Operator) (more : Document) :
    (changes (toDocument (moveToEnd buckets operator (bucketOf buckets operator ++ more)))).Perm
      (changes (toDocument buckets) ++ operator.changes more) := by
  have hmoved : changes (toDocument
        (moveToEnd buckets operator (bucketOf buckets operator ++ more)))
      = changes (toDocument (Entries.remove buckets operator.key))
        ++ (operator.changes (bucketOf buckets operator) ++ operator.changes more) := by
    rw [← Operator.changes_append, moveToEnd]
    split
    · rename_i hempty
      rw [List.isEmpty_iff] at hempty
      rw [hempty, Operator.changes, List.map_nil, List.append_nil]
    · rw [changes_append, changes_singleton]
  rw [hmoved, ← List.append_assoc]
  exact (List.perm_append_comm.trans (changes_perm_bucketOf hnodup operator).symm).append_right _

theorem nodup_keys_moveToEnd {buckets : Buckets} (hnodup : (Entries.keys buckets).Nodup)
    (operator : Operator) (bucket : Document) :
    (Entries.keys (moveToEnd buckets operator bucket)).Nodup := by
  have hothers : (Entries.keys (Entries.remove buckets operator.key)).Nodup :=
    Entries.nodup_keys_remove hnodup _
  rw [moveToEnd]
  split
  · exact hothers
  · rw [Entries.keys, List.map_append, List.nodup_append]
    refine ⟨hothers, List.nodup_singleton _, ?_⟩
    rintro key hkey other hother rfl
    have hgone := (Entries.get?_eq_none_iff _ _).mp (Entries.get?_remove_self buckets operator.key)
    rw [List.mem_singleton.mp hother] at hkey
    exact hgone hkey

/-- Stripping leaves out buckets but no changes of the caller's own. -/
theorem changes_stripAll {others : Document} (h : IsSupported others) {buckets : Buckets}
    (hok : (stripAll policy others).2 = .ok buckets) :
    changes (toDocument buckets) = changes (withoutOwned policy others) ∧
      (Entries.keys buckets).Sublist (Entries.keys others) := by
  induction others generalizing buckets with
  | nil => cases hok; exact ⟨rfl, List.Sublist.refl _⟩
  | cons entry rest ih =>
    obtain ⟨operator, bucket, rfl⟩ := h entry List.mem_cons_self
    rw [stripAll] at hok
    obtain ⟨later, hlater, hbuckets⟩ := Outcome.map_eq_ok_iff.mp hok
    obtain ⟨hchanges, hkeys⟩ := ih (fun later hmem => h later (List.mem_cons_of_mem _ hmem)) hlater
    rw [strip_eq_filter] at hbuckets
    have hpart : changes (withoutOwned policy ((operator.key, .document bucket) :: rest))
        = operator.changes (bucket.filter (isCallers policy operator.key))
          ++ changes (withoutOwned policy rest) := Update.changes_cons operator _ _
    rw [hpart, ← hchanges, ← hbuckets]
    split
    · rename_i hempty
      rw [List.isEmpty_iff] at hempty
      rw [hempty]
      exact ⟨rfl, hkeys.cons _⟩
    · exact ⟨Update.changes_cons operator _ _, hkeys.cons_cons _⟩

/-! ## The stamps -/

/-- The changes that stamp the fields of the policy. -/
def stampChanges (policy : Policy) (context : UpdateContext) (now : DateTime) : List Change :=
  Operator.currentDate.changes (timeStamps policy context []) ++
    if policy.created && decide (context.created = .onInsert) then
      Operator.setOnInsert.changes [(createdField, .dateTime now)]
    else []

/-- A bucket without fields of the policy is stamped at its end. -/
theorem timeStamps_eq_append (context : UpdateContext) {bucket : Document}
    (h : ∀ field, policy.owns field = true → field ∉ Entries.keys bucket) :
    timeStamps policy context bucket = bucket ++ timeStamps policy context [] := by
  have hmodified : policy.modified = true → modifiedField ∉ Entries.keys bucket :=
    fun hkept => h _ (owns_modifiedField hkept)
  have hdeleted : (policy.deleted && context.softDelete) = true →
      deletedField ∉ Entries.keys bucket := fun hkept =>
    h _ (Policy.owns_deletedField (Bool.and_eq_true_iff.mp hkept).1)
  have hcreated : (policy.created && decide (context.created = .restamp)) = true →
      createdField ∉ Entries.keys bucket := fun hkept =>
    h _ (owns_createdField (Bool.and_eq_true_iff.mp hkept).1)
  calc timeStamps policy context bucket
      = timeStamps policy context (bucket ++ []) := by rw [List.append_nil]
    _ = bucket ++ timeStamps policy context [] := by
      rw [timeStamps, Entries.insertIf_append hmodified, Entries.insertIf_append hdeleted,
        Entries.insertIf_append hcreated, timeStamps]

/-- A policy that keeps no field stamps none. -/
theorem timeStamps_of_inactive (h : policy.isActive = false) (context : UpdateContext) :
    timeStamps policy context [] = [] := by
  obtain ⟨created, modified, deleted⟩ := policy
  cases created <;> cases modified <;> cases deleted <;> first | rfl | cases h

/-- The stamps address fields of the policy. -/
theorem owns_of_mem_stampChanges {change : Change} (h : change ∈ stampChanges policy context now) :
    (change.operator = .currentDate ∨ change.operator = .setOnInsert) ∧
      change.fields = [change.field] ∧ policy.owns change.field = true := by
  rcases List.mem_append.mp h with hdate | hcreation
  · obtain ⟨entry, hentry, rfl⟩ := List.mem_map.mp hdate
    refine ⟨Or.inl rfl, rfl, ?_⟩
    have hkey : entry.1 ∈ Entries.keys (timeStamps policy context []) := List.mem_map_of_mem hentry
    simp only [timeStamps, Entries.mem_keys_insertIf, Entries.keys_nil, List.not_mem_nil, or_false,
      Bool.and_eq_true] at hkey
    rcases hkey with ⟨hcreated, hfield⟩ | ⟨hdeleted, hfield⟩ | ⟨hmodified, hfield⟩
    · rw [hfield]; exact owns_createdField hcreated.1
    · rw [hfield]; exact Policy.owns_deletedField hdeleted.1
    · rw [hfield]; exact owns_modifiedField hmodified
  · split at hcreation
    · rename_i hinsert
      rw [Bool.and_eq_true] at hinsert
      rw [List.mem_singleton.mp hcreation]
      exact ⟨Or.inr rfl, rfl, owns_createdField hinsert.1⟩
    · cases hcreation

/-- A new document is not stamped twice. -/
theorem createdField_not_mem_timeStamps (policy : Policy) {context : UpdateContext}
    (h : context.created = .onInsert) :
    createdField ∉ Entries.keys (timeStamps policy context []) := by
  have hmodified : createdField ≠ modifiedField := by decide
  have hdeleted : createdField ≠ deletedField := by decide
  simp [timeStamps, Entries.mem_keys_insertIf, hmodified, hdeleted, h]

/-- The stamps address no field twice. -/
theorem addressOnce_stampChanges (policy : Policy) (context : UpdateContext) (now : DateTime) :
    AddressOnce (stampChanges policy context now) := by
  have htimes : (Entries.keys (timeStamps policy context [])).Nodup := by
    have hnone : (Entries.keys ([] : Document)).Nodup := List.nodup_nil
    rw [timeStamps]
    exact Entries.nodup_keys_insertIf (Entries.nodup_keys_insertIf
      (Entries.nodup_keys_insertIf hnone _ _ _) _ _ _) _ _ _
  have hkeys : (Operator.currentDate.changes (timeStamps policy context [])).map Change.field
      = Entries.keys (timeStamps policy context []) := by
    rw [Operator.changes, List.map_map]
    rfl
  have hnodup : ((stampChanges policy context now).map Change.field).Nodup := by
    rw [stampChanges, List.map_append, hkeys]
    split
    · rename_i hinsert
      have honInsert := of_decide_eq_true (Bool.and_eq_true_iff.mp hinsert).2
      refine htimes.append (List.nodup_singleton _) ?_
      exact List.disjoint_singleton.mpr (createdField_not_mem_timeStamps policy honInsert)
    · rw [List.map_nil, List.append_nil]
      exact htimes
  refine (List.pairwise_map.mp hnodup).imp_of_mem fun hfirst hsecond hne => ?_
  rw [(owns_of_mem_stampChanges hfirst).2.1, (owns_of_mem_stampChanges hsecond).2.1,
    List.singleton_disjoint, List.mem_singleton]
  exact hne

/-- Stamps never fail and leave all fields that the policy does not keep. -/
theorem exists_applyChanges_stamps {stamps : List Change} (occasion : Occasion)
    (h : ∀ change ∈ stamps, (change.operator = .currentDate ∨ change.operator = .setOnInsert) ∧
      change.fields = [change.field] ∧ policy.owns change.field = true) (doc : Document) :
    ∃ doc', applyChanges occasion stamps doc = .ok doc' ∧
      ∀ field, policy.owns field = false → Entries.get? doc' field = Entries.get? doc field := by
  induction stamps generalizing doc with
  | nil => exact ⟨doc, rfl, fun _ _ => rfl⟩
  | cons change rest ih =>
    obtain ⟨hoperator, hfields, howns⟩ := h change List.mem_cons_self
    obtain ⟨next, hnext⟩ : ∃ next, change.apply occasion doc = .ok next := by
      rw [Change.apply]
      rcases hoperator with hdate | hinsert
      · rw [hdate]; exact ⟨_, rfl⟩
      · rw [hinsert]; exact ⟨_, rfl⟩
    obtain ⟨doc', hrest, hkept⟩ := ih (fun later hmem => h later (List.mem_cons_of_mem _ hmem)) next
    refine ⟨doc', ?_, fun field hfield => ?_⟩
    · rw [applyChanges, hnext]
      exact hrest
    · rw [hkept field hfield, Change.get?_apply hnext]
      rw [hfields, List.mem_singleton]
      rintro rfl
      rw [howns] at hfield
      cases hfield

/-- **Stamping buckets** adds the stamps to their changes. -/
theorem changes_stamped {buckets : Buckets} (hnodup : (Entries.keys buckets).Nodup)
    (h : ∀ field, policy.owns field = true → ∀ operator bucket, (operator, bucket) ∈ buckets →
      Update.Spares field operator bucket) :
    (changes (toDocument (stamped policy context now buckets))).Perm
      (changes (toDocument buckets) ++ stampChanges policy context now) := by
  have habsent : ∀ operator field, policy.owns field = true →
      field ∉ Entries.keys (bucketOf buckets operator) :=
    fun operator field howns => not_mem_keys_bucketOf (h field howns) operator
  -- first the stamps of the time, then the creation stamp
  obtain ⟨timed, htimed, hkeys, hbucket, hchanges⟩ : ∃ timed : Buckets,
      timed = (if policy.isActive then moveToEnd buckets .currentDate
        (timeStamps policy context (bucketOf buckets .currentDate)) else buckets) ∧
      (Entries.keys timed).Nodup ∧
      bucketOf timed .setOnInsert = bucketOf buckets .setOnInsert ∧
      (changes (toDocument timed)).Perm (changes (toDocument buckets)
        ++ Operator.currentDate.changes (timeStamps policy context [])) := by
    refine ⟨_, rfl, ?_⟩
    by_cases hactive : policy.isActive = true
    · rw [if_pos hactive, timeStamps_eq_append context (habsent .currentDate)]
      exact ⟨nodup_keys_moveToEnd hnodup _ _, bucketOf_moveToEnd (by decide) _ _,
        changes_moveToEnd hnodup _ _⟩
    · rw [if_neg hactive, timeStamps_of_inactive (by simpa using hactive)]
      refine ⟨hnodup, rfl, ?_⟩
      rw [Operator.changes, List.map_nil, List.append_nil]
  rw [stamped, stampChanges, ← htimed, ← List.append_assoc]
  split
  · rename_i hinsert
    have hcreated := (Bool.and_eq_true_iff.mp hinsert).1
    rw [hbucket, Entries.insert_of_absent (habsent _ _ (owns_createdField hcreated)), ← hbucket]
    exact (changes_moveToEnd hkeys _ _).trans (hchanges.append_right _)
  · rw [List.append_nil]
    exact hchanges

/-! ## The compiled update -/

theorem allOperators_stamped {buckets : Buckets} (h : AllOperators buckets) :
    AllOperators (stamped policy context now buckets) := by
  have htimed : AllOperators (if policy.isActive then moveToEnd buckets .currentDate
      (timeStamps policy context (bucketOf buckets .currentDate)) else buckets) := by
    split
    · exact h.moveToEnd _ _
    · exact h
  rw [stamped]
  split
  · exact htimed.moveToEnd _ _
  · exact htimed

/-- An update of operators with buckets is not malformed. -/
theorem not_mem_malformed {update : Document} (h : IsSupported update) (operator : String) :
    operator ∉ malformed update := by
  intro hmem
  obtain ⟨operand, hentry, hoperand⟩ := mem_malformed.mp hmem
  obtain ⟨known, bucket, heq⟩ := h _ hentry
  cases heq
  cases hoperand

/-- Splitting an unambiguous update parts its changes. -/
theorem changes_split {spec set others : Document} (hspec : Unambiguous (operatorForm spec))
    (hsplit : split spec = .ok (set, others)) :
    IsSupported others ∧ (Entries.keys others).Nodup ∧ Operator.set.key ∉ Entries.keys others ∧
      (changes (operatorForm spec)).Perm (Operator.set.changes set ++ changes others) := by
  obtain ⟨hsupported, hnodup, -⟩ := hspec
  have hmixed : ¬ IsMixed spec := fun hmix => by
    rw [split_of_isMixed hmix] at hsplit
    cases hsplit
  have hformed := not_mem_malformed hsupported Operator.set.key
  rw [split_eq hmixed hformed] at hsplit
  cases hsplit
  refine ⟨fun entry hmem => hsupported entry (Entries.mem_of_mem_remove hmem),
    Entries.nodup_keys_remove hnodup _, ?_, ?_⟩
  · rw [← Entries.get?_eq_none_iff, Entries.get?_remove_self]
  · rcases perm_or_eq_remove hnodup hformed with hperm | ⟨hnone, hothers⟩
    · rw [← Update.changes_cons]
      exact hperm.flatMap_right _
    · rw [hnone, hothers]
      exact List.Perm.refl _

/-- **The changes of a compiled update** are those of the caller's part and the stamps, in an order
of their own. -/
theorem changes_of_compile {spec update : Document} (hspec : Unambiguous (operatorForm spec))
    (h : (compile policy context now spec).2 = .ok update) :
    IsSupported update ∧ (changes update).Perm
      (changes (callersPart policy spec) ++ stampChanges policy context now) := by
  obtain ⟨set, others, buckets, hsplit, hall, rfl⟩ := exists_parts_of_compile h
  obtain ⟨hsupported, hnodup, habsent, hparted⟩ := changes_split hspec hsplit
  obtain ⟨hstripped, hsublist⟩ := changes_stripAll hsupported hall
  have hspares : ∀ field, policy.owns field = true → ∀ operator bucket,
      (operator, bucket) ∈ moveToEnd buckets .set (strip policy Operator.set.key set).2 →
      Update.Spares field operator bucket := fun field howns operator bucket hmem => by
    rcases mem_moveToEnd hmem with hold | hnew
    · exact spares_stripAll howns hall hold
    · cases hnew
      exact spares_strip howns _ set
  have hoperators : AllOperators buckets := fun entry hmem => by
    obtain ⟨own, hown, -⟩ := exists_of_mem_stripAll hall hmem
    obtain ⟨operator, bucket, heq⟩ := hsupported _ hown
    exact ⟨operator, congrArg Prod.fst heq⟩
  refine ⟨(allOperators_stamped (hoperators.moveToEnd _ _)).isSupported, ?_⟩
  have hbuckets := hnodup.sublist hsublist
  refine (changes_stamped (nodup_keys_moveToEnd hbuckets _ _) hspares).trans ?_
  refine List.Perm.append_right _ ?_
  -- no bucket of `$set` is left among the others, so the caller's is the only one
  have hnone : bucketOf buckets .set = [] := by
    rw [bucketOf, (Entries.get?_eq_none_iff _ _).mpr fun hmem => habsent (hsublist.subset hmem)]
    rfl
  have hmoved := changes_moveToEnd hbuckets .set (strip policy Operator.set.key set).2
  rw [hnone, List.nil_append] at hmoved
  have hkept : changes (toDocument buckets)
        ++ Operator.set.changes (strip policy Operator.set.key set).2
      = (changes others ++ Operator.set.changes set).filter (isCallersChange policy) := by
    rw [hstripped, changes_withoutOwned hsupported, strip_eq_filter, changes_filter,
      List.filter_append]
  rw [hkept] at hmoved
  rw [callersPart, changes_withoutOwned hspec.supported]
  exact hmoved.trans ((List.perm_append_comm.trans hparted.symm).filter _)

theorem isSupported_callersPart {spec : Document} (hspec : Unambiguous (operatorForm spec)) :
    IsSupported (callersPart policy spec) :=
  isSupported_withoutOwned hspec.supported

/-- The changes of a compiled update address no field twice. -/
theorem addressOnce_kept_stamps (policy : Policy) (context : UpdateContext) (now : DateTime)
    {spec : Document} (hspec : Unambiguous (operatorForm spec)) :
    AddressOnce (changes (callersPart policy spec) ++ stampChanges policy context now) := by
  rw [callersPart, changes_withoutOwned hspec.supported]
  refine List.pairwise_append.mpr
    ⟨hspec.fieldsOnce.filter _, addressOnce_stampChanges policy context now, ?_⟩
  intro change hchange stamp hstamp
  obtain ⟨-, hfields, howns⟩ := owns_of_mem_stampChanges hstamp
  rw [hfields, List.disjoint_singleton]
  intro hmem
  rw [not_owns_of_isCallersChange (List.mem_filter.mp hchange).2 hmem] at howns
  cases howns

/-- **A compiled update does what the caller asked for**: on every occasion and to every document it
does to the fields that the policy does not keep what the caller's part does to them, and it fails
if and only if the caller's part fails. -/
theorem agree_callersPart {spec update : Document} (hspec : Unambiguous (operatorForm spec))
    (h : (compile policy context now spec).2 = .ok update) (occasion : Occasion) (doc : Document) :
    Agree (fun field => policy.owns field = false) (Update.apply occasion update doc)
      (Update.apply occasion (callersPart policy spec) doc) := by
  obtain ⟨hsupported, hperm⟩ := changes_of_compile hspec h
  have honce := addressOnce_kept_stamps policy context now hspec
  have hordered := Update.applyChanges_perm occasion hperm
    (hperm.symm.pairwise honce fun hdisjoint => List.Disjoint.symm hdisjoint) doc
  rw [Update.apply_eq_applyChanges occasion hsupported,
    Update.apply_eq_applyChanges occasion (isSupported_callersPart hspec)]
  refine (hordered.mono fun _ _ => trivial).trans ?_
  rw [Update.applyChanges_append]
  cases applyChanges occasion (changes (callersPart policy spec)) doc with
  | error fault => exact Agree.error fault fault
  | ok middle =>
    -- the stamps come last here, so they find all that the caller asked for
    obtain ⟨doc', hstamps, hkept⟩ := exists_applyChanges_stamps occasion
      (fun change hmem => owns_of_mem_stampChanges hmem) middle
    rw [Except.bind, hstamps]
    exact Agree.ok hkept

/-- **The meaning of an update survives compilation.** On every occasion, a compiled update fails on
a document if and only if the caller's part fails, and otherwise every field that the policy does
not keep holds what the caller's part leaves in it. So an update that is compiled under two policies
which leave the caller the same part does the same to all fields that neither of them keeps. -/
theorem compile_preserves_callersPart {policy : Policy} {context : UpdateContext}
    {compiledAt : DateTime} {spec update : Document} (hspec : Unambiguous (operatorForm spec))
    (hcompile : (compile policy context compiledAt spec).2 = .ok update) :
    (∀ (occasion : Occasion) (doc : Document),
      Agree (fun field => policy.owns field = false) (Update.apply occasion update doc)
        (Update.apply occasion (callersPart policy spec) doc)) ∧
    ∀ (policy' : Policy) (context' : UpdateContext) (compiledAt' : DateTime) (update' : Document),
      (compile policy' context' compiledAt' spec).2 = .ok update' →
      callersPart policy' spec = callersPart policy spec →
      ∀ (occasion : Occasion) (doc : Document),
        Agree (fun field => policy.owns field = false ∧ policy'.owns field = false)
          (Update.apply occasion update doc) (Update.apply occasion update' doc) := by
  refine ⟨agree_callersPart hspec hcompile, ?_⟩
  intro policy' context' compiledAt' update' hcompile' hpart occasion doc
  have hmine := agree_callersPart hspec hcompile occasion doc
  have hother := agree_callersPart hspec hcompile' occasion doc
  rw [hpart] at hother
  exact (hmine.mono fun _ hfield => hfield.1).trans (hother.mono fun _ hfield => hfield.2).symm

/-- An update of a note that also writes its creation time and renames a field to its modification
time. Compilation moves `$set` and `$currentDate` to the end and drops both, with two policies
alike. -/
theorem compile_preserves_callersPart_mixed :
    ∃ spec update update' : Document,
      (compile ⟨true, true, true⟩ .upsert ⟨1000⟩ spec).2 = .ok update ∧
      (compile ⟨true, true, false⟩ .update ⟨3000⟩ spec).2 = .ok update' ∧
      Entries.keys spec = ["$rename", "$currentDate", "$set", "$inc"] ∧
      Entries.keys update = ["$rename", "$inc", "$set", "$currentDate", "$setOnInsert"] ∧
      Entries.keys update' = ["$rename", "$inc", "$set", "$currentDate"] ∧
      ∀ (occasion : Occasion) (doc : Document),
        Agree (fun field => Policy.owns ⟨true, true, true⟩ field = false)
          (Update.apply occasion update doc)
          (Update.apply occasion
            [("$rename", .document [("title", .string "headline")]),
              ("$currentDate", .document [("seen", .bool true)]),
              ("$set", .document [("state", .string "done")]),
              ("$inc", .document [("views", .int32 1)])] doc) ∧
        Agree (fun field => Policy.owns ⟨true, true, true⟩ field = false ∧
            Policy.owns ⟨true, true, false⟩ field = false)
          (Update.apply occasion update doc) (Update.apply occasion update' doc) := by
  let spec : Document :=
    [("$rename", .document [("title", .string "headline"), ("draft", .string "modified")]),
      ("$currentDate", .document [("seen", .bool true)]),
      ("$set", .document [("created", .int32 0), ("state", .string "done")]),
      ("$inc", .document [("views", .int32 1)])]
  have hspec : Unambiguous (operatorForm spec) := by
    refine ⟨fun entry hmem => ?_, by decide, by decide⟩
    have hcases : entry ∈ spec := hmem
    simp only [spec, List.mem_cons, List.not_mem_nil, or_false] at hcases
    rcases hcases with rfl | rfl | rfl | rfl
    · exact ⟨.rename, _, rfl⟩
    · exact ⟨.currentDate, _, rfl⟩
    · exact ⟨.set, _, rfl⟩
    · exact ⟨.inc, _, rfl⟩
  let caller : Document :=
    [("$rename", .document [("title", .string "headline")]),
      ("$inc", .document [("views", .int32 1)]), ("$set", .document [("state", .string "done")])]
  let stampedDate : String × Value :=
    ("$currentDate", .document [("seen", .bool true), ("modified", .bool true)])
  have hcompile : (compile ⟨true, true, true⟩ .upsert ⟨1000⟩ spec).2
      = .ok (caller
        ++ [stampedDate, ("$setOnInsert", .document [("created", .dateTime ⟨1000⟩)])]) := rfl
  have hcompile' : (compile ⟨true, true, false⟩ .update ⟨3000⟩ spec).2
      = .ok (caller ++ [stampedDate]) := rfl
  obtain ⟨hmeaning, hpolicies⟩ := compile_preserves_callersPart hspec hcompile
  exact ⟨spec, _, _, hcompile, hcompile', rfl, rfl, rfl, fun occasion doc =>
    ⟨hmeaning occasion doc,
      hpolicies ⟨true, true, false⟩ .update ⟨3000⟩ _ hcompile' rfl occasion doc⟩⟩

end UpdateSpec

end DocStore
