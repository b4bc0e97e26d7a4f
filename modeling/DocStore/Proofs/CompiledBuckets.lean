import DocStore.Proofs.CallersPart

/-! # The buckets of a compiled update

Compilation moves operators about and leaves some of them out, but for each operator it is plain
what its bucket holds in the end: the caller's own entries, in their order, and behind them the
stamps of the policy (`UpdateSpec.tabulates_stamped`). An operator that would hold neither is left
out. Whatever the passes of the compiler do to the order of the operators, they are followed here as
functions from operators to entries (`UpdateSpec.Tabulates`). -/

namespace DocStore

namespace UpdateSpec

open Update (Operator)

/-! ## What an update asks for under each operator -/

/-- **The caller's own entries** under an operator. -/
def ownEntries (policy : Policy) (spec : Document) (operator : String) : Document :=
  (bucketAt (operatorForm spec) operator).filter (isCallers policy operator)

/-- The stamps of the time under an operator. -/
def dateEntries (policy : Policy) (context : UpdateContext) (operator : String) : Document :=
  if operator = Operator.currentDate.key then timeStamps policy context [] else []

/-- The creation stamp of a new document under an operator. -/
def creationEntries (policy : Policy) (context : UpdateContext) (now : DateTime)
    (operator : String) : Document :=
  if operator = Operator.setOnInsert.key ∧ policy.created = true ∧ context.created = .onInsert
  then [(createdField, .dateTime now)] else []

/-- **The stamps** under an operator. -/
def stampEntries (policy : Policy) (context : UpdateContext) (now : DateTime)
    (operator : String) : Document :=
  dateEntries policy context operator ++ creationEntries policy context now operator

/-- Whether a policy stamps anything by an update. -/
def hasStamps (policy : Policy) (context : UpdateContext) : Bool :=
  policy.modified || (policy.deleted && context.softDelete) ||
    (policy.created && decide (context.created ≠ .never))

variable {policy : Policy} {context : UpdateContext} {now : DateTime}

/-- The caller's own entries are on no field that the policy keeps. -/
theorem not_mem_keys_ownEntries {field : String} (h : policy.owns field = true) (spec : Document)
    (operator : String) : field ∉ Entries.keys (ownEntries policy spec operator) := by
  intro hmem
  obtain ⟨entry, hentry, rfl⟩ := List.mem_map.mp hmem
  have hown := (List.mem_filter.mp hentry).2
  rw [isCallers, h] at hown
  cases hown

/-- The stamps of the time, one after the other. -/
theorem timeStamps_nil (policy : Policy) (context : UpdateContext) :
    timeStamps policy context []
      = (if policy.modified then [(modifiedField, .bool true)] else []) ++
        (if policy.deleted && context.softDelete then [(deletedField, .bool true)] else []) ++
        if policy.created && decide (context.created = .restamp) then [(createdField, .bool true)]
        else [] := by
  rw [timeStamps]
  cases policy.modified <;> cases policy.deleted && context.softDelete <;>
    cases policy.created && decide (context.created = .restamp) <;> rfl

/-- **No operator has stamps** if and only if none of the stamps of the policy applies. -/
theorem stampEntries_eq_nil_iff :
    (∀ operator, stampEntries policy context now operator = []) ↔
      hasStamps policy context = false := by
  have hsplit : (∀ operator, stampEntries policy context now operator = []) ↔
      timeStamps policy context [] = [] ∧
        ¬ (policy.created = true ∧ context.created = .onInsert) := by
    simp only [stampEntries, List.append_eq_nil_iff, forall_and]
    refine and_congr ⟨fun h => ?_, fun h operator => ?_⟩ ⟨fun h hinsert => ?_, fun h operator => ?_⟩
    · have hdate := h Operator.currentDate.key
      rwa [dateEntries, if_pos rfl] at hdate
    · rw [dateEntries, h, ite_self]
    · have hcreation := h Operator.setOnInsert.key
      rw [creationEntries, if_pos ⟨rfl, hinsert⟩] at hcreation
      cases hcreation
    · exact if_neg fun hall => h hall.2
  rw [hsplit, timeStamps_nil, hasStamps]
  cases context.created <;> cases policy.created <;> simp

/-! ## Buckets as functions of operators -/

/-- **Buckets tabulate** a function from operators to entries: an operator that has entries stands
there once with them, and one that has none does not. -/
structure Tabulates (buckets : Buckets) (entries : String → Document) : Prop where
  /-- No operator stands there twice. -/
  nodup : (Entries.keys buckets).Nodup
  /-- What stands under an operator. -/
  get? : ∀ operator, Entries.get? buckets operator
    = if (entries operator).isEmpty then none else some (entries operator)

theorem keys_toDocument (buckets : Buckets) :
    Entries.keys (toDocument buckets) = Entries.keys buckets := by
  rw [Entries.keys, toDocument, List.map_map]
  rfl

namespace Tabulates

variable {buckets : Buckets} {entries : String → Document}

theorem congr (h : Tabulates buckets entries) {entries' : String → Document}
    (heq : ∀ operator, entries operator = entries' operator) : Tabulates buckets entries' :=
  funext heq ▸ h

/-- The bucket of an operator holds its entries. -/
theorem bucketOf (h : Tabulates buckets entries) (operator : Operator) :
    UpdateSpec.bucketOf buckets operator = entries operator.key := by
  rw [UpdateSpec.bucketOf, h.get?]
  split
  · rename_i hempty
    rw [List.isEmpty_iff.mp hempty]
    rfl
  · rfl

/-- Moving an operator to the end replaces its entries. -/
theorem moveToEnd (h : Tabulates buckets entries) (operator : Operator) (bucket : Document) :
    Tabulates (UpdateSpec.moveToEnd buckets operator bucket)
      (fun other => if other = operator.key then bucket else entries other) where
  nodup := nodup_keys_moveToEnd h.nodup operator bucket
  get? := by
    intro other
    rw [UpdateSpec.moveToEnd]
    by_cases hempty : bucket.isEmpty = true
    · rw [if_pos hempty, Entries.get?_remove, h.get?]
      by_cases hother : other = operator.key
      · rw [if_pos hother, if_pos hother, if_pos hempty]
      · rw [if_neg hother, if_neg hother]
    · rw [if_neg hempty, Entries.get?_append, Entries.get?_remove, h.get?, Entries.get?_cons]
      by_cases hother : other = operator.key
      · rw [if_pos hother, if_pos hother.symm, if_pos hother, if_neg hempty]
        rfl
      · rw [if_neg hother, if_neg (Ne.symm hother), if_neg hother, Entries.get?_nil, Option.or_none]

/-- **Stamping** puts the stamps of each operator behind its entries, where these are on no field
that the policy keeps. -/
theorem stamped (h : Tabulates buckets entries)
    (howned : ∀ field, policy.owns field = true →
      ∀ operator, field ∉ Entries.keys (entries operator)) :
    Tabulates (UpdateSpec.stamped policy context now buckets)
      (fun operator => entries operator ++ stampEntries policy context now operator) := by
  -- first the stamps of the time, then the creation stamp
  obtain ⟨timed, htimed, htabulates⟩ : ∃ timed : Buckets,
      timed = (if policy.isActive then UpdateSpec.moveToEnd buckets .currentDate
        (timeStamps policy context (UpdateSpec.bucketOf buckets .currentDate)) else buckets) ∧
      Tabulates timed fun operator => entries operator ++ dateEntries policy context operator := by
    refine ⟨_, rfl, ?_⟩
    by_cases hactive : policy.isActive = true
    · rw [if_pos hactive, h.bucketOf, timeStamps_eq_append context
        fun field howns => howned field howns _]
      refine (h.moveToEnd .currentDate _).congr fun operator => ?_
      rw [dateEntries]
      by_cases hoperator : operator = Operator.currentDate.key
      · rw [if_pos hoperator, if_pos hoperator, hoperator]
      · rw [if_neg hoperator, if_neg hoperator, List.append_nil]
    · rw [if_neg hactive]
      refine h.congr fun operator => ?_
      rw [dateEntries, timeStamps_of_inactive (by simpa using hactive), ite_self, List.append_nil]
  rw [UpdateSpec.stamped, ← htimed]
  by_cases hinsert : (policy.created && decide (context.created = .onInsert)) = true
  · obtain ⟨hcreated, honInsert⟩ := Bool.and_eq_true_iff.mp hinsert
    have hdate : dateEntries policy context Operator.setOnInsert.key = [] := rfl
    rw [if_pos hinsert, htabulates.bucketOf, hdate, List.append_nil,
      Entries.insert_of_absent (howned _ (owns_createdField hcreated) _)]
    refine (htabulates.moveToEnd .setOnInsert _).congr fun operator => ?_
    rw [stampEntries, creationEntries]
    by_cases hoperator : operator = Operator.setOnInsert.key
    · rw [if_pos hoperator, hoperator, hdate,
        if_pos ⟨rfl, hcreated, of_decide_eq_true honInsert⟩, List.nil_append]
    · rw [if_neg hoperator, if_neg fun hall => hoperator hall.1, List.append_nil]
  · rw [if_neg hinsert]
    refine htabulates.congr fun operator => ?_
    have hcreation : creationEntries policy context now operator = [] :=
      if_neg fun hall => hinsert (by simp [hall.2.1, hall.2.2])
    rw [stampEntries, hcreation, List.append_nil]

/-- What stands under an operator of an update that is made of such buckets. -/
theorem mem_toDocument_iff (h : Tabulates buckets entries) {operator : String} {operand : Value} :
    (operator, operand) ∈ toDocument buckets ↔
      entries operator ≠ [] ∧ operand = .document (entries operator) := by
  have hmem : (operator, operand) ∈ toDocument buckets ↔
      ∃ bucket, Entries.get? buckets operator = some bucket ∧ operand = .document bucket := by
    rw [toDocument, List.mem_map]
    constructor
    · rintro ⟨⟨key, bucket⟩, hentry, heq⟩
      cases heq
      exact ⟨bucket, Entries.get?_of_mem h.nodup hentry, rfl⟩
    · rintro ⟨bucket, hget, rfl⟩
      exact ⟨_, Entries.mem_of_get? hget, rfl⟩
  rw [hmem, h.get?]
  by_cases hempty : entries operator = []
  · simp [hempty]
  · rw [if_neg (by rwa [List.isEmpty_iff])]
    constructor
    · rintro ⟨bucket, hbucket, rfl⟩
      exact ⟨hempty, congrArg Value.document (Option.some.inj hbucket).symm⟩
    · rintro ⟨-, rfl⟩
      exact ⟨_, rfl, rfl⟩

/-- The buckets of an update that is made of such buckets. -/
theorem bucketAt_toDocument (h : Tabulates buckets entries) (operator : String) :
    bucketAt (toDocument buckets) operator = entries operator := by
  by_cases hempty : entries operator = []
  · rw [hempty]
    refine bucketAt_of_not_mem fun hmem => ?_
    obtain ⟨⟨key, operand⟩, hentry, rfl⟩ := List.mem_map.mp hmem
    exact (h.mem_toDocument_iff.mp hentry).1 hempty
  · refine bucketAt_of_get? (Entries.get?_of_mem ?_ (h.mem_toDocument_iff.mpr ⟨hempty, rfl⟩))
    exact keys_toDocument buckets ▸ h.nodup

/-- Buckets without entries are no buckets. -/
theorem isEmpty_iff (h : Tabulates buckets entries) :
    buckets.isEmpty = true ↔ ∀ operator, entries operator = [] := by
  rw [List.isEmpty_iff]
  constructor
  · rintro rfl operator
    have hnone := h.get? operator
    rw [Entries.get?_nil] at hnone
    by_contra hne
    simp [hne] at hnone
  · intro hnone
    refine List.eq_nil_iff_forall_not_mem.mpr fun entry hmem => ?_
    have hget := Entries.get?_of_mem h.nodup hmem
    rw [h.get?, hnone] at hget
    cases hget

/-- An operator in front of others, with entries or without. -/
theorem cons (h : Tabulates buckets entries) {operator : String} (hnone : entries operator = [])
    (bucket : Document) :
    Tabulates (if bucket.isEmpty then buckets else (operator, bucket) :: buckets)
      (fun other => if other = operator then bucket else entries other) := by
  by_cases hempty : bucket.isEmpty = true
  · rw [if_pos hempty]
    refine h.congr fun other => ?_
    by_cases hother : other = operator
    · rw [if_pos hother, hother, hnone, List.isEmpty_iff.mp hempty]
    · rw [if_neg hother]
  · rw [if_neg hempty]
    have habsent : operator ∉ Entries.keys buckets := by
      rw [← Entries.get?_eq_none_iff, h.get?, hnone]
      rfl
    refine ⟨List.nodup_cons.mpr ⟨habsent, h.nodup⟩, fun other => ?_⟩
    · rw [Entries.get?_cons, h.get?]
      by_cases hother : other = operator
      · rw [if_pos hother.symm, if_pos hother, if_neg hempty]
      · rw [if_neg (Ne.symm hother), if_neg hother]

end Tabulates

/-! ## The passes of the compiler -/

/-- Stripping reports the first operator that is malformed. -/
theorem reports_stripAll (policy : Policy) (update : Document) :
    Outcome.Reports (stripAll policy update).2 ((malformed update).map .invalidUpdate) := by
  induction update with
  | nil => rfl
  | cons entry rest ih =>
    obtain ⟨operator, operand⟩ := entry
    cases operand with
    | document bucket => exact ih.map _
    | _ => rfl

/-- **Stripped buckets** hold the caller's own entries. -/
theorem tabulates_stripAll {update : Document} (hnodup : (Entries.keys update).Nodup)
    {buckets : Buckets} (h : (stripAll policy update).2 = .ok buckets) :
    Tabulates buckets fun operator =>
      (bucketAt update operator).filter (isCallers policy operator) := by
  induction update generalizing buckets with
  | nil =>
    cases h
    exact ⟨List.nodup_nil, fun _ => rfl⟩
  | cons entry rest ih =>
    obtain ⟨operator, operand⟩ := entry
    rw [Entries.keys_cons, List.nodup_cons] at hnodup
    cases operand with
    | document bucket =>
      rw [stripAll] at h
      obtain ⟨later, hlater, hbuckets⟩ := Outcome.map_eq_ok_iff.mp h
      rw [strip_eq_filter] at hbuckets
      rw [← hbuckets]
      have hnone : (bucketAt rest operator).filter (isCallers policy operator) = [] := by
        rw [bucketAt_of_not_mem hnodup.1, List.filter_nil]
      refine ((ih hnodup.2 hlater).cons hnone _).congr fun other => ?_
      rw [bucketAt_cons]
      split
      · rename_i hother
        rw [hother]
      · rfl
    | _ => cases h

/-- **The buckets of a compiled update** hold the caller's own entries and behind them the stamps of
the policy, operator by operator. -/
theorem tabulates_stamped {spec : Document} (hnodup : (Entries.keys (operatorForm spec)).Nodup)
    {buckets : Buckets}
    (h : (stripAll policy (Entries.remove (operatorForm spec) Operator.set.key)).2 = .ok buckets) :
    Tabulates
      (stamped policy context now (moveToEnd buckets .set
        (strip policy Operator.set.key (bucketAt (operatorForm spec) Operator.set.key)).2))
      (fun operator => ownEntries policy spec operator ++ stampEntries policy context now operator)
      := by
  -- the passes one after the other: strip the others, put `$set` behind them, stamp
  refine Tabulates.stamped ?_ fun field howns => not_mem_keys_ownEntries howns spec
  refine ((tabulates_stripAll (Entries.nodup_keys_remove hnodup _) h).moveToEnd .set _).congr
    fun operator => ?_
  rw [ownEntries, bucketAt_remove, strip_eq_filter]
  by_cases hset : operator = Operator.set.key
  · rw [if_pos hset, hset]
  · rw [if_neg hset, if_neg hset]

/-! ## Outcomes -/

/-- **The outcomes of compilation**: a mixed update, a malformed operator, or buckets with the
caller's own entries and the stamps, of which there has to be one. -/
theorem compile_cases (policy : Policy) (context : UpdateContext) (now : DateTime) {spec : Document}
    (hnodup : (Entries.keys spec).Nodup) :
    (IsMixed spec ∧ (compile policy context now spec).2 = .error .mixedUpdate) ∨
    (¬ IsMixed spec ∧ ∃ operator, firstMalformed? (operatorForm spec) = some operator ∧
      (compile policy context now spec).2 = .error (.invalidUpdate operator)) ∨
    (¬ IsMixed spec ∧ malformed (operatorForm spec) = [] ∧ ∃ buckets,
      Tabulates buckets (fun operator =>
        ownEntries policy spec operator ++ stampEntries policy context now operator) ∧
      (compile policy context now spec).2 = finish buckets) := by
  by_cases hmixed : IsMixed spec
  · exact Or.inl ⟨hmixed, by rw [compile, split_of_isMixed hmixed]⟩
  refine Or.inr ?_
  -- the operand of `$set` is looked at before the others, and these in their order
  by_cases hset : Operator.set.key ∈ malformed (operatorForm spec)
  · refine Or.inl ⟨hmixed, Operator.set.key, by rw [firstMalformed?, if_pos hset], ?_⟩
    rw [compile, split_of_malformed hnodup hmixed hset]
  · have hform := nodup_keys_operatorForm hnodup
    have hcompile : (compile policy context now spec).2
        = (stripAll policy (Entries.remove (operatorForm spec) Operator.set.key)).2.bind
            fun buckets => finish (stamped policy context now (moveToEnd buckets .set
              (strip policy Operator.set.key
                (bucketAt (operatorForm spec) Operator.set.key)).2)) := by
      rw [compile, split_eq hmixed hset]
    have hreports := reports_stripAll policy
      (Entries.remove (operatorForm spec) Operator.set.key)
    rw [malformed_remove hset] at hreports
    cases hall : (stripAll policy (Entries.remove (operatorForm spec) Operator.set.key)).2 with
    | error error =>
      rw [hall] at hreports
      have hfirst : ((malformed (operatorForm spec)).map Error.invalidUpdate).head? = some error :=
        hreports
      rw [List.head?_map, Option.map_eq_some_iff] at hfirst
      obtain ⟨operator, hoperator, rfl⟩ := hfirst
      refine Or.inl ⟨hmixed, operator, by rw [firstMalformed?, if_neg hset, hoperator], ?_⟩
      rw [hcompile, hall]
      rfl
    | ok buckets =>
      rw [hall] at hreports
      refine Or.inr ⟨hmixed, List.map_eq_nil_iff.mp hreports, _, tabulates_stamped hform hall, ?_⟩
      rw [hcompile, hall]
      rfl

/-- A compiled update is made of buckets with the caller's own entries and the stamps. -/
theorem exists_tabulates_of_compile {spec update : Document} (hnodup : (Entries.keys spec).Nodup)
    (h : (compile policy context now spec).2 = .ok update) :
    ¬ IsMixed spec ∧ ∃ buckets, update = toDocument buckets ∧
      Tabulates buckets fun operator =>
        ownEntries policy spec operator ++ stampEntries policy context now operator := by
  rcases compile_cases policy context now hnodup with
    ⟨-, hmix⟩ | ⟨-, operator, -, hinvalid⟩ | ⟨hmixed, -, buckets, htabulates, hfinish⟩
  · rw [hmix] at h
    cases h
  · rw [hinvalid] at h
    cases h
  · rw [hfinish, finish] at h
    split at h
    · cases h
    · cases h
      exact ⟨hmixed, buckets, rfl, htabulates⟩

end UpdateSpec

end DocStore
