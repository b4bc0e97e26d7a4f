import DocStore.Proofs.CallersPart
import DocStore.Proofs.Upserts

/-! # Finding or creating is idempotent

To find or create a value is to upsert the fields of its document and to read what is written
(`Repository.exists_of_findOneOrCreate`); what the fields make of a document is one function
(`UpdateSpec.overwrite`). Where the document of the value fulfils the condition of the filter, so
does the written one, and it is the first match from then on (`Store.Upserts.first?`). Writing the
same fields over it again changes the modification time alone (`UpdateSpec.overwrite_of_held`), so a
second call finds the same document and stores no other. -/

namespace DocStore

/-! ## Writing fields over a document -/

namespace UpdateSpec

open Update (Operator Occasion)

variable {policy : Policy} {now : DateTime} {fields update : Document}

/-- What **writing fields** makes of a document: all of them are written that the policy does not
keep, and then the times that the policy keeps. -/
def overwrite (policy : Policy) (compiledAt : DateTime) (occasion : Occasion)
    (fields doc : Document) : Document :=
  let doc := Entries.insertAll doc (fields.filter (isCallers policy Operator.set.key))
  let doc := Entries.insertIf doc policy.modified modifiedField (.dateTime occasion.now)
  Entries.insertIf doc (policy.created && occasion.inserting) createdField (.dateTime compiledAt)

/-- A document of fields is all for `$set`. -/
theorem split_of_plain (h : ∀ field ∈ Entries.keys fields, isOperator field = false) :
    split fields = .ok (fields, []) := by
  cases fields with
  | nil => rfl
  | cons entry rest =>
    have hoperators : (Entries.keys (entry :: rest)).any isOperator = false := by
      rw [List.any_eq_false]
      intro field hmem
      rw [h field hmem]
      exact Bool.false_ne_true
    have hfields : (Entries.keys (entry :: rest)).any (fun key => !isOperator key) = true :=
      List.any_eq_true.mpr ⟨entry.1, List.mem_cons_self, by
        rw [h entry.1 List.mem_cons_self]
        rfl⟩
    rw [split, style, hoperators, hfields]

/-- The stamps of an update that may store a document stand behind what it writes. -/
theorem stamped_upsert (policy : Policy) (now : DateTime) (set : Document) :
    stamped policy .upsert now (moveToEnd [] .set set)
      = moveToEnd [] .set set
        ++ ((if policy.modified then [(Operator.currentDate.key, [(modifiedField, .bool true)])]
            else [])
          ++ (if policy.created then
              [(Operator.setOnInsert.key, [(createdField, .dateTime now)])] else [])) := by
  -- no bucket but that of `$set` is there, so the stamps open buckets of their own
  obtain ⟨created, modified, deleted⟩ := policy
  cases set <;> cases created <;> cases modified <;> cases deleted <;> rfl

/-- The compiled form of a document of fields. -/
theorem compile_of_plain (h : ∀ field ∈ Entries.keys fields, isOperator field = false)
    (policy : Policy) (context : UpdateContext) (now : DateTime) :
    (compile policy context now fields).2
      = finish (stamped policy context now
          (moveToEnd [] .set (fields.filter (isCallers policy Operator.set.key)))) := by
  rw [compile, split_of_plain h]
  dsimp only
  rw [strip_eq_filter]
  rfl

theorem finish_eq_ok_iff {buckets : Buckets} :
    finish buckets = .ok update ↔ buckets ≠ [] ∧ update = toDocument buckets := by
  rw [finish]
  cases buckets with
  | nil =>
    refine ⟨fun h => ?_, fun h => absurd rfl h.1⟩
    cases h
  | cons entry rest =>
    refine ⟨fun h => ⟨List.cons_ne_nil entry rest, (Except.ok.inj h).symm⟩, fun h => ?_⟩
    rw [h.2]
    rfl

/-- **Applying** a document of fields writes them over a document. -/
theorem apply_of_plain (h : ∀ field ∈ Entries.keys fields, isOperator field = false)
    (hcompile : (compile policy .upsert now fields).2 = .ok update) (occasion : Occasion)
    (doc : Document) :
    Update.apply occasion update doc = .ok (overwrite policy now occasion fields doc) := by
  rw [compile_of_plain h, stamped_upsert, finish_eq_ok_iff] at hcompile
  rw [hcompile.2, overwrite]
  generalize fields.filter (isCallers policy Operator.set.key) = set
  obtain ⟨created, modified, deleted⟩ := policy
  obtain ⟨time, inserting⟩ := occasion
  cases set <;> cases created <;> cases modified <;> cases inserting <;> rfl

/-- Whether a document of fields compiles does not depend on the time. -/
theorem exists_compile_of_plain (h : ∀ field ∈ Entries.keys fields, isOperator field = false)
    (hcompile : (compile policy .upsert now fields).2 = .ok update) (later : DateTime) :
    ∃ update', (compile policy .upsert later fields).2 = .ok update' := by
  -- only an update without buckets is refused, and the time does not decide which there are
  rw [compile_of_plain h, stamped_upsert] at hcompile ⊢
  refine ⟨_, finish_eq_ok_iff.mpr ⟨fun hnone => (finish_eq_ok_iff.mp hcompile).1 ?_, rfl⟩⟩
  obtain ⟨created, modified, deleted⟩ := policy
  cases created
  · exact hnone
  · simp at hnone

/-- The stamps reach no field that the policy does not keep. -/
theorem get?_overwrite_of_not_owns {field : String} (hunowned : policy.owns field = false)
    (compiledAt : DateTime) (occasion : Occasion) (fields doc : Document) :
    Entries.get? (overwrite policy compiledAt occasion fields doc) field
      = Entries.get? (Entries.insertAll doc (fields.filter (isCallers policy Operator.set.key)))
          field := by
  obtain ⟨hcreated, hmodified, -⟩ := Policy.owns_eq_false_iff.mp hunowned
  have hstamped : ¬ ((policy.created && occasion.inserting) = true ∧ field = createdField) :=
    fun h => hcreated ⟨(Bool.and_eq_true_iff.mp h.1).1, h.2⟩
  rw [overwrite, Entries.get?_insertIf, if_neg hstamped, Entries.get?_insertIf, if_neg hmodified]

/-- A field that is written and that the policy does not keep holds afterwards what was written. -/
theorem get?_overwrite (hnodup : (Entries.keys fields).Nodup) {field : String} {value : Value}
    (hfield : Entries.get? fields field = some value) (hunowned : policy.owns field = false)
    (compiledAt : DateTime) (occasion : Occasion) (doc : Document) :
    Entries.get? (overwrite policy compiledAt occasion fields doc) field = some value := by
  have hcallers : isCallers policy Operator.set.key (field, value) = true := by
    have hset : Operator.set.key ≠ Operator.rename.key := by decide
    rw [isCallers, hunowned, decide_eq_false hset]
    rfl
  rw [get?_overwrite_of_not_owns hunowned]
  refine Entries.get?_insertAll_of_mem doc ?_
    (List.mem_filter.mpr ⟨Entries.mem_of_get? hfield, hcallers⟩)
  exact (List.filter_sublist.map Prod.fst).nodup hnodup

/-- Writing fields over a document that has them already writes the modification time alone, unless
the document is about to be stored. -/
theorem overwrite_of_held {doc : Document} (hnodup : (Entries.keys fields).Nodup)
    (h : ∀ field value, Entries.get? fields field = some value → policy.owns field = false →
      Entries.get? doc field = some value) (compiledAt time : DateTime) :
    overwrite policy compiledAt ⟨time, false⟩ fields doc
      = Entries.insertIf doc policy.modified modifiedField (.dateTime time) := by
  rw [overwrite, Entries.insertAll_of_get?, Bool.and_false]
  · rfl
  · rintro ⟨field, value⟩ hmem
    obtain ⟨hfield, hcallers⟩ := List.mem_filter.mp hmem
    rw [isCallers, Bool.and_eq_true, Bool.not_eq_true'] at hcallers
    exact h field value (Entries.get?_of_mem hnodup hfield) hcallers.1

end UpdateSpec

/-! ## The first match -/

/-- **The first match** of a query that makes sense of the documents: it matches, and none before it
does. -/
theorem Collection.first?_eq_some_iff [Runtime] {query : Document} {docs : List Document}
    (h : Query.Evaluates query docs) {position : Nat} {doc : Document} :
    first? query none docs = .ok (some (position, doc)) ↔
      docs[position]? = some doc ∧ Query.holds doc query = .ok true ∧
        ∀ earlier < position, ∀ other, docs[earlier]? = some other →
          Query.holds other query ≠ .ok true := by
  constructor
  · intro hfirst
    obtain ⟨hstored, hholds⟩ := first?_eq_some hfirst
    refine ⟨hstored, hholds, fun earlier hearlier other hother hmatches => ?_⟩
    rw [first?_of_evaluates h, Except.ok.injEq] at hfirst
    obtain ⟨found, -, heq⟩ := Option.map_eq_some_iff.mp hfirst
    cases heq
    obtain ⟨hlt, rfl⟩ := List.getElem?_eq_some_iff.mp hother
    have hnot := List.not_of_lt_findIdx hearlier
    rw [Query.accepts_iff.mpr hmatches] at hnot
    cases hnot
  · rintro ⟨hstored, hholds, hbefore⟩
    obtain ⟨hlt, hdoc⟩ := List.getElem?_eq_some_iff.mp hstored
    have hposition : docs.findIdx (Query.accepts query) = position := by
      refine (List.findIdx_eq hlt).mpr ⟨?_, fun earlier hearlier => ?_⟩
      · rw [hdoc, Query.accepts_iff]
        exact hholds
      · rw [← Bool.not_eq_true, Query.accepts_iff]
        exact hbefore earlier hearlier _ (List.getElem?_eq_getElem (Nat.lt_trans hearlier hlt))
    rw [first?_of_evaluates h, List.find?_eq_getElem?_findIdx, hposition, hstored]
    rfl

/-- **What an upsert has written** is the first match, if it matches. -/
theorem Store.Upserts.first? [Runtime] {store : Store} {now : DateTime} {collection : String}
    {query update : Document} {position : Nat} {doc : Document} {docs : List Document}
    (h : store.Upserts now collection query update none position doc docs)
    (hbefore : Query.Evaluates query (store.documents collection))
    (hafter : Query.Evaluates query docs) (hholds : Query.holds doc query = .ok true) :
    Collection.first? query none docs = .ok (some (position, doc)) := by
  refine (Collection.first?_eq_some_iff hafter).mpr
    ⟨h.written, hholds, fun earlier hearlier other hother => ?_⟩
  -- what stands before it stood there before the upsert, which has found no match in it
  rw [h.kept (Nat.ne_of_lt hearlier)] at hother
  cases h with
  | replaced hfirst _ =>
    exact ((Collection.first?_eq_some_iff hbefore).mp hfirst).2.2 earlier hearlier other hother
  | added hnone _ =>
    exact Collection.not_holds_of_first?_eq_none hnone (List.mem_of_getElem? hother)

/-! ## What a value holds -/

namespace Model

variable {α : Type}

/-- What a value holds in a field, once it is written as a document. -/
def holds? (model : Model α) (value : α) (field : String) : Except Error (Option Value) :=
  (model.encode value).map fun doc => Entries.get? doc field

/-- Whether a model **reads all times alike** in a field: a document that holds one time there is
read if it is read with another, and all other fields of the two values hold the same. -/
def ReadsTimesAlike (model : Model α) (field : String) : Prop :=
  ∀ (doc : Document) (time time' : DateTime) (value : α),
    model.decode (Entries.insert doc field (.dateTime time)) = .ok value →
    ∃ value', model.decode (Entries.insert doc field (.dateTime time')) = .ok value' ∧
      ∀ other, other ≠ field → model.holds? value' other = model.holds? value other

/-- A document whose time is written anew, if it is written at all, is read as another value that
holds the same in all other fields. -/
theorem exists_of_restamped {model : Model α} {stamped : Bool} {field : String}
    (hreads : stamped = true → model.ReadsTimesAlike field) {doc : Document} {time : DateTime}
    (hstamp : stamped = true → Entries.get? doc field = some (.dateTime time)) {value : α}
    (hvalue : model.decode doc = .ok value) (time' : DateTime) :
    ∃ value', model.decode (Entries.insertIf doc stamped field (.dateTime time')) = .ok value' ∧
      ∀ other, (stamped = true → other ≠ field) →
        model.holds? value' other = model.holds? value other := by
  cases stamped with
  | false => exact ⟨value, hvalue, fun _ _ => rfl⟩
  | true =>
    rw [← Entries.insert_of_get? (hstamp rfl)] at hvalue
    obtain ⟨value', hvalue', hsame⟩ := hreads rfl doc time time' value hvalue
    exact ⟨value', hvalue', fun other hne => hsame other (hne rfl)⟩

end Model

namespace RecordType

/-- A field of a record reads two times alike, and any other field does not read them. -/
theorem readField_insert {doc : Document} {own : RecordField} {field : String}
    {time : DateTime} {entries : Document}
    (h : readField (Entries.insert doc field (.dateTime time)) own = .ok entries)
    (time' : DateTime) :
    ∃ entries', readField (Entries.insert doc field (.dateTime time')) own = .ok entries' ∧
      ∀ other, other ≠ field → Entries.get? entries' other = Entries.get? entries other := by
  by_cases hkey : own.key = field
  · rw [readField, hkey, Entries.get?_insert_self] at h ⊢
    dsimp only at h ⊢
    -- only a field of times reads a time
    generalize own.codec = codec at h ⊢
    cases codec with
    | dateTime =>
      cases h
      refine ⟨_, rfl, fun other hne => ?_⟩
      rw [Entries.get?_cons, Entries.get?_cons, if_neg (Ne.symm hne), if_neg (Ne.symm hne)]
    | _ => cases h
  · refine ⟨entries, ?_, fun other _ => rfl⟩
    rw [← h, readField, readField, Entries.get?_insert_of_ne _ _ hkey,
      Entries.get?_insert_of_ne _ _ hkey]

/-- A record is read field by field. -/
theorem read_cons (own : RecordField) (type : RecordType) (doc : Document) :
    read (own :: type) doc
      = (readField doc own).bind fun entries => (read type doc).map (entries ++ ·) := by
  rw [read, read, List.mapM_cons]
  cases readField doc own with
  | error error => rfl
  | ok entries =>
    cases List.mapM (readField doc) type with
    | error error => rfl
    | ok records => rfl

/-- A record reads two times alike. -/
theorem read_insert {doc : Document} {field : String} {time : DateTime} (time' : DateTime) :
    ∀ (type : RecordType) {record : Document},
      type.read (Entries.insert doc field (.dateTime time)) = .ok record →
      ∃ record', type.read (Entries.insert doc field (.dateTime time')) = .ok record' ∧
        ∀ other, other ≠ field → Entries.get? record' other = Entries.get? record other
  | [], _, h => ⟨_, h, fun _ _ => rfl⟩
  | own :: type, record, h => by
    rw [read_cons, Outcome.bind_eq_ok_iff] at h
    obtain ⟨entries, hentries, hmap⟩ := h
    obtain ⟨rest, hrest, rfl⟩ := Outcome.map_eq_ok_iff.mp hmap
    obtain ⟨entries', hentries', hsame⟩ := readField_insert hentries time'
    obtain ⟨rest', hrest', hsame'⟩ := read_insert time' type hrest
    refine ⟨entries' ++ rest', ?_, fun other hne => ?_⟩
    · rw [read_cons, hentries', hrest']
      rfl
    · rw [Entries.get?_append, Entries.get?_append, hsame other hne, hsame' other hne]

end RecordType

/-- Records are read alike. -/
theorem Model.readsTimesAlike_ofRecords (name plural collection connector : String)
    (type : RecordType) (field : String) :
    (ofRecords name plural collection connector type).ReadsTimesAlike field := by
  intro doc time time' value h
  obtain ⟨value', hread, hsame⟩ := type.read_insert time' h
  exact ⟨value', hread, fun other hne => congrArg Except.ok (hsame other hne)⟩

/-! ## Finding or creating -/

namespace Repository

open DocStore.Action (bind_apply keepsStore_ofExcept)

variable {α : Type} {repository : Repository α} {condition : Condition} {value : α}
  {doc : Document}

/-- A filter that has nothing but a condition has no options. -/
theorem options_of_restricted {compiled : CompiledFilter}
    (h : repository.restricted { condition := condition } = .ok compiled) :
    compiled.options = {} := by
  obtain ⟨unrestricted, hcompile, rfl⟩ := Outcome.map_eq_ok_iff.mp h
  rw [Filter.compile] at hcompile
  obtain ⟨query, -, hoptions⟩ := Outcome.bind_eq_ok_iff.mp hcompile
  cases hoptions
  rfl

/-- Reading a document that is there. -/
theorem readBack_apply (repository : Repository α) (doc : Document) (moment : Moment)
    (session : Session) :
    (do
      let value ← Action.ofExcept (repository.model.decodeOption (some doc))
      found value : Action α) moment session = (repository.model.decode doc, session) := by
  rw [bind_apply, Action.ofExcept, Model.decodeOption]
  cases repository.model.decode doc with
  | error error => rfl
  | ok value => rfl

section

variable [Runtime]

/-- **A document that fulfils a condition** by fields of its own: it holds what the condition asks
for, it has every field that the condition names, and the policy keeps none of these fields. -/
structure FulfilledBy (repository : Repository α) (condition : Condition) (doc : Document) :
    Prop where
  /-- The document has fields, and no operators. -/
  plain : ∀ field ∈ Entries.keys doc, isOperator field = false
  /-- It has each of them once. -/
  nodup : (Entries.keys doc).Nodup
  /-- The condition holds for it. -/
  meaning : condition.meaning repository.schema doc = true
  /-- It has every field that is named. -/
  held : ∀ field, condition.Names repository.schema field → field ∈ Entries.keys doc
  /-- The policy keeps no field that is named. -/
  unowned : ∀ field, condition.Names repository.schema field →
    repository.policy.owns field = false

/-- **A value that is found or created** is read from the document that an upsert has written. -/
theorem exists_of_findOneOrCreate (hdoc : repository.model.toDocument value = .ok doc)
    {moment : Moment} {session : Session} {result : α}
    (h : (repository.findOneOrCreate { condition := condition } value moment session).1
      = .ok result) :
    ∃ compiled update position written,
      repository.restricted { condition := condition } = .ok compiled ∧
      (UpdateSpec.compile repository.policy .upsert moment.now doc).2 = .ok update ∧
      session.store.Upserts moment.now repository.collection compiled.query update none position
        written (repository.stored
          (repository.findOneOrCreate { condition := condition } value moment session).2) ∧
      repository.model.decode written = .ok result := by
  rw [repository.findOneOrCreate_of_document hdoc] at h ⊢
  obtain ⟨compiled, update, reply, session', hfilter, hcompile, hrun, hnext⟩ :=
    exists_of_updating
      (fun _ => (keepsStore_ofExcept _).bind fun _ => keepsStore_ofExcept _) h
  obtain ⟨position, written, hupserts, rfl⟩ := Store.upserts_of_findOneAndUpdate hrun
  rw [options_of_restricted hfilter] at hupserts hnext
  have hread := congrArg Prod.fst (repository.readBack_apply written moment session')
  exact ⟨compiled, update, position, written, hfilter, hcompile, hupserts, hread.symm.trans hnext⟩

/-- **A call that finds a match** updates it where it stands and reads it. -/
theorem findOneOrCreate_of_first? (hdoc : repository.model.toDocument value = .ok doc)
    {moment : Moment} {session : Session}
    (hintime : moment.latency.exceeds repository.options.timeout = false)
    {compiled : CompiledFilter}
    (hfilter : repository.restricted { condition := condition } = .ok compiled)
    {update : Document}
    (hcompile : (UpdateSpec.compile repository.policy .upsert moment.now doc).2 = .ok update)
    {position : Nat} {before after : Document}
    (hfirst : Collection.first? compiled.query none (repository.stored session)
      = .ok (some (position, before)))
    (hupdate : Collection.updated moment.now update before = .ok after) :
    (repository.findOneOrCreate { condition := condition } value moment session).1
        = repository.model.decode after ∧
      repository.stored
          (repository.findOneOrCreate { condition := condition } value moment session).2
        = (repository.stored session).set position after := by
  rw [stored] at hfirst
  have hrun : session.store.findOneAndUpdate moment.now repository.collection compiled.query update
      compiled.options true
      = .ok (some after, session.store.withDocuments repository.collection
          ((session.store.documents repository.collection).set position after)) := by
    rw [Store.findOneAndUpdate, options_of_restricted hfilter, hfirst]
    dsimp only
    rw [hupdate]
    rfl
  rw [repository.findOneOrCreate_of_document hdoc, bind_apply, compile_apply, hfilter]
  dsimp only
  rw [bind_apply, compileUpdate_apply]
  dsimp only
  rw [hcompile]
  dsimp only
  rw [bind_apply, repository.call_apply _ hintime, Store.answer, Call.run, hrun]
  dsimp only
  rw [repository.readBack_apply]
  exact ⟨rfl, Store.documents_withDocuments_self _ _ _⟩

section

variable (hfulfilled : repository.FulfilledBy condition doc) {now : DateTime} {update : Document}
  (hcompile : (UpdateSpec.compile repository.policy .upsert now doc).2 = .ok update)
  {compiled : CompiledFilter} {store : Store} {position : Nat} {written : Document}
  {docs : List Document}
  (h : store.Upserts now repository.collection compiled.query update none position written docs)

include hcompile h

/-- What a call has written holds the time of the call, if the policy keeps the modification
time. -/
theorem get?_modifiedField_of_upserts (hmodified : repository.policy.modified = true) :
    Entries.get? written modifiedField = some (.dateTime now) := by
  refine h.get?_of_apply fun inserting before after happly => ?_
  rw [UpdateSpec.get?_apply_compile hcompile happly (UpdateSpec.owns_modifiedField hmodified),
    UpdateSpec.ownedAfter_modifiedField hmodified]

include hfulfilled

/-- **What a call has written** holds all fields of the value that the policy does not keep. -/
theorem get?_of_upserts {field : String} {held : Value} (hheld : Entries.get? doc field = some held)
    (hunowned : repository.policy.owns field = false) :
    Entries.get? written field = some held := by
  refine h.get?_of_apply fun inserting before after happly => ?_
  rw [UpdateSpec.apply_of_plain hfulfilled.plain hcompile] at happly
  rw [← Except.ok.inj happly]
  exact UpdateSpec.get?_overwrite hfulfilled.nodup hheld hunowned now ⟨now, inserting⟩ before

variable (hnames : repository.schema.HasPlainNames)
  (hpatterns : ∀ test ∈ condition.leaves, test.2.PatternsParse)
  (hfilter : repository.restricted { condition := condition } = .ok compiled)

include hnames hpatterns hfilter

/-- **What a call has written** matches its filter. -/
theorem holds_of_fulfilled : Query.holds written compiled.query = .ok true := by
  have hshown : (!repository.policy.deleted || written.isShown) = true := by
    refine isShown_of_upserts hnames ?_ ?_ hfilter hcompile h
    · exact hpatterns
    · exact hfulfilled.unowned
  have hmeaning : condition.meaning repository.schema written
      = condition.meaning repository.schema doc := by
    refine Condition.meaning_congr condition fun field hnamed => ?_
    obtain ⟨held, hheld⟩ := Option.isSome_iff_exists.mp
      ((Entries.contains_iff doc field).mpr (hfulfilled.held field hnamed))
    rw [hheld, get?_of_upserts hfulfilled hcompile h hheld (hfulfilled.unowned field hnamed)]
  rw [holds_restricted hnames hpatterns hfilter, hshown, Bool.and_true, hmeaning,
    hfulfilled.meaning]

/-- **A second call** finds what the first has written, and writes the modification time alone. -/
theorem findOneOrCreate_again (hdoc : repository.model.toDocument value = .ok doc)
    {session : Session} (hstored : repository.stored session = docs) {moment : Moment}
    (hintime : moment.latency.exceeds repository.options.timeout = false) :
    let again := repository.findOneOrCreate { condition := condition } value moment session
    let rewritten := Entries.insertIf written repository.policy.modified modifiedField
      (.dateTime moment.now)
    again.1 = repository.model.decode rewritten ∧
      repository.stored again.2 = docs.set position rewritten := by
  subst hstored
  have hfirst := h.first? (evaluates_restricted hnames hpatterns hfilter _)
    (evaluates_restricted hnames hpatterns hfilter _)
    (holds_of_fulfilled hfulfilled hcompile h hnames hpatterns hfilter)
  obtain ⟨update', hcompile'⟩ :=
    UpdateSpec.exists_compile_of_plain hfulfilled.plain hcompile moment.now
  -- the fields of the value are written there already
  have hupdate : Collection.updated moment.now update' written
      = .ok (Entries.insertIf written repository.policy.modified modifiedField
          (.dateTime moment.now)) := by
    rw [Collection.updated, UpdateSpec.apply_of_plain hfulfilled.plain hcompile',
      UpdateSpec.overwrite_of_held hfulfilled.nodup fun field held =>
        get?_of_upserts hfulfilled hcompile h]
  exact findOneOrCreate_of_first? hdoc hintime hfilter hcompile' hfirst hupdate

end

/-- **Finding or creating is idempotent.** Let a filter have nothing but a condition, and let the
document of a value fulfil it. A call that succeeds has written one document, which holds all fields
of the value that the policy does not keep, has left all others as they were, and gives what it
reads there. A call that follows, at whatever moment, rewrites this document where it stands and
touches no other: only its modification time changes, if the policy keeps it. So what the second
call reads has the same key, the same creation time and the same fields, and if the model reads one
time as it reads another, it gives a value that agrees with the first in all of them. -/
theorem findOneOrCreate_idempotent (hnames : repository.schema.HasPlainNames)
    (hpatterns : ∀ test ∈ condition.leaves, test.2.PatternsParse)
    (hdoc : repository.model.toDocument value = .ok doc)
    (hfulfilled : repository.FulfilledBy condition doc) {moment : Moment} {session : Session}
    {result : α}
    (h : (repository.findOneOrCreate { condition := condition } value moment session).1
      = .ok result) :
    let after := (repository.findOneOrCreate { condition := condition } value moment session).2
    ∃ position written,
      (repository.stored after)[position]? = some written ∧
      repository.model.decode written = .ok result ∧
      (∀ field held, Entries.get? doc field = some held → repository.policy.owns field = false →
        Entries.get? written field = some held) ∧
      (∀ other, other ≠ position →
        (repository.stored after)[other]? = (repository.stored session)[other]?) ∧
      ∀ later : Moment, later.latency.exceeds repository.options.timeout = false →
        let again := repository.findOneOrCreate { condition := condition } value later after
        let rewritten := Entries.insertIf written repository.policy.modified modifiedField
          (.dateTime later.now)
        repository.stored again.2 = (repository.stored after).set position rewritten ∧
        (∀ field, (repository.policy.modified = true → field ≠ modifiedField) →
          Entries.get? rewritten field = Entries.get? written field) ∧
        again.1 = repository.model.decode rewritten ∧
        ((repository.policy.modified = true → repository.model.ReadsTimesAlike modifiedField) →
          ∃ result', again.1 = .ok result' ∧
            ∀ field, (repository.policy.modified = true → field ≠ modifiedField) →
              repository.model.holds? result' field = repository.model.holds? result field) := by
  obtain ⟨compiled, update, position, written, hfilter, hcompile, hupserts, hread⟩ :=
    exists_of_findOneOrCreate hdoc h
  refine ⟨position, written, hupserts.written, hread,
    fun field held => get?_of_upserts hfulfilled hcompile hupserts,
    fun other hne => hupserts.kept hne, fun later hintime => ?_⟩
  obtain ⟨hanswer, hstored⟩ := findOneOrCreate_again hfulfilled hcompile hupserts hnames hpatterns
    hfilter hdoc rfl hintime
  refine ⟨hstored, fun field hne => ?_, hanswer, fun hreads => ?_⟩
  · rw [Entries.get?_insertIf, if_neg fun hmodified => hne hmodified.1 hmodified.2]
  · rw [hanswer]
    exact Model.exists_of_restamped hreads
      (get?_modifiedField_of_upserts hcompile hupserts) hread later.now

end

/-- An article that is not there is created, and found by the second call: it keeps its key and the
time of its creation. -/
theorem findOneOrCreate_idempotent_articles :
    ∃ (repository : Repository Document) (condition : Condition) (value : Document)
      (moment later : Moment) (session : Session) (result result' : Document),
      let first := repository.findOneOrCreate { condition := condition } value moment session
      let again := repository.findOneOrCreate { condition := condition } value later first.2
      repository.policy = ⟨true, true, true⟩ ∧
      (repository.stored session).length = 1 ∧ (repository.stored first.2).length = 2 ∧
      (repository.stored again.2).length = 2 ∧
      first.1 = .ok result ∧ again.1 = .ok result' ∧
      ∀ field ∈ ["_id", "created"],
        repository.model.holds? result' field = repository.model.holds? result field := by
  let type : RecordType :=
    [⟨"id", "_id", "ObjectId", .objectId, .optional, true⟩,
      ⟨"title", "title", "String", .string, .required, true⟩,
      ⟨"views", "views", "i64", .int64, .required, true⟩,
      ⟨"created", "created", "DateTime", .dateTime, .optional, true⟩,
      ⟨"modified", "modified", "DateTime", .dateTime, .optional, true⟩]
  let repository : Repository Document :=
    ⟨.ofRecords "Article" "Articles" "articles" "default" type,
      ⟨"Article", [("title", ⟨"title", .string⟩), ("views", ⟨"views", .int64⟩)]⟩,
      { policy := ⟨true, true, true⟩ }⟩
  let condition : Condition :=
    .and [.field "title" (.eq (.string "a")), .nor [.field "views" (.lt (.int64 3))]]
  let value : Document := [("title", .string "a"), ("views", .int64 5)]
  let moment : Moment := ⟨⟨2000⟩, ⟨0, 0⟩⟩
  let later : Moment := ⟨⟨3000⟩, ⟨0, 0⟩⟩
  let session : Session :=
    ⟨⟨[("articles", [[("_id", .int32 0), ("title", .string "a"), ("views", .int64 1)]])],
      .ofSource ⟨0, 0, 0⟩⟩, [], []⟩
  have hnames : repository.schema.HasPlainNames := by
    unfold Schema.HasPlainNames
    decide
  have hleaves : condition.leaves
      = [("title", .eq (.string "a")), ("views", .lt (.int64 3))] := rfl
  have hpatterns : ∀ test ∈ condition.leaves, test.2.PatternsParse := by
    intro test hmem entry hentry
    rw [hleaves] at hmem
    rcases List.mem_pair.mp hmem with rfl | rfl <;> cases hentry
  have hnamed : ∀ field, condition.Names repository.schema field →
      field = "title" ∨ field = "views" := by
    rintro field ⟨test, hmem, info, hinfo, rfl⟩
    rw [hleaves] at hmem
    rcases List.mem_pair.mp hmem with rfl | rfl
    · cases hinfo
      exact Or.inl rfl
    · cases hinfo
      exact Or.inr rfl
  have hfulfilled : repository.FulfilledBy condition value := by
    refine ⟨by decide, by decide, by decide +kernel, fun field h => ?_, fun field h => ?_⟩
    · rcases hnamed field h with rfl | rfl <;> decide
    · rcases hnamed field h with rfl | rfl <;> rfl
  have hok : (repository.findOneOrCreate { condition := condition } value moment session).1.isOk
      = true := by decide +kernel
  have hlength : (repository.stored
      (repository.findOneOrCreate { condition := condition } value moment session).2).length
      = 2 := by decide +kernel
  obtain ⟨result, hresult⟩ := Outcome.exists_of_isOk hok
  have hvalue : repository.model.toDocument value = .ok value := rfl
  obtain ⟨position, written, -, -, -, -, hagain⟩ :=
    findOneOrCreate_idempotent hnames hpatterns hvalue hfulfilled hresult
  obtain ⟨hstored, -, -, hreads⟩ := hagain later rfl
  obtain ⟨result', hresult', hsame⟩ :=
    hreads fun _ => Model.readsTimesAlike_ofRecords _ _ _ _ type modifiedField
  have hlength' := (congrArg List.length hstored).trans List.length_set
  have hkept : ∀ field ∈ ["_id", "created"],
      repository.model.holds? result' field = repository.model.holds? result field := by
    intro field hmem
    refine hsame field fun _ => ?_
    rcases List.mem_pair.mp hmem with rfl | rfl <;> decide
  exact ⟨repository, condition, value, moment, later, session, result, result', rfl, rfl, hlength,
    hlength'.trans hlength, hresult, hresult', hkept⟩

end Repository

end DocStore
