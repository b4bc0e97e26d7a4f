import DocStore.Proofs.FailedOperations
import DocStore.Proofs.NamedFields

/-! # Upserts converge

An upsert rewrites the first match of its filter where it stands, or stores a document at the end
(`Store.Upserts`). Where the filter is a conjunction of equalities, a document that is stored holds
what the filter asks for (`Condition.meaning_of_fixed`), and an update that avoids the fields of the
filter leaves it there, so what an upsert has written matches its filter
(`Repository.holds_of_upserts`), and no repetition stores another document
(`Repository.run_of_hasMatch`). -/

namespace DocStore

/-! ## Conjunctions of equalities -/

/-- What is the same as an operand equals it. -/
theorem FieldTest.equals_of_same {stored operand : Value} (h : same stored operand = true) :
    equals (some stored) operand = true := by
  cases stored with
  | array items =>
    cases operand with
    | array expected => exact h
    | _ => cases h
  | _ => exact h

namespace Condition

mutual

/-- Whether a condition is a **conjunction of equalities**, nested or not. -/
def isConjunction : Condition → Bool
  | .and children => areConjunctions children
  | .or _ | .nor _ => false
  | .field _ (.eq _) => true
  | .field _ _ => false
termination_by structural condition => condition

/-- Whether all of several conditions are conjunctions of equalities. -/
def areConjunctions : List Condition → Bool
  | [] => true
  | condition :: rest => isConjunction condition && areConjunctions rest
termination_by structural conditions => conditions

end

/-- Whether the equalities of a condition **agree**: two on one field ask for the same value, and
each for one that is the same as itself. -/
def Agrees (schema : Schema) (condition : Condition) : Prop :=
  ∀ name value info name' value' info',
    (name, .eq value) ∈ condition.leaves → schema.resolve name = .ok info →
    (name', .eq value') ∈ condition.leaves → schema.resolve name' = .ok info' →
    info.storageName = info'.storageName → FieldTest.same value value' = true

mutual

/-- A conjunction holds if its equalities do. -/
theorem meaning_of_equalities [Runtime] {schema : Schema} {doc : Document} :
    ∀ condition : Condition, condition.isConjunction = true →
      (∀ name value, (name, .eq value) ∈ condition.leaves → ∃ info,
        schema.resolve name = .ok info ∧
          FieldTest.equals (Entries.get? doc info.storageName) value = true) →
      condition.meaning schema doc = true
  | .and children, hconjunction, h => by
    rw [isConjunction] at hconjunction
    rw [meaning]
    exact allMean_of_equalities children hconjunction h
  | .or children, hconjunction, _ | .nor children, hconjunction, _ => by
    rw [isConjunction] at hconjunction
    cases hconjunction
  | .field name operator, hconjunction, h => by
    cases operator with
    | eq value =>
      obtain ⟨info, hinfo, hequals⟩ := h name value (List.mem_singleton_self _)
      rw [meaning, hinfo]
      exact hequals
    | _ => cases hconjunction
termination_by structural condition => condition

theorem allMean_of_equalities [Runtime] {schema : Schema} {doc : Document} :
    ∀ conditions : List Condition, areConjunctions conditions = true →
      (∀ name value, (name, .eq value) ∈ leavesAll conditions → ∃ info,
        schema.resolve name = .ok info ∧
          FieldTest.equals (Entries.get? doc info.storageName) value = true) →
      allMean schema doc conditions = true
  | [], _, _ => rfl
  | condition :: rest, hconjunction, h => by
    rw [areConjunctions, Bool.and_eq_true] at hconjunction
    rw [allMean, Bool.and_eq_true]
    exact ⟨meaning_of_equalities condition hconjunction.1 fun name value hmem =>
        h name value (List.mem_append_left _ hmem),
      allMean_of_equalities rest hconjunction.2 fun name value hmem =>
        h name value (List.mem_append_right _ hmem)⟩
termination_by structural conditions => conditions

end

mutual

/-- A conjunction fixes every field that it names. -/
theorem isSome_fixed? {schema : Schema} {field : String} :
    ∀ condition : Condition, condition.isConjunction = true → condition.Names schema field →
      (condition.fixed? schema field).isSome = true
  | .and children, hconjunction, h => by
    rw [isConjunction] at hconjunction
    rw [fixed?]
    exact isSome_fixedAmong? children hconjunction h
  | .or children, hconjunction, _ | .nor children, hconjunction, _ => by
    rw [isConjunction] at hconjunction
    cases hconjunction
  | .field name operator, hconjunction, h => by
    obtain ⟨test, hmem, info, hinfo, hfield⟩ := h
    rw [List.mem_singleton.mp hmem] at hinfo
    rw [fixed?, hinfo]
    dsimp only
    rw [if_pos hfield]
    cases operator with
    | eq value => rfl
    | _ => cases hconjunction
termination_by structural condition => condition

theorem isSome_fixedAmong? {schema : Schema} {field : String} :
    ∀ conditions : List Condition, areConjunctions conditions = true →
      NamedIn schema field (leavesAll conditions) →
      (fixedAmong? schema field conditions).isSome = true
  | [], _, ⟨_, hmem, _⟩ => by cases hmem
  | condition :: rest, hconjunction, ⟨test, hmem, hinfo⟩ => by
    rw [areConjunctions, Bool.and_eq_true] at hconjunction
    rw [fixedAmong?, Option.isSome_or, Bool.or_eq_true]
    rcases List.mem_append.mp hmem with hleft | hright
    · exact Or.inr (isSome_fixed? condition hconjunction.1 ⟨test, hleft, hinfo⟩)
    · exact Or.inl (isSome_fixedAmong? rest hconjunction.2 ⟨test, hright, hinfo⟩)
termination_by structural conditions => conditions

end

/-- **A document that holds what a conjunction fixes** meets it, if its equalities agree. -/
theorem meaning_of_fixed [Runtime] {schema : Schema} {condition : Condition} {doc : Document}
    (hconjunction : condition.isConjunction = true) (hagrees : condition.Agrees schema)
    (hresolves : ∀ test ∈ condition.leaves, ∃ info, schema.resolve test.1 = .ok info)
    (h : ∀ field, condition.Names schema field →
      Entries.get? doc field = condition.fixed? schema field) :
    condition.meaning schema doc = true := by
  refine meaning_of_equalities condition hconjunction fun name value hmem => ?_
  obtain ⟨info, hinfo⟩ := hresolves _ hmem
  have hnamed : condition.Names schema info.storageName := ⟨_, hmem, info, hinfo, rfl⟩
  obtain ⟨fixed, hfixed⟩ :=
    Option.isSome_iff_exists.mp (isSome_fixed? condition hconjunction hnamed)
  -- the field holds the operand of one equality, and every other one on it agrees with that
  obtain ⟨name', info', hmem', hinfo', hfield⟩ := exists_of_fixed? condition hfixed
  refine ⟨info, hinfo, ?_⟩
  rw [h _ hnamed, hfixed]
  exact FieldTest.equals_of_same (hagrees name' fixed info' name value info hmem' hinfo' hmem hinfo
    hfield)

mutual

/-- The tests of a conjunction are for equality. -/
theorem exists_of_isConjunction : ∀ condition : Condition, condition.isConjunction = true →
    ∀ test ∈ condition.leaves, ∃ value, test.2 = .eq value
  | .and children, hconjunction, test, hmem => by
    rw [isConjunction] at hconjunction
    exact exists_of_areConjunctions children hconjunction test hmem
  | .or children, hconjunction, _, _ | .nor children, hconjunction, _, _ => by
    rw [isConjunction] at hconjunction
    cases hconjunction
  | .field name operator, hconjunction, test, hmem => by
    rw [List.mem_singleton.mp hmem]
    cases operator with
    | eq value => exact ⟨value, rfl⟩
    | _ => cases hconjunction
termination_by structural condition => condition

theorem exists_of_areConjunctions : ∀ conditions : List Condition,
    areConjunctions conditions = true →
    ∀ test ∈ leavesAll conditions, ∃ value, test.2 = .eq value
  | [], _, _, hmem => by cases hmem
  | condition :: rest, hconjunction, test, hmem => by
    rw [areConjunctions, Bool.and_eq_true] at hconjunction
    rcases List.mem_append.mp hmem with hleft | hright
    · exact exists_of_isConjunction condition hconjunction.1 test hleft
    · exact exists_of_areConjunctions rest hconjunction.2 test hright
termination_by structural conditions => conditions

end

/-- A conjunction of equalities has no patterns, so all of them are well formed. -/
theorem patternsParse_of_isConjunction [Runtime] {condition : Condition}
    (h : condition.isConjunction = true) : ∀ test ∈ condition.leaves, test.2.PatternsParse := by
  intro test hmem
  obtain ⟨value, hvalue⟩ := exists_of_isConjunction condition h test hmem
  rw [hvalue]
  exact fun entry hentry => absurd hentry List.not_mem_nil

end Condition

/-! ## What an upsert does to a collection -/

namespace Store

variable [Runtime]

/-- **What an upsert does** to a collection: at which position it writes which document, and the
documents afterwards. -/
inductive Upserts (store : Store) (now : DateTime) (collection : String) (query update : Document)
    (sort : Option Document) : Nat → Document → List Document → Prop
  /-- The first match is replaced. -/
  | replaced {position : Nat} {doc doc' : Document} :
    Collection.first? query sort (store.documents collection) = .ok (some (position, doc)) →
    Collection.updated now update doc = .ok doc' →
    Upserts store now collection query update sort position doc'
      ((store.documents collection).set position doc')
  /-- Nothing matches, and the update of the seed is stored with its key. -/
  | added {asked : Document} :
    Collection.first? query sort (store.documents collection) = .ok none →
    Collection.fresh now query update = .ok asked →
    Upserts store now collection query update sort (store.documents collection).length
      (keyed store.ids asked).2.1 (store.documents collection ++ [(keyed store.ids asked).2.1])

namespace Upserts

variable {store : Store} {now : DateTime} {collection : String} {query update : Document}
  {sort : Option Document} {position : Nat} {doc : Document} {docs : List Document}

/-- The document stands at the position. -/
theorem written (h : store.Upserts now collection query update sort position doc docs) :
    docs[position]? = some doc := by
  cases h with
  | replaced hfirst _ =>
    obtain ⟨hstored, -⟩ := Collection.first?_eq_some hfirst
    obtain ⟨hlt, -⟩ := List.getElem?_eq_some_iff.mp hstored
    exact List.getElem?_set_self hlt
  | added _ _ => exact List.getElem?_concat_length

/-- All other documents stay as they are. -/
theorem kept (h : store.Upserts now collection query update sort position doc docs) {other : Nat}
    (hne : other ≠ position) : docs[other]? = (store.documents collection)[other]? := by
  cases h with
  | replaced _ _ => exact List.getElem?_set_ne (Ne.symm hne)
  | added _ _ =>
    rw [List.getElem?_append]
    split
    · rfl
    · rename_i hge
      have hlt : (store.documents collection).length < other := by omega
      rw [List.getElem?_eq_none (Nat.le_of_lt hlt)]
      exact List.getElem?_eq_none (by rw [List.length_singleton]; omega)

/-- The document holds what every application of the update leaves in a field. -/
theorem get?_of_apply (h : store.Upserts now collection query update sort position doc docs)
    {field : String} {value : Value}
    (happly : ∀ inserting before after, Update.apply ⟨now, inserting⟩ update before = .ok after →
      Entries.get? after field = some value) : Entries.get? doc field = some value := by
  cases h with
  | replaced _ hupdate => exact happly _ _ _ hupdate
  | added _ hfresh => exact get?_keyed_of_some store.ids (happly _ _ _ hfresh)

/-- Where the collection is longer than it was, the update of the seed stands at its end. -/
theorem exists_asked_of_length_ne
    (h : store.Upserts now collection query update sort position doc docs)
    (hlength : docs.length ≠ (store.documents collection).length) :
    ∃ asked, Collection.fresh now query update = .ok asked ∧
      docs = store.documents collection ++ [(keyed store.ids asked).2.1] := by
  cases h with
  | replaced _ _ => exact absurd List.length_set hlength
  | @added asked _ hfresh => exact ⟨asked, hfresh, rfl⟩

/-- Where something matches, no document is added. -/
theorem length_eq (h : store.Upserts now collection query update sort position doc docs)
    (hsome : Collection.first? query sort (store.documents collection) ≠ .ok none) :
    docs.length = (store.documents collection).length := by
  cases h with
  | replaced _ _ => exact List.length_set
  | added hnone _ => exact absurd hnone hsome

end Upserts

variable {store store' : Store} {now : DateTime} {collection : String} {query update : Document}

/-- Storing the update of a seed is an upsert where nothing matches. -/
theorem upserts_of_insertSeeded {sort : Option Document} {key : Value} {doc : Document}
    (hfirst : Collection.first? query sort (store.documents collection) = .ok none)
    (h : store.insertSeeded now collection query update = .ok (key, doc, store')) :
    store.Upserts now collection query update sort (store.documents collection).length doc
      (store'.documents collection) := by
  rw [insertSeeded] at h
  split at h
  · cases h
  · rename_i asked hasked
    cases h
    rw [documents_withDocuments_self]
    exact .added hfirst hasked

/-- An update that may store a document is an upsert; where something matches, it says so. -/
theorem upserts_of_updateOne {outcome : Collection.UpdateOutcome}
    (h : store.updateOne now collection query update true = .ok (outcome, store')) :
    ∃ position doc,
      store.Upserts now collection query update none position doc
        (store'.documents collection) ∧
      (Collection.first? query none (store.documents collection) = .ok none ∨
        (outcome.matched = 1 ∧ outcome.upsertedKey = none)) := by
  rw [updateOne] at h
  dsimp only at h
  split at h
  · cases h
  · rename_i position found hfirst
    split at h
    · cases h
    · rename_i replacement hupdate
      cases h
      rw [documents_withDocuments_self]
      exact ⟨position, replacement, .replaced hfirst hupdate, Or.inr ⟨rfl, rfl⟩⟩
  · rename_i hfirst
    rw [if_pos rfl] at h
    obtain ⟨⟨key, doc, grown⟩, hseeded, heq⟩ := Outcome.map_eq_ok_iff.mp h
    cases heq
    exact ⟨_, doc, upserts_of_insertSeeded hfirst hseeded, Or.inl hfirst⟩

/-- An update that may store a document and reads it is an upsert, and it reads the document that it
has written. -/
theorem upserts_of_findOneAndUpdate {options : QueryOptions} {reply : Option Document}
    (h : store.findOneAndUpdate now collection query update options true = .ok (reply, store')) :
    ∃ position doc,
      store.Upserts now collection query update options.sort position doc
        (store'.documents collection) ∧
      reply = some (options.view doc) := by
  rw [findOneAndUpdate] at h
  dsimp only at h
  split at h
  · cases h
  · rename_i position found hfirst
    split at h
    · cases h
    · rename_i replacement hupdate
      cases h
      rw [documents_withDocuments_self]
      exact ⟨position, replacement, .replaced hfirst hupdate, rfl⟩
  · rename_i hfirst
    rw [if_pos rfl] at h
    obtain ⟨⟨key, doc, grown⟩, hseeded, heq⟩ := Outcome.map_eq_ok_iff.mp h
    cases heq
    exact ⟨_, doc, upserts_of_insertSeeded hfirst hseeded, rfl⟩

end Store

namespace Repository

open DocStore.Action

variable {α β : Type} {repository : Repository α}

/-! ## Upserts of a repository -/

/-- **An update apart from a condition**: the condition is a conjunction of equalities that agree,
the policy keeps none of the fields that it names, and the update avoids them. -/
structure UpsertsApart (repository : Repository α) (condition : Condition) (spec : Document) :
    Prop where
  /-- The condition is a conjunction of equalities. -/
  conjunction : condition.isConjunction = true
  /-- The equalities agree. -/
  agrees : condition.Agrees repository.schema
  /-- The policy keeps no field that is named. -/
  unowned : ∀ field, condition.Names repository.schema field →
    repository.policy.owns field = false
  /-- The update avoids the fields that are named. -/
  avoids : ∀ field, condition.Names repository.schema field → UpdateSpec.Avoids field spec

/-- A document that is stored because nothing matches is shown, if the policy keeps no field that
the filter names. -/
theorem isShown_of_isSeeded (hdeleted : repository.policy.deleted = true) {filter : Filter}
    (hunowned : ∀ field, filter.condition.Names repository.schema field →
      repository.policy.owns field = false)
    {compiled : CompiledFilter} (hfilter : repository.restricted filter = .ok compiled)
    {now : DateTime} {spec update stored : Document}
    (hcompile : (UpdateSpec.compile repository.policy .upsert now spec).2 = .ok update)
    (h : Collection.IsSeeded now compiled.query update stored) : stored.isShown = true := by
  have hnot : ¬ filter.condition.Names repository.schema deletedField := fun hnamed => by
    have howns := hunowned deletedField hnamed
    rw [Policy.owns_deletedField hdeleted] at howns
    cases howns
  -- a marker can only come from the filter, which would have to fix the field
  rw [← Bool.not_eq_false, Document.isShown_eq_false_iff]
  rintro ⟨at_, hget⟩
  rw [get?_deletedField_of_isSeeded hdeleted hfilter hcompile h,
    Condition.fixed?_of_not_names hnot] at hget
  cases hget

section

variable [Runtime]

/-- **An operation that compiles a filter and an update and then makes a call**: if it succeeds,
both are compiled, the call is carried out, and what follows succeeds. -/
theorem exists_of_updating {context : UpdateContext} {filter : Filter} {spec : Document}
    {kind : ReplyKind} {make : CompiledFilter → Document → Call kind}
    {next : kind.Reply → Action β} {moment : Moment} {session : Session} {value : β}
    (hkeeps : ∀ reply, KeepsStore (next reply)) :
    let action : Action β := do
      let compiled ← repository.compile filter
      let update ← repository.compileUpdate context spec
      let reply ← repository.call (make compiled update)
      next reply
    (action moment session).1 = .ok value →
    ∃ compiled update reply session',
      repository.restricted filter = .ok compiled ∧
      (UpdateSpec.compile repository.policy context moment.now spec).2 = .ok update ∧
      (make compiled update).run moment.now session.store
        = .ok (reply, (action moment session).2.store) ∧
      (next reply moment session').1 = .ok value := by
  intro action h
  simp only [action] at h ⊢
  rw [bind_apply, compile_apply] at h ⊢
  cases hfilter : repository.restricted filter with
  | error fault => rw [hfilter] at h; cases h
  | ok compiled =>
    rw [hfilter] at h
    dsimp only at h ⊢
    rw [bind_apply, compileUpdate_apply] at h ⊢
    dsimp only at h ⊢
    cases hcompile : (UpdateSpec.compile repository.policy context moment.now spec).2 with
    | error fault => rw [hcompile] at h; cases h
    | ok update =>
      rw [hcompile] at h
      dsimp only at h ⊢
      rw [store_bind hkeeps, store_call, storeAfter]
      by_cases hlate : moment.latency.exceeds repository.options.timeout = true
      · rw [bind_apply, Repository.call, Action.call] at h
        dsimp only at h
        rw [if_pos hlate] at h
        cases h
      · rw [bind_apply, repository.call_apply _ (Bool.not_eq_true _ ▸ hlate), Store.answer] at h
        rw [if_neg hlate, Store.answer]
        cases hrun : (make compiled update).run moment.now session.store with
        | error fault => rw [hrun] at h; cases h
        | ok result =>
          rw [hrun] at h
          exact ⟨compiled, update, result.1, _, rfl, rfl, hrun, h⟩

/-- An upsert that succeeds has compiled its filter and its update and has carried out its call. -/
theorem exists_of_upsert {filter : Filter} {spec : Document} {moment : Moment} {session : Session}
    {outcome : Collection.UpdateOutcome}
    (h : (repository.upsert filter spec moment session).1 = .ok outcome) :
    ∃ compiled update,
      repository.restricted filter = .ok compiled ∧
      (UpdateSpec.compile repository.policy .upsert moment.now spec).2 = .ok update ∧
      session.store.updateOne moment.now repository.collection compiled.query update true
        = .ok (outcome, (repository.upsert filter spec moment session).2.store) := by
  have hupsert : repository.upsert filter spec
      = repository.compile filter >>= fun compiled =>
        repository.compileUpdate .upsert spec >>= fun update =>
        repository.call (.updateOne repository.collection compiled.query update true) >>= pure := by
    simp only [bind_pure, upsert]
  rw [hupsert] at h ⊢
  obtain ⟨compiled, update, reply, session', hfilter, hcompile, hrun, hreply⟩ :=
    exists_of_updating keepsStore_pure h
  cases hreply
  exact ⟨compiled, update, hfilter, hcompile, hrun⟩

/-- What an upsert writes is shown, if the policy hides anything and keeps no field that the filter
names. -/
theorem isShown_of_upserts (hnames : repository.schema.HasPlainNames) {filter : Filter}
    (hpatterns : ∀ test ∈ filter.condition.leaves, test.2.PatternsParse)
    (hunowned : ∀ field, filter.condition.Names repository.schema field →
      repository.policy.owns field = false)
    {compiled : CompiledFilter} (hfilter : repository.restricted filter = .ok compiled)
    {now : DateTime} {spec update : Document}
    (hcompile : (UpdateSpec.compile repository.policy .upsert now spec).2 = .ok update)
    {store : Store} {sort : Option Document} {position : Nat} {doc : Document}
    {docs : List Document}
    (h : store.Upserts now repository.collection compiled.query update sort position doc docs) :
    (!repository.policy.deleted || doc.isShown) = true := by
  cases hdeleted : repository.policy.deleted with
  | false => rfl
  | true =>
    cases h with
    | @replaced _ before _ hfirst hupdate =>
      -- what matched was shown, and the update does not hide it
      obtain ⟨-, hholds⟩ := Collection.first?_eq_some hfirst
      rw [holds_restricted hnames hpatterns hfilter, hdeleted, Except.ok.injEq,
        Bool.and_eq_true] at hholds
      rw [UpdateSpec.keepsShown_of_compile hdeleted rfl hcompile now before doc hupdate]
      exact hholds.2
    | @added asked _ hfresh =>
      exact isShown_of_isSeeded hdeleted hunowned hfilter hcompile
        ⟨asked, hfresh, fun field hne => Store.get?_keyed store.ids asked hne⟩

/-- **What an upsert has written** matches its filter. -/
theorem holds_of_upserts (hnames : repository.schema.HasPlainNames) {filter : Filter}
    {spec : Document} (hapart : repository.UpsertsApart filter.condition spec)
    {compiled : CompiledFilter} (hfilter : repository.restricted filter = .ok compiled)
    {now : DateTime} {update : Document}
    (hcompile : (UpdateSpec.compile repository.policy .upsert now spec).2 = .ok update)
    {store : Store} {position : Nat} {doc : Document} {docs : List Document}
    (h : store.Upserts now repository.collection compiled.query update none position doc docs) :
    Query.holds doc compiled.query = .ok true := by
  have hpatterns := Condition.patternsParse_of_isConjunction hapart.conjunction
  have hshown := isShown_of_upserts hnames hpatterns hapart.unowned hfilter hcompile h
  rw [holds_restricted hnames hpatterns hfilter, hshown, Bool.and_true, Except.ok.injEq]
  have hkept : ∀ {occasion before after}, Update.apply occasion update before = .ok after →
      ∀ field, filter.condition.Names repository.schema field →
        Entries.get? after field = Entries.get? before field := fun happly field hnamed =>
    UpdateSpec.get?_apply_of_avoids hcompile (hapart.unowned field hnamed)
      (hapart.avoids field hnamed) happly
  cases h with
  | @replaced _ before _ hfirst hupdate =>
    -- the fields that are named hold what they held when the document matched
    obtain ⟨-, hholds⟩ := Collection.first?_eq_some hfirst
    rw [holds_restricted hnames hpatterns hfilter, Except.ok.injEq, Bool.and_eq_true] at hholds
    rw [Condition.meaning_congr _ (hkept hupdate)]
    exact hholds.1
  | @added asked _ hfresh =>
    -- the fields that are named hold what the filter has put into the seed
    obtain ⟨query, hquery, hrestricted⟩ := repository.exists_query_of_restricted hfilter
    refine Condition.meaning_of_fixed hapart.conjunction hapart.agrees
      (Condition.resolves_of_compile _ hquery) fun field hnamed => ?_
    have hplain : isOperator field = false := by
      obtain ⟨test, -, info, hinfo, rfl⟩ := hnamed
      obtain ⟨key, hmem⟩ := Schema.mem_of_resolve hinfo
      exact hnames _ hmem
    have hseed : Entries.get? asked field = filter.condition.fixed? repository.schema field := by
      rw [hkept hfresh field hnamed, hrestricted, Query.seed, seedFrom_restrict,
        Condition.get?_seedFrom_compile hplain _ hquery, Entries.get?_nil, Option.or_none]
    obtain ⟨fixed, hfixed⟩ :=
      Option.isSome_iff_exists.mp (Condition.isSome_fixed? _ hapart.conjunction hnamed)
    rw [hfixed] at hseed ⊢
    exact Store.get?_keyed_of_some store.ids hseed

/-- Whether one of the stored documents matches a compiled filter. -/
def HasMatch (repository : Repository α) (compiled : CompiledFilter) (session : Session) : Prop :=
  ∃ doc ∈ repository.stored session, Query.holds doc compiled.query = .ok true

section

variable (hnames : repository.schema.HasPlainNames) {filter : Filter} {spec : Document}
  (hapart : repository.UpsertsApart filter.condition spec) {moment : Moment} {session : Session}

include hnames hapart

/-- After an upsert that succeeds, a stored document matches its filter. -/
theorem hasMatch_upsert {outcome : Collection.UpdateOutcome}
    (h : (repository.upsert filter spec moment session).1 = .ok outcome) :
    ∃ compiled, repository.restricted filter = .ok compiled ∧
      repository.HasMatch compiled (repository.upsert filter spec moment session).2 := by
  obtain ⟨compiled, update, hfilter, hcompile, hrun⟩ := exists_of_upsert h
  obtain ⟨position, doc, hupserts, -⟩ := Store.upserts_of_updateOne hrun
  exact ⟨compiled, hfilter, doc, List.mem_of_getElem? hupserts.written,
    holds_of_upserts hnames hapart hfilter hcompile hupserts⟩

omit hnames hapart in
/-- An upsert that finds a match says so, and stores no document. -/
theorem upsert_of_hasMatch {compiled : CompiledFilter}
    (hfilter : repository.restricted filter = .ok compiled)
    (hmatch : repository.HasMatch compiled session) {outcome : Collection.UpdateOutcome}
    (h : (repository.upsert filter spec moment session).1 = .ok outcome) :
    outcome.matched = 1 ∧ outcome.upsertedKey = none ∧
      (repository.stored (repository.upsert filter spec moment session).2).length
        = (repository.stored session).length := by
  obtain ⟨compiled', update, hfilter', -, hrun⟩ := exists_of_upsert h
  obtain rfl : compiled = compiled' := Except.ok.inj (hfilter.symm.trans hfilter')
  obtain ⟨doc, hmem, hholds⟩ := hmatch
  have hsome : Collection.first? compiled.query none (repository.stored session) ≠ .ok none :=
    fun hnone => Collection.not_holds_of_first?_eq_none hnone hmem hholds
  obtain ⟨position, written, hupserts, hnone | hreport⟩ := Store.upserts_of_updateOne hrun
  · exact absurd hnone hsome
  · exact ⟨hreport.1, hreport.2, hupserts.length_eq hsome⟩

/-- The answer to an upsert that finds a match: it may fail, but it stores no document. -/
def AnswersMatch (answer : Except Error (Answer α)) : Prop :=
  ∀ reply, answer = .ok reply →
    ∃ outcome, reply = .outcome outcome ∧ outcome.matched = 1 ∧ outcome.upsertedKey = none

/-- **One repetition** of an upsert finds a match, keeps the length of the collection, and leaves a
match. -/
theorem step_of_hasMatch {compiled : CompiledFilter}
    (hfilter : repository.restricted filter = .ok compiled)
    (hmatch : repository.HasMatch compiled session) :
    AnswersMatch (repository.perform (.upsert filter spec) moment session).1 ∧
      (repository.stored (repository.perform (.upsert filter spec) moment session).2).length
        = (repository.stored session).length ∧
      repository.HasMatch compiled (repository.perform (.upsert filter spec) moment session).2 := by
  have hupsert : (.upsert filter spec : Operation α).readsBack = false := rfl
  cases hanswer : (repository.perform (.upsert filter spec) moment session).1 with
  | error error =>
    -- an upsert that fails leaves the documents as they are, and so the match
    have hkept : repository.stored (repository.perform (.upsert filter spec) moment session).2
        = repository.stored session :=
      repository.failsCleanly_perform hupsert moment session error hanswer
    refine ⟨fun _ hreply => (nomatch hreply), congrArg List.length hkept, ?_⟩
    rw [HasMatch, hkept]
    exact hmatch
  | ok answer =>
    rw [perform, map_apply] at hanswer ⊢
    obtain ⟨outcome, hok, rfl⟩ := Outcome.map_eq_ok_iff.mp hanswer
    obtain ⟨hmatched, hkey, hlength⟩ := upsert_of_hasMatch hfilter hmatch hok
    obtain ⟨compiled', hfilter', hleft⟩ := hasMatch_upsert hnames hapart hok
    obtain rfl : compiled = compiled' := Except.ok.inj (hfilter.symm.trans hfilter')
    refine ⟨fun reply hreply => ?_, hlength, hleft⟩
    cases hreply
    exact ⟨outcome, rfl, hmatched, hkey⟩

/-- **Every repetition** of an upsert finds a match, and they keep the length of the collection. -/
theorem run_of_hasMatch {compiled : CompiledFilter}
    (hfilter : repository.restricted filter = .ok compiled) :
    ∀ (moments : List Moment) {session : Session}, repository.HasMatch compiled session →
      let run := repository.performAll (moments.map (·, .upsert filter spec)) session
      (∀ answer ∈ run.1, AnswersMatch answer) ∧
        (repository.stored run.2).length = (repository.stored session).length
  | [], _, _ => ⟨fun _ hanswer => absurd hanswer List.not_mem_nil, rfl⟩
  | moment :: moments, session, hmatch => by
    obtain ⟨hanswer, hlength, hleft⟩ := step_of_hasMatch hnames hapart hfilter hmatch
    obtain ⟨hanswers, hlengths⟩ := run_of_hasMatch hfilter moments hleft
    refine ⟨fun answer hmem => ?_, hlengths.trans hlength⟩
    rcases List.mem_cons.mp hmem with rfl | hrest
    · exact hanswer
    · exact hanswers answer hrest

end

/-- **Upserts converge.** Let the condition of a filter be a conjunction of equalities that agree,
on fields that the policy does not keep and the update avoids. After an upsert that succeeds, a
stored document matches the compiled filter, and repeating the upsert stores no other document,
however often and at whichever moments: each repetition that succeeds reports a match and no new
key, and the collection keeps its length. -/
theorem upserts_converge (hnames : repository.schema.HasPlainNames) {filter : Filter}
    {spec : Document} (hapart : repository.UpsertsApart filter.condition spec) {moment : Moment}
    {session : Session} {outcome : Collection.UpdateOutcome}
    (h : (repository.upsert filter spec moment session).1 = .ok outcome) :
    let after := (repository.upsert filter spec moment session).2
    (∃ compiled, repository.restricted filter = .ok compiled ∧
      ∃ doc ∈ repository.stored after, Query.holds doc compiled.query = .ok true) ∧
    ∀ moments : List Moment,
      let run := repository.performAll (moments.map (·, .upsert filter spec)) after
      (∀ reply, .ok reply ∈ run.1 → ∃ again, reply = .outcome again ∧
        again.matched = 1 ∧ again.upsertedKey = none) ∧
      (repository.stored run.2).length = (repository.stored after).length := by
  obtain ⟨compiled, hfilter, hmatch⟩ := hasMatch_upsert hnames hapart h
  refine ⟨⟨compiled, hfilter, hmatch⟩, fun moments => ?_⟩
  obtain ⟨hanswers, hlength⟩ := run_of_hasMatch hnames hapart hfilter moments hmatch
  exact ⟨fun reply hreply => hanswers _ hreply reply rfl, hlength⟩

end

/-- A letter of no known length is looked for among a letter that is deleted and a poem: the first
upsert stores one, the second counts that it is seen once more. -/
theorem upserts_converge_letters :
    ∃ (repository : Repository Document) (filter : Filter) (spec : Document) (moment : Moment)
      (session : Session) (compiled : CompiledFilter),
      let after := (repository.upsert filter spec moment session).2
      repository.policy = ⟨true, true, true⟩ ∧
      (repository.stored session).length = 2 ∧ (repository.stored after).length = 3 ∧
      repository.restricted filter = .ok compiled ∧
      (∃ doc ∈ repository.stored after, Query.holds doc compiled.query = .ok true) ∧
      ∀ moments : List Moment,
        (repository.stored
          (repository.performAll (moments.map (·, .upsert filter spec)) after).2).length = 3 := by
  let repository : Repository Document :=
    ⟨.raw "Note" "notes" [],
      ⟨"Note", [("kind", ⟨"kind", .string⟩), ("pages", ⟨"page_count", .int32⟩)]⟩,
      { policy := ⟨true, true, true⟩ }⟩
  let condition : Condition :=
    .and [.field "kind" (.eq (.string "letter")), .and [.field "pages" (.eq .null)]]
  let filter : Filter := { condition := condition }
  let spec : Document := [("$inc", .document [("seen", .int32 1)])]
  let moment : Moment := ⟨⟨2000⟩, ⟨0, 0⟩⟩
  let session : Session :=
    ⟨⟨[("notes", [[("_id", .int32 0), ("kind", .string "letter"), ("deleted", .dateTime ⟨1000⟩)],
      [("_id", .int32 1), ("kind", .string "poem")]])], .ofSource ⟨0, 0, 0⟩⟩, [], []⟩
  have hnames : repository.schema.HasPlainNames := by
    unfold Schema.HasPlainNames
    decide
  have hleaves : condition.leaves
      = [("kind", .eq (.string "letter")), ("pages", .eq .null)] := rfl
  have hnamed : ∀ field, condition.Names repository.schema field →
      field = "kind" ∨ field = "page_count" := by
    rintro field ⟨test, hmem, info, hinfo, rfl⟩
    rw [hleaves] at hmem
    rcases List.mem_pair.mp hmem with rfl | rfl
    · cases hinfo
      exact Or.inl rfl
    · cases hinfo
      exact Or.inr rfl
  have hagrees : condition.Agrees repository.schema := by
    intro name value info name' value' info' hmem hinfo hmem' hinfo' hsame
    rw [hleaves] at hmem hmem'
    rcases List.mem_pair.mp hmem with h | h <;> rcases List.mem_pair.mp hmem' with h' | h' <;>
      cases h <;> cases h' <;> cases hinfo <;> cases hinfo'
    · rfl
    · exact absurd hsame (by decide)
    · exact absurd hsame (by decide)
    · rfl
  have havoids : ∀ field, field = "kind" ∨ field = "page_count" →
      UpdateSpec.Avoids field spec := by
    intro field hfield
    have hne : field ≠ "$inc" ∧ field ≠ "seen" := by
      rcases hfield with rfl | rfl <;> decide
    refine ⟨fun hmem => hne.1 (List.mem_singleton.mp hmem), fun operator bucket _ hmem => ?_⟩
    cases List.mem_singleton.mp hmem
    have hinc : "$inc" ≠ Update.Operator.rename.key := by decide
    exact ⟨fun hkey => hne.2 (List.mem_singleton.mp hkey), fun hrename => absurd hrename hinc⟩
  have hapart : repository.UpsertsApart condition spec :=
    ⟨rfl, hagrees, fun field h => by rcases hnamed field h with rfl | rfl <;> rfl,
      fun field h => havoids field (hnamed field h)⟩
  have hok : (repository.upsert filter spec moment session).1.isOk = true := by decide +kernel
  have hlength :
      (repository.stored (repository.upsert filter spec moment session).2).length = 3 := by
    decide +kernel
  obtain ⟨outcome, houtcome⟩ := Outcome.exists_of_isOk hok
  obtain ⟨⟨compiled, hfilter, hmatch⟩, hrun⟩ := upserts_converge hnames hapart houtcome
  exact ⟨repository, filter, spec, moment, session, compiled, rfl, rfl, hlength, hfilter, hmatch,
    fun moments => (hrun moments).2.trans hlength⟩

end Repository

end DocStore
