import DocStore.Proofs.UpdateFrame
import Mathlib.Data.List.Lattice

/-! # The order of an update

An update is a list of changes, each of which addresses its own field, and a renaming also its
target. What a change does depends on the fields that it addresses, and only they are different
afterwards, so two changes that address different fields may be made in either order. Hence changes
that address no field twice fail in every order or in none, and every field holds the same in the
end (`Update.applyChanges_perm`). -/

namespace DocStore

namespace Update

/-! ## Outcomes that agree -/

/-- **Outcomes that agree** on some fields: both are faults, or both are documents in which each of
these fields holds the same. -/
inductive Agree (compared : String → Prop) : Except Fault Document → Except Fault Document → Prop
  | ok {first second : Document} :
    (∀ field, compared field → Entries.get? first field = Entries.get? second field) →
    Agree compared (.ok first) (.ok second)
  | error (fault fault' : Fault) : Agree compared (.error fault) (.error fault')

/-- Every field is compared. -/
def everywhere : String → Prop := fun _ => True

variable {compared : String → Prop} {first second third : Except Fault Document}

theorem Agree.refl (compared : String → Prop) (outcome : Except Fault Document) :
    Agree compared outcome outcome := by
  cases outcome with
  | error fault => exact Agree.error fault fault
  | ok doc => exact Agree.ok fun _ _ => rfl

theorem Agree.symm (h : Agree compared first second) : Agree compared second first := by
  cases h with
  | ok hsame => exact Agree.ok fun field hcompared => (hsame field hcompared).symm
  | error fault fault' => exact Agree.error fault' fault

theorem Agree.trans (h : Agree compared first second) (h' : Agree compared second third) :
    Agree compared first third := by
  cases h with
  | ok hsame =>
    cases h' with
    | ok hsame' =>
      exact Agree.ok fun field hcompared => (hsame field hcompared).trans (hsame' field hcompared)
  | error fault fault' =>
    cases h' with
    | error _ fault'' => exact Agree.error fault fault''

/-- Outcomes that agree on fields agree on fewer fields. -/
theorem Agree.mono {compared' : String → Prop} (h : Agree compared first second)
    (hsub : ∀ field, compared' field → compared field) : Agree compared' first second := by
  cases h with
  | ok hsame => exact Agree.ok fun field hcompared => hsame field (hsub field hcompared)
  | error fault fault' => exact Agree.error fault fault'

/-- What follows on documents that hold the same. -/
theorem Agree.bind {next next' : Document → Except Fault Document}
    (h : Agree everywhere first second)
    (hnext : ∀ doc doc' : Document,
      (∀ field, Entries.get? doc field = Entries.get? doc' field) →
      Agree compared (next doc) (next' doc')) :
    Agree compared (first.bind next) (second.bind next') := by
  cases h with
  | ok hsame => exact hnext _ _ fun field => hsame field trivial
  | error fault fault' => exact Agree.error fault fault'

/-! ## Changes -/

/-- **A change**: one entry of the bucket of an operator. -/
structure Change where
  /-- The operator. -/
  operator : Operator
  /-- The field under which the entry stands. -/
  field : String
  /-- What the operator does with it. -/
  operand : Value

namespace Change

/-- The fields that a change **addresses**: its own, and the target of a renaming. -/
def fields (change : Change) : List String :=
  match change.operator, change.operand with
  | .rename, .string target => [change.field, target]
  | _, _ => [change.field]

/-- Make a change. -/
def apply (occasion : Occasion) (change : Change) (doc : Document) : Except Fault Document :=
  change.operator.apply occasion [(change.field, change.operand)] doc

variable {occasion : Occasion} {change other : Change} {doc doc' : Document} {field : String}

theorem field_mem_fields (change : Change) : change.field ∈ change.fields := by
  rw [fields]
  split <;> exact List.mem_cons_self

/-- The bucket of a change spares what the change does not address. -/
theorem spares_of_not_mem (h : field ∉ change.fields) :
    Spares field change.operator.key [(change.field, change.operand)] := by
  refine ⟨?_, fun hrename entry hmem htarget => ?_⟩
  · rw [Entries.keys_cons, Entries.keys_nil, List.mem_singleton]
    rintro rfl
    exact h change.field_mem_fields
  · rw [List.mem_singleton] at hmem
    subst hmem
    refine h ?_
    rw [fields, Operator.key_inj hrename, show change.operand = .string field from htarget]
    exact List.mem_cons_of_mem _ List.mem_cons_self

/-- **The frame of a change**: a field that it does not address holds what it held before. -/
theorem get?_apply (h : change.apply occasion doc = .ok doc') (hfield : field ∉ change.fields) :
    Entries.get? doc' field = Entries.get? doc field :=
  get?_operatorApply (spares_of_not_mem hfield) h

/-- Adding to one field. -/
theorem incrementAll_singleton (field : String) (amount : Value) (doc : Document) :
    incrementAll [(field, amount)] doc
      = (increment field (Entries.get? doc field) amount).map (Entries.insert doc field) := by
  rw [incrementAll]
  cases increment field (Entries.get? doc field) amount <;> rfl

/-- Moving one field. -/
theorem renameAll_singleton (source target : String) (doc : Document) :
    renameAll [(source, .string target)] doc
      = .ok (match Entries.get? doc source with
        | some value => Entries.insert (Entries.remove doc source) target value
        | none => doc) := by
  rw [renameAll]
  cases Entries.get? doc source <;> rfl

/-- **What a change depends on**: where the fields that it addresses hold the same, it fails or not
alike, and they hold the same afterwards. -/
theorem agree_apply
    (h : ∀ field ∈ change.fields, Entries.get? doc field = Entries.get? doc' field) :
    Agree (· ∈ change.fields) (change.apply occasion doc) (change.apply occasion doc') := by
  obtain ⟨operator, own, operand⟩ := change
  have hown := h own (field_mem_fields _)
  -- a written field holds the same on both sides, and so does every other one as before
  have hinsert : ∀ value, Agree (· ∈ (⟨operator, own, operand⟩ : Change).fields)
      (.ok (Entries.insert doc own value)) (.ok (Entries.insert doc' own value)) := fun value =>
    Agree.ok fun field hmem => by rw [Entries.get?_insert, Entries.get?_insert, h field hmem]
  cases operator with
  | set => exact hinsert operand
  | setOnInsert =>
    rw [apply, apply, Operator.apply, Operator.apply]
    split
    · exact hinsert operand
    · exact Agree.ok h
  | unset =>
    refine Agree.ok fun field hmem => ?_
    rw [removeAll, removeAll, Entries.get?_foldl_remove, Entries.get?_foldl_remove, h field hmem]
  | inc =>
    rw [apply, apply, Operator.apply, Operator.apply, incrementAll_singleton,
      incrementAll_singleton, hown]
    cases increment own (Entries.get? doc' own) operand with
    | error fault => exact Agree.error fault fault
    | ok sum => exact hinsert sum
  | currentDate => exact hinsert (.dateTime occasion.now)
  | rename =>
    cases operand with
    | string target =>
      rw [apply, apply, Operator.apply, Operator.apply, renameAll_singleton, renameAll_singleton,
        hown]
      cases Entries.get? doc' own with
      | none => exact Agree.ok h
      | some value =>
        refine Agree.ok fun field hmem => ?_
        rw [Entries.get?_insert, Entries.get?_insert, Entries.get?_remove, Entries.get?_remove,
          h field hmem]
    | _ => exact Agree.error _ _

/-- A change to documents that hold the same. -/
theorem agree_apply_of_same (h : ∀ field, Entries.get? doc field = Entries.get? doc' field) :
    Agree everywhere (change.apply occasion doc) (change.apply occasion doc') := by
  have hown : Agree (· ∈ change.fields) (change.apply occasion doc) (change.apply occasion doc') :=
    agree_apply fun field _ => h field
  cases hdoc : change.apply occasion doc with
  | error fault =>
    rw [hdoc] at hown
    cases hdoc' : change.apply occasion doc' with
    | error fault' => exact Agree.error fault fault'
    | ok after' => rw [hdoc'] at hown; cases hown
  | ok after =>
    cases hdoc' : change.apply occasion doc' with
    | error fault' => rw [hdoc, hdoc'] at hown; cases hown
    | ok after' =>
      refine Agree.ok fun field _ => ?_
      by_cases hmem : field ∈ change.fields
      · rw [hdoc, hdoc'] at hown
        cases hown with
        | ok hsame => exact hsame field hmem
      · rw [get?_apply hdoc hmem, get?_apply hdoc' hmem, h field]

/-- A change does the same after another one that addresses other fields. -/
theorem agree_apply_after (h : change.fields.Disjoint other.fields)
    (hother : other.apply occasion doc = .ok doc') :
    Agree (· ∈ change.fields) (change.apply occasion doc) (change.apply occasion doc') :=
  agree_apply fun _ hmem => (get?_apply hother (h hmem)).symm

/-- **Two changes that address different fields** may be made in either order. -/
theorem apply_comm (occasion : Occasion) (h : change.fields.Disjoint other.fields)
    (doc : Document) :
    Agree everywhere ((change.apply occasion doc).bind (other.apply occasion))
      ((other.apply occasion doc).bind (change.apply occasion)) := by
  cases hchange : change.apply occasion doc with
  | error fault =>
    cases hother : other.apply occasion doc with
    | error fault' => exact Agree.error fault fault'
    | ok doc' =>
      have hlater := agree_apply_after h hother
      rw [hchange] at hlater
      cases hlast : change.apply occasion doc' with
      | error fault' => rw [Except.bind, Except.bind, hlast]; exact Agree.error fault fault'
      | ok last => rw [hlast] at hlater; cases hlater
  | ok middle =>
    have hlater := agree_apply_after (List.Disjoint.symm h) hchange
    cases hother : other.apply occasion doc with
    | error fault =>
      rw [hother] at hlater
      cases hlast : other.apply occasion middle with
      | error fault' => rw [Except.bind, Except.bind, hlast]; exact Agree.error fault' fault
      | ok last => rw [hlast] at hlater; cases hlater
    | ok middle' =>
      have hlater' := agree_apply_after h hother
      rw [hother] at hlater
      rw [hchange] at hlater'
      rw [Except.bind, Except.bind]
      cases hlast : other.apply occasion middle with
      | error fault => rw [hlast] at hlater; cases hlater
      | ok last =>
        cases hlast' : change.apply occasion middle' with
        | error fault => rw [hlast'] at hlater'; cases hlater'
        | ok last' =>
          rw [hlast] at hlater
          rw [hlast'] at hlater'
          cases hlater with
          | ok hsame =>
            cases hlater' with
            | ok hsame' =>
              refine Agree.ok fun field _ => ?_
              -- each field is addressed by one of the changes at most, so the other one keeps it
              by_cases hfield : field ∈ change.fields
              · rw [get?_apply hlast (h hfield), hsame' field hfield]
              · rw [get?_apply hlast' hfield]
                by_cases hfield' : field ∈ other.fields
                · exact (hsame field hfield').symm
                · rw [get?_apply hlast hfield', get?_apply hchange hfield,
                    get?_apply hother hfield']

end Change

/-! ## Lists of changes -/

/-- Make changes one after the other. -/
def applyChanges (occasion : Occasion) : List Change → Document → Except Fault Document
  | [], doc => .ok doc
  | change :: rest, doc => (change.apply occasion doc).bind (applyChanges occasion rest)

/-- Changes in two parts are made in two steps. -/
theorem applyChanges_append (occasion : Occasion) (changes later : List Change) (doc : Document) :
    applyChanges occasion (changes ++ later) doc
      = (applyChanges occasion changes doc).bind (applyChanges occasion later) := by
  induction changes generalizing doc with
  | nil => rfl
  | cons change rest ih =>
    rw [List.cons_append, applyChanges, applyChanges]
    cases change.apply occasion doc with
    | error fault => rfl
    | ok next => exact ih next

/-- Changes to documents that hold the same. -/
theorem agree_applyChanges (occasion : Occasion) (changes : List Change) {doc doc' : Document}
    (h : ∀ field, Entries.get? doc field = Entries.get? doc' field) :
    Agree everywhere (applyChanges occasion changes doc) (applyChanges occasion changes doc') := by
  induction changes generalizing doc doc' with
  | nil => exact Agree.ok fun field _ => h field
  | cons change rest ih => exact (Change.agree_apply_of_same h).bind fun _ _ hsame => ih hsame

/-- Whether changes address **no field twice**. -/
def AddressOnce (changes : List Change) : Prop :=
  changes.Pairwise fun first second => first.fields.Disjoint second.fields

instance (first second : Change) : Decidable (first.fields.Disjoint second.fields) :=
  decidable_of_iff (∀ field ∈ first.fields, field ∉ second.fields) List.disjoint_left.symm

instance (changes : List Change) : Decidable (AddressOnce changes) :=
  inferInstanceAs (Decidable
    (changes.Pairwise fun first second => first.fields.Disjoint second.fields))

/-- **The order of changes that address no field twice** does not matter: in every order they
fail or in none, and every field holds the same in the end. -/
theorem applyChanges_perm (occasion : Occasion) {changes changes' : List Change}
    (hperm : changes.Perm changes') (honce : AddressOnce changes) (doc : Document) :
    Agree everywhere (applyChanges occasion changes doc) (applyChanges occasion changes' doc) := by
  induction hperm generalizing doc with
  | nil => exact Agree.refl _ _
  | cons change _ ih =>
    refine (Agree.refl everywhere (change.apply occasion doc)).bind fun before before' hsame => ?_
    exact (ih (List.pairwise_cons.mp honce).2 before).trans (agree_applyChanges occasion _ hsame)
  | swap first second rest =>
    have hdisjoint : second.fields.Disjoint first.fields :=
      (List.pairwise_cons.mp honce).1 first List.mem_cons_self
    have hassoc : ∀ change change' : Change, applyChanges occasion (change :: change' :: rest) doc
        = ((change.apply occasion doc).bind (change'.apply occasion)).bind
            (applyChanges occasion rest) := fun change change' => by
      rw [applyChanges]
      cases change.apply occasion doc <;> rfl
    rw [hassoc, hassoc]
    exact (Change.apply_comm occasion hdisjoint doc).bind fun _ _ hsame =>
      agree_applyChanges occasion rest hsame
  | trans hfirst _ ih ih' =>
    exact (ih honce doc).trans
      (ih' (hfirst.pairwise honce fun hdisjoint => List.Disjoint.symm hdisjoint) doc)

/-! ## The changes of an update -/

/-- The changes that a bucket makes under an operator. -/
def Operator.changes (operator : Operator) (bucket : Document) : List Change :=
  bucket.map fun entry => ⟨operator, entry.1, entry.2⟩

theorem Operator.changes_append (operator : Operator) (bucket more : Document) :
    operator.changes (bucket ++ more) = operator.changes bucket ++ operator.changes more :=
  List.map_append

/-- **The changes of an update**, in order. What is no operator with a bucket makes none. -/
def changes (update : Document) : List Change :=
  update.flatMap fun entry =>
    match Operator.ofKey? entry.1, entry.2 with
    | some operator, .document bucket => operator.changes bucket
    | _, _ => []

/-- Whether an update consists of **operators with buckets**. -/
def IsSupported (update : Document) : Prop :=
  ∀ entry ∈ update, ∃ (operator : Operator) (bucket : Document),
    entry = (operator.key, .document bucket)

/-- Whether an update is **unambiguous**: it has operators with buckets, each operator at most once,
and addresses no field twice. -/
structure Unambiguous (update : Document) : Prop where
  /-- It has operators with buckets. -/
  supported : IsSupported update
  /-- No operator occurs twice. -/
  operatorsOnce : (Entries.keys update).Nodup
  /-- No field is addressed twice. -/
  fieldsOnce : AddressOnce (changes update)

/-- A bucket acts entry by entry. -/
theorem Operator.apply_cons (operator : Operator) (occasion : Occasion) (entry : String × Value)
    (rest doc : Document) :
    operator.apply occasion (entry :: rest) doc
      = (operator.apply occasion [entry] doc).bind (operator.apply occasion rest) := by
  obtain ⟨field, operand⟩ := entry
  cases operator with
  | set | unset | currentDate => rfl
  | setOnInsert =>
    rw [Operator.apply, Operator.apply]
    by_cases hinserting : occasion.inserting = true
    · simp only [if_pos hinserting, Except.bind, Operator.apply]
      rfl
    · simp only [if_neg hinserting, Except.bind, Operator.apply]
  | inc =>
    rw [Operator.apply, Operator.apply, Change.incrementAll_singleton, incrementAll]
    cases increment field (Entries.get? doc field) operand <;> rfl
  | rename =>
    rw [Operator.apply, Operator.apply]
    cases operand with
    | string target =>
      rw [renameAll, renameAll]
      cases Entries.get? doc field <;> rfl
    | _ => rfl

/-- An operator makes the changes of its bucket. -/
theorem Operator.apply_eq (operator : Operator) (occasion : Occasion) (bucket doc : Document) :
    operator.apply occasion bucket doc = applyChanges occasion (operator.changes bucket) doc := by
  induction bucket generalizing doc with
  | nil =>
    cases operator with
    | setOnInsert => rw [Operator.apply]; split <;> rfl
    | _ => rfl
  | cons entry rest ih =>
    rw [Operator.apply_cons, Operator.changes, List.map_cons, applyChanges]
    cases hentry : operator.apply occasion [entry] doc with
    | error fault => rw [Change.apply, hentry]; rfl
    | ok next => rw [Change.apply, hentry]; exact ih next

theorem changes_cons (operator : Operator) (bucket rest : Document) :
    changes ((operator.key, .document bucket) :: rest)
      = operator.changes bucket ++ changes rest := by
  rw [changes, List.flatMap_cons, Operator.ofKey?_key]
  rfl

/-- **An update makes its changes** in order. -/
theorem apply_eq_applyChanges (occasion : Occasion) {update : Document} (h : IsSupported update)
    (doc : Document) :
    Update.apply occasion update doc = applyChanges occasion (changes update) doc := by
  induction update generalizing doc with
  | nil => rfl
  | cons entry rest ih =>
    obtain ⟨operator, bucket, rfl⟩ := h entry List.mem_cons_self
    have hrest := ih fun later hmem => h later (List.mem_cons_of_mem _ hmem)
    rw [changes_cons, applyChanges_append, ← Operator.apply_eq, Update.apply, applyEntry,
      Operator.ofKey?_key]
    dsimp only
    cases operator.apply occasion bucket doc with
    | error fault => rfl
    | ok next => exact hrest next

end Update

end DocStore
