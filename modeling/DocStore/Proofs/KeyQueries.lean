import DocStore.Proofs.Meaning
import DocStore.Proofs.PrimaryKeys
import DocStore.Proofs.Sameness
import DocStore.Proofs.Visibility

/-! # Queries for a key

A query for a key compares as queries do, and an insertion compares as values do. In a collection
that was built by insertions the keys are distinct values, so a query for a stored key finds exactly
the document that is stored under it, unless the key is not even equal to itself or there is another
key that is the same number (`Collection.select_byKey_iff`). -/

namespace DocStore

/-- The query for the documents that hold a value in a field. -/
def Query.byField (field : String) (value : Value) : Document :=
  [(field, .document [("$eq", value)])]

/-- The query for a key. -/
def Query.byKey (key : Value) : Document := [(idField, .document [("$eq", key)])]

/-- Whether a value is an array. -/
def Value.isArray : Value → Bool
  | .array _ => true
  | _ => false

/-- **A regular key**: it is a well-formed value and no array. -/
structure Value.IsRegularKey (key : Value) : Prop where
  wellFormed : key.WellFormed
  noArray : key.isArray = false

/-- A query for a key compares the keys of documents as queries do. -/
theorem Query.holds_byKey [Runtime] (doc : Document) (key : Value) :
    Query.holds doc (Query.byKey key)
      = .ok (FieldTest.equals (Entries.get? doc idField) key) := by
  rw [byKey, Condition.holds_field (by decide), FieldTest.holds_single (by rfl) (by decide)]
  rfl

section

variable {schema : Schema} {info : FieldInfo} (hinfo : schema.resolve idField = .ok info)
  (key : Value)

include hinfo

/-- The condition for a key asks for the storage name that the name of the key resolves to. -/
theorem Condition.compile_hasKey :
    (Condition.hasKey key).compile schema = .ok (Query.byField info.storageName key) := by
  rw [Condition.hasKey, Condition.compile, hinfo]
  rfl

/-- A filter for a key compiles to the query for that field. -/
theorem Filter.compile_hasKey :
    Filter.compile schema { condition := .hasKey key }
      = .ok ⟨Query.byField info.storageName key, {}⟩ := by
  rw [Filter.compile]
  dsimp only
  rw [Condition.compile_hasKey hinfo]
  rfl

end

namespace Collection

variable {query : Document} {docs : List Document} {position : Nat} {doc : Document}

/-! ## Stored keys -/

/-- Whether all keys of documents are regular. -/
def RegularlyKeyed (docs : List Document) : Prop :=
  ∀ doc ∈ docs, ∀ key, Entries.get? doc idField = some key → key.IsRegularKey

/-- **A key stands alone** at a position if no document elsewhere has a key that is the same
number. -/
def StandsAlone (docs : List Document) (position : Nat) (key : Value) : Prop :=
  ∀ (other : Nat) (doc' : Document) (key' : Value), docs[other]? = some doc' →
    Entries.get? doc' idField = some key' → key'.SameNumber key → other = position

/-- A stored key that is no array compares as one value. -/
theorem equals_of_isArray_eq_false {stored : Value} (h : stored.isArray = false) (key : Value) :
    FieldTest.equals (some stored) key = FieldTest.same stored key := by
  cases stored with
  | array items => cases h
  | _ => rw [FieldTest.equals] <;> simp

/-- Distinct keys at two positions are not equal, the first compared to the second. -/
theorem equal_eq_false_of_lt (hdistinct : DistinctKeys docs) {first second : Nat}
    (hlt : first < second) {doc' : Document} {key key' : Value}
    (hdoc : docs[first]? = some doc) (hkey : Entries.get? doc idField = some key)
    (hdoc' : docs[second]? = some doc') (hkey' : Entries.get? doc' idField = some key') :
    key.equal key' = false := by
  have hpairs := List.pairwise_iff_getElem.mp hdistinct
  obtain ⟨hfirst, hfound⟩ := List.getElem?_eq_some_iff.mp hdoc
  obtain ⟨hsecond, hfound'⟩ := List.getElem?_eq_some_iff.mp hdoc'
  refine hpairs first second (by simpa [primaryKeys] using hfirst)
    (by simpa [primaryKeys] using hsecond) hlt key key' ?_ ?_
  · simp [primaryKeys, hfound, hkey]
  · simp [primaryKeys, hfound', hkey']

/-- Of distinct regular keys none is equal to another. -/
theorem equal_eq_false_of_distinctKeys (hdistinct : DistinctKeys docs)
    (hregular : RegularlyKeyed docs) {key key' : Value} {other : Nat} {doc' : Document}
    (hdoc : docs[position]? = some doc) (hkey : Entries.get? doc idField = some key)
    (hdoc' : docs[other]? = some doc') (hkey' : Entries.get? doc' idField = some key')
    (hne : other ≠ position) : key'.equal key = false := by
  rcases Nat.lt_or_gt_of_ne hne with hlt | hlt
  · exact equal_eq_false_of_lt hdistinct hlt hdoc' hkey' hdoc hkey
  · have hwell := (hregular doc (List.mem_of_getElem? hdoc) key hkey).wellFormed
    have hwell' := (hregular doc' (List.mem_of_getElem? hdoc') key' hkey').wellFormed
    rw [Value.equal_comm hwell' hwell]
    exact equal_eq_false_of_lt hdistinct hlt hdoc hkey hdoc' hkey'

/-- A key that does not stand alone may be confused with another: that one has another numeric type,
or one of the two is a 64-bit integer that is too large to be a double for certain. -/
theorem exists_confusable_of_not_standsAlone (hdistinct : DistinctKeys docs)
    (hregular : RegularlyKeyed docs) {key : Value} (hdoc : docs[position]? = some doc)
    (hkey : Entries.get? doc idField = some key) (h : ¬ StandsAlone docs position key) :
    ∃ doc' ∈ docs, ∃ key', Entries.get? doc' idField = some key' ∧ key'.Confusable key := by
  by_contra hnone
  refine h fun other doc' key' hdoc' hkey' hnumber => ?_
  by_contra hne
  exact hnone ⟨doc', List.mem_of_getElem? hdoc', key', hkey', hnumber.confusable
    (equal_eq_false_of_distinctKeys hdistinct hregular hdoc hkey hdoc' hkey' hne)⟩

variable [Runtime]

/-! ## Only matches -/

/-- **The only match** of a query: it makes sense of all documents, and it holds of the one at a
position and of no other. -/
structure OnlyMatch (query : Document) (position : Nat) (doc : Document) (docs : List Document) :
    Prop where
  /-- The document stands at the position. -/
  stored : docs[position]? = some doc
  /-- The query holds there and nowhere else. -/
  holds : ∀ (other : Nat) (doc' : Document), docs[other]? = some doc' →
    Query.holds doc' query = .ok (decide (other = position))

/-- The only match is all that is found. -/
theorem OnlyMatch.locate (h : OnlyMatch query position doc docs) (start : Nat) :
    locate query start docs = .ok [(start + position, doc)] := by
  induction docs generalizing position start with
  | nil => exact absurd h.stored (by simp)
  | cons first rest ih =>
    have hfirst := h.holds 0 first rfl
    rw [Collection.locate, hfirst]
    cases position with
    | zero =>
      have hrest : Collection.locate query (start + 1) rest = .ok [] := by
        rw [locate_eq_nil_iff]
        intro later hlater
        obtain ⟨index, hindex⟩ := List.mem_iff_getElem?.mp hlater
        exact h.holds (index + 1) later hindex
      cases h.stored
      dsimp only
      rw [hrest]
      rfl
    | succ position =>
      have hrest : OnlyMatch query position doc rest :=
        ⟨h.stored, fun other doc' hother => by
          simpa using h.holds (other + 1) doc' hother⟩
      dsimp only
      rw [ih hrest (start + 1), Nat.add_assoc, Nat.add_comm 1 position]
      rfl

/-- The only match is the first one. -/
theorem OnlyMatch.first? (h : OnlyMatch query position doc docs) :
    first? query none docs = .ok (some (position, doc)) := by
  rw [Collection.first?, h.locate 0, Nat.zero_add]
  rfl

/-- What a query selects are its matches without their positions. -/
theorem select_eq_map_locate (query : Document) (start : Nat) (docs : List Document) :
    Query.select query docs = (locate query start docs).map (List.map Prod.snd) := by
  induction docs generalizing start with
  | nil => rfl
  | cons doc rest ih =>
    rw [Query.select, Collection.locate]
    cases Query.holds doc query with
    | error fault => rfl
    | ok matched =>
      dsimp only
      rw [ih (start + 1)]
      cases Collection.locate query (start + 1) rest with
      | error fault => rfl
      | ok found => cases matched <;> rfl

/-- The only match is all that is selected. -/
theorem OnlyMatch.select (h : OnlyMatch query position doc docs) :
    Query.select query docs = .ok [doc] := by
  rw [select_eq_map_locate query 0, h.locate 0]
  rfl

/-- **What only matches are**: a query that makes sense of all documents selects one of them alone
if and only if it holds there and nowhere else. -/
theorem select_eq_singleton_iff
    (hsense : ∀ doc ∈ docs, Query.holds doc query = .ok (Query.accepts query doc))
    (hdoc : docs[position]? = some doc) :
    Query.select query docs = .ok [doc] ↔ OnlyMatch query position doc docs := by
  refine ⟨fun hselect => ?_, OnlyMatch.select⟩
  -- one document is selected, so one position is found, with that document
  rw [select_eq_map_locate query 0, locate_of_holds hsense] at hselect
  obtain ⟨⟨only, found⟩, honly, hfound⟩ := List.map_eq_singleton_iff.mp (Except.ok.inj hselect)
  have hmem : ∀ (other : Nat) (doc' : Document), docs[other]? = some doc' →
      Query.holds doc' query = .ok true → other = only := by
    intro other doc' hother hholds
    have hentry := mem_located.mpr ⟨hother, hholds⟩
    rw [honly, List.mem_singleton] at hentry
    exact congrArg Prod.fst hentry
  have hholds : Query.holds doc query = .ok true := by
    have hentry : (only, found) ∈ located query 0 docs := by rw [honly]; exact List.mem_cons_self
    exact hfound ▸ (mem_located.mp hentry).2
  refine ⟨hdoc, fun other doc' hother => ?_⟩
  rw [hsense doc' (List.mem_of_getElem? hother), Except.ok.injEq, Bool.eq_iff_iff,
    Query.accepts_iff, decide_eq_true_iff]
  refine ⟨fun hholds' => ?_, fun heq => ?_⟩
  · rw [hmem other doc' hother hholds', hmem position doc hdoc hholds]
  · rw [heq, hdoc, Option.some.injEq] at hother
    rwa [← hother]

/-! ## Queries for stored keys -/

/-- The query for a stored key matches the document that is stored under it alone if and only if the
key is equal to itself and stands alone. -/
theorem onlyMatch_byKey_iff (hkeyed : AllKeyed docs) (hdistinct : DistinctKeys docs)
    (hregular : RegularlyKeyed docs) {key : Value} (hdoc : docs[position]? = some doc)
    (hkey : Entries.get? doc idField = some key) :
    OnlyMatch (Query.byKey key) position doc docs
      ↔ key.equal key = true ∧ StandsAlone docs position key := by
  have hholds : ∀ (doc' : Document) (key' : Value), doc' ∈ docs →
      Entries.get? doc' idField = some key' →
      Query.holds doc' (Query.byKey key) = .ok (FieldTest.same key' key) := by
    intro doc' key' hmem hkey'
    rw [Query.holds_byKey, hkey', equals_of_isArray_eq_false (hregular doc' hmem key' hkey').noArray]
  constructor
  · intro h
    refine ⟨?_, fun other doc' key' hdoc' hkey' hnumber => ?_⟩
    · have hself := h.holds position doc hdoc
      rw [hholds doc key (List.mem_of_getElem? hdoc) hkey, decide_eq_true rfl,
        Except.ok.injEq, FieldTest.same_iff] at hself
      exact hself.elim id Value.SameNumber.equal_self
    · have hother := h.holds other doc' hdoc'
      rw [hholds doc' key' (List.mem_of_getElem? hdoc') hkey',
        FieldTest.same_iff.mpr (Or.inr hnumber), Except.ok.injEq] at hother
      exact decide_eq_true_iff.mp hother.symm
  · rintro ⟨hself, halone⟩
    refine ⟨hdoc, fun other doc' hdoc' => ?_⟩
    have hmem := List.mem_of_getElem? hdoc'
    obtain ⟨key', hkey'⟩ := Option.isSome_iff_exists.mp
      (hkeyed _ (List.mem_map.mpr ⟨doc', hmem, rfl⟩))
    rw [hholds doc' key' hmem hkey', Except.ok.injEq, Bool.eq_iff_iff, FieldTest.same_iff,
      decide_eq_true_iff]
    refine ⟨?_, fun heq => Or.inl ?_⟩
    · rintro (hequal | hnumber)
      · -- distinct keys are equal at one position only
        by_contra hne
        rw [equal_eq_false_of_distinctKeys hdistinct hregular hdoc hkey hdoc' hkey' hne] at hequal
        cases hequal
      · exact halone other doc' key' hdoc' hkey' hnumber
    · rw [heq, hdoc, Option.some.injEq] at hdoc'
      subst hdoc'
      rw [hkey, Option.some.injEq] at hkey'
      subst hkey'
      exact hself

/-- **A query for a stored key** selects exactly the document that is stored under it if and only if
the key is equal to itself and stands alone. -/
theorem select_byKey_iff (hkeyed : AllKeyed docs) (hdistinct : DistinctKeys docs)
    (hregular : RegularlyKeyed docs) {key : Value} (hdoc : docs[position]? = some doc)
    (hkey : Entries.get? doc idField = some key) :
    Query.select (Query.byKey key) docs = .ok [doc]
      ↔ key.equal key = true ∧ StandsAlone docs position key := by
  rw [← onlyMatch_byKey_iff hkeyed hdistinct hregular hdoc hkey]
  refine select_eq_singleton_iff (fun doc' _ => ?_) hdoc
  rw [Query.accepts, Query.holds_byKey]

end Collection

end DocStore
