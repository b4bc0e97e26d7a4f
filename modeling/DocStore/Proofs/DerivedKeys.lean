import DocStore.Derive.Description
import DocStore.Filter.Compile
import DocStore.Proofs.Outcome
import DocStore.Proofs.SchemaTables

/-! # The keys of derived fields

A model is written under keys that follow from the names of its fields, by the rename rule of its
declaration: a rule takes a name apart into words and puts them together again in another way
(`RenameRule.written`). The derivation applies the rule on its own, in one pass over the characters,
and gives the same names except in camel case: a name that opens with a capital, or with an
underscore in front of a letter, comes out with a capital at the start
(`RenameRule.apply_eq_written_iff`). So a filter on a derived field asks for the key under which the
field is written, unless its name is one of these and the field is given no key of its own
(`derived_keys_written_unless_miscased`). -/

namespace DocStore

namespace Derive

/-! ## The case of letters -/

/-- The capitals are the characters from `A` to `Z`. -/
theorem isUpper_iff {c : Char} : c.isUpper = true ↔ 65 ≤ c.toNat ∧ c.toNat ≤ 90 :=
  decide_eq_true_iff

/-- The small letters are the characters from `a` to `z`. -/
theorem isLower_iff {c : Char} : c.isLower = true ↔ 97 ≤ c.toNat ∧ c.toNat ≤ 122 :=
  Bool.and_eq_true_iff.trans (and_congr decide_eq_true_iff decide_eq_true_iff)

/-- A fact about each of the 26 characters from some one on is a fact about those between it and the
last of them. -/
theorem holds_of_letters {P : Char → Prop} {first : Nat}
    (h : ∀ i < 26, P (Char.ofNat (first + i))) {c : Char}
    (hc : first ≤ c.toNat ∧ c.toNat ≤ first + 25) : P c := by
  have hletter := h (c.toNat - first) (by omega)
  rwa [Nat.add_sub_cancel' hc.1, Char.ofNat_toNat] at hletter

/-- Lower case changes capitals, and nothing else. -/
theorem toLower_eq_self_iff {c : Char} : c.toLower = c ↔ ¬ c.isUpper = true := by
  refine ⟨fun h hupper => ?_, fun h => dif_neg (mt isUpper_iff.mpr h)⟩
  have hchanged : ∀ i < 26, (Char.ofNat (65 + i)).toLower ≠ Char.ofNat (65 + i) := by decide
  exact holds_of_letters (P := fun c => c.toLower ≠ c) hchanged (isUpper_iff.mp hupper) h

/-- Upper case changes small letters only. -/
theorem toUpper_of_not_isLower {c : Char} (h : ¬ c.isLower = true) : c.toUpper = c :=
  dif_neg (mt isLower_iff.mpr h)

/-- Every character but a capital comes back from upper case. -/
theorem toLower_toUpper_eq_self_iff {c : Char} : c.toUpper.toLower = c ↔ ¬ c.isUpper = true := by
  by_cases hlower : c.isLower = true
  · have hletters : ∀ i < 26, (Char.ofNat (97 + i)).toUpper.toLower = Char.ofNat (97 + i) := by
      decide
    have hback : c.toUpper.toLower = c :=
      holds_of_letters (P := fun c => c.toUpper.toLower = c) hletters (isLower_iff.mp hlower)
    have hupper : ¬ c.isUpper = true := by
      rw [isLower_iff] at hlower
      rw [isUpper_iff]
      omega
    exact iff_of_true hback hupper
  · rw [toUpper_of_not_isLower hlower, toLower_eq_self_iff]

/-- Lower case leaves the upper case of every character but a letter. -/
theorem toLower_toUpper_eq_toUpper_iff {c : Char} :
    c.toUpper.toLower = c.toUpper ↔ ¬ (c.isUpper = true ∨ c.isLower = true) := by
  rw [toLower_eq_self_iff]
  refine not_congr ?_
  by_cases hlower : c.isLower = true
  · have hletters : ∀ i < 26, (Char.ofNat (97 + i)).toUpper.isUpper = true := by decide
    have hupper : c.toUpper.isUpper = true :=
      holds_of_letters (P := fun c => c.toUpper.isUpper = true) hletters (isLower_iff.mp hlower)
    exact iff_of_true hupper (Or.inr hlower)
  · rw [toUpper_of_not_isLower hlower, or_iff_left hlower]

namespace RenameRule

/-! ## Names made of words -/

/-- The **words** of a name are what stands between its underscores. -/
def words (name : List Char) : List (List Char) := name.splitOn '_'

/-- A word with its first character in upper case, if that is a letter. -/
def capitalised (word : List Char) : List Char := word.modifyHead Char.toUpper

/-- **The key that is written** for a name under a rule. -/
def writtenChars : RenameRule → List Char → List Char
  | .lower, name | .snake, name => name
  | .upper, name | .screamingSnake, name => name.map Char.toUpper
  | .pascal, name => (words name).flatMap capitalised
  | .camel, name => ((words name).flatMap capitalised).modifyHead Char.toLower
  | .kebab, name => ['-'].intercalate (words name)
  | .screamingKebab, name => (['-'].intercalate (words name)).map Char.toUpper

/-- The key that is written for a name under a rule. -/
def written (rule : RenameRule) (name : String) : String :=
  String.ofList (rule.writtenChars name.toList)

theorem words_cons (c : Char) (rest : List Char) :
    words (c :: rest)
      = if c = '_' then [] :: words rest else (words rest).modifyHead (List.cons c) := by
  simp [words, List.splitOn_cons_eq_if_modifyHead]

/-- A name has a first word, which may be empty. -/
theorem exists_words_eq_cons (name : List Char) : ∃ word others, words name = word :: others :=
  List.exists_cons_of_ne_nil (List.splitOn_ne_nil '_' name)

/-- **Joining words in one pass** capitalises all words but the first, and the first one if it is
told to. -/
theorem joinWords_eq {name word : List Char} {others : List (List Char)}
    (h : words name = word :: others) (capitalise : Bool) :
    joinWords capitalise name
      = (if capitalise then capitalised word else word) ++ others.flatMap capitalised := by
  induction name generalizing word others capitalise with
  | nil =>
    obtain ⟨rfl, rfl⟩ := List.cons.inj h
    cases capitalise <;> rfl
  | cons c rest ih =>
    obtain ⟨next, later, hrest⟩ := exists_words_eq_cons rest
    rw [words_cons, hrest] at h
    rw [joinWords]
    by_cases hc : c = '_'
    · -- the word before the underscore is empty, and the one behind it is capitalised
      rw [if_pos hc] at h ⊢
      obtain ⟨rfl, rfl⟩ := List.cons.inj h
      rw [ih hrest true]
      cases capitalise <;> rfl
    · rw [if_neg hc] at h ⊢
      obtain ⟨rfl, rfl⟩ := List.cons.inj h
      rw [ih hrest false]
      cases capitalise <;> rfl

/-- Joining words in one pass that begins with a capital capitalises every word. -/
theorem joinWords_true (name : List Char) :
    joinWords true name = (words name).flatMap capitalised := by
  obtain ⟨word, others, hwords⟩ := exists_words_eq_cons name
  rw [joinWords_eq hwords, hwords, if_pos rfl, List.flatMap_cons]

/-- Hyphens for underscores are hyphens between words. -/
theorem map_hyphenate (name : List Char) :
    name.map hyphenate = ['-'].intercalate (words name) := by
  induction name with
  | nil => rfl
  | cons c rest ih =>
    obtain ⟨word, others, hrest⟩ := exists_words_eq_cons rest
    rw [words_cons, List.map_cons, ih, hrest, hyphenate]
    by_cases hc : c = '_'
    · rw [if_pos hc, if_pos hc, List.intercalate_cons_cons]
      rfl
    · rw [if_neg hc, if_neg hc, List.modifyHead_cons, List.intercalate_cons_cons_left]

/-! ## Camel case -/

/-- **A rule miscases a name** if it is camel case and the first character of the name that is no
underscore is a capital, or any letter behind an underscore. -/
def Miscases (rule : RenameRule) (name : String) : Prop :=
  rule = .camel ∧ ∃ c ∈ (name.toList.dropWhile (· == '_')).head?,
    c.isUpper = true ∨ (c.isLower = true ∧ name.toList.head? = some '_')

/-- Words are joined from the first character on that is no underscore. -/
theorem joinWords_true_dropWhile (name : List Char) :
    joinWords true (name.dropWhile (· == '_')) = joinWords true name := by
  induction name with
  | nil => rfl
  | cons c rest ih =>
    by_cases hc : c = '_'
    · rw [List.dropWhile_cons_of_pos (by simpa using hc), ih, joinWords, if_pos hc]
    · rw [List.dropWhile_cons_of_neg (by simpa using hc)]

/-- What joining words does with a first character that is no underscore. -/
theorem joinWords_cons_of_ne {c : Char} (hc : c ≠ '_') (capitalise : Bool) (rest : List Char) :
    joinWords capitalise (c :: rest)
      = (if capitalise then c.toUpper else c) :: joinWords false rest := by
  rw [joinWords, if_neg hc]

/-- Behind underscores, joining words begins with a capital, and camel case does not. -/
theorem joinWords_true_eq_iff {name : List Char} :
    joinWords true name = (joinWords true name).modifyHead Char.toLower ↔
      ¬ ∃ c ∈ (name.dropWhile (· == '_')).head?, c.isUpper = true ∨ c.isLower = true := by
  rw [← joinWords_true_dropWhile]
  have hhead := List.head?_dropWhile_not (· == '_') name
  cases hrest : name.dropWhile (· == '_') with
  | nil => simp [joinWords]
  | cons c rest =>
    have hc : c ≠ '_' := by simpa [hrest] using hhead
    rw [joinWords_cons_of_ne hc, List.modifyHead_cons, if_pos rfl, List.cons.injEq,
      and_iff_left rfl, eq_comm, toLower_toUpper_eq_toUpper_iff]
    simp

/-- **Camel case in one pass** begins like the name, and so it is not camel case for every name. -/
theorem joinWords_false_eq_iff (name : List Char) :
    joinWords false name = ((words name).flatMap capitalised).modifyHead Char.toLower ↔
      ¬ ∃ c ∈ (name.dropWhile (· == '_')).head?,
        c.isUpper = true ∨ (c.isLower = true ∧ name.head? = some '_') := by
  rw [← joinWords_true]
  cases name with
  | nil => simp [joinWords]
  | cons c rest =>
    by_cases hc : c = '_'
    · subst hc
      have hpass : joinWords false ('_' :: rest) = joinWords true ('_' :: rest) := rfl
      rw [hpass, joinWords_true_eq_iff]
      simp only [List.head?_cons, and_true]
    · have hopens : ¬ some c = some '_' := by simpa using hc
      rw [joinWords_cons_of_ne hc, joinWords_cons_of_ne hc, List.modifyHead_cons, if_pos rfl,
        if_neg Bool.false_ne_true, List.dropWhile_cons_of_neg (by simpa using hc), List.cons.injEq,
        and_iff_left rfl, eq_comm, toLower_toUpper_eq_self_iff]
      simp [hopens]

/-- **A rule gives the key that is written** for a name, unless it miscases the name. -/
theorem apply_eq_written_iff (rule : RenameRule) (name : String) :
    rule.apply name = rule.written name ↔ ¬ rule.Miscases name := by
  rw [apply, written, String.ofList_inj]
  cases rule with
  | camel =>
    simpa only [Miscases, true_and, applyChars, writtenChars] using
      joinWords_false_eq_iff name.toList
  | pascal => simpa [Miscases, applyChars, writtenChars] using joinWords_true name.toList
  | kebab => simpa [Miscases, applyChars, writtenChars] using map_hyphenate name.toList
  | screamingKebab =>
    have hmap := congrArg (List.map Char.toUpper) (map_hyphenate name.toList)
    rw [List.map_map] at hmap
    simpa [Miscases, applyChars, writtenChars, Function.comp_def] using hmap
  | lower | upper | snake | screamingSnake => simp [Miscases, applyChars, writtenChars]

end RenameRule

/-! ## Described fields -/

/-- The fields of a description are those of the fields of the declaration, in the light of its
rename rule. -/
theorem mem_fields_of_describeFields {declaration : Declaration} {description : FieldsDescription}
    {rule : Option RenameRule} (h : describeFields declaration = .ok description)
    (hrule : readRenameRule declaration.attributes = .ok rule) {described : DescribedField} :
    described ∈ description.fields ↔ ∃ field ∈ declaration.fields, ∃ items,
      describeField rule field = .ok items ∧ described ∈ items := by
  rw [describeFields] at h
  split at h
  · obtain ⟨found, hfound, hrest⟩ := Outcome.bind_eq_ok_iff.mp h
    obtain rfl : rule = found := Except.ok.inj (hrule.symm.trans hfound)
    obtain ⟨results, hresults, hpure⟩ := Outcome.bind_eq_ok_iff.mp hrest
    cases hpure
    exact Outcome.mem_flatten_of_mapM hresults
  · cases h

/-- **The key under which a field is written**: the one that its attributes give, or else its name
under the rename rule of the declaration. -/
def keyWritten (rule : Option RenameRule) (field : FieldDeclaration)
    (attributes : FieldAttributes) : String :=
  attributes.storageName.getD <| match rule with
    | some rule => rule.written (plainName field.name)
    | none => plainName field.name

/-- **The key of a field is miscased** if it follows from a name that the rename rule miscases. -/
def Miscased (rule : Option RenameRule) (field : FieldDeclaration)
    (attributes : FieldAttributes) : Prop :=
  attributes.storageName = none ∧ ∃ given ∈ rule, given.Miscases (plainName field.name)

/-- **A field describes itself**: it is neither left out nor replaced, and goes by the name that its
attributes give it, or else by its own. -/
structure Describes (field : FieldDeclaration) (attributes : FieldAttributes)
    (descriptor : FieldDescriptor) : Prop where
  /-- The attributes are those of the field. -/
  read : FieldAttributes.read field.attributes = .ok attributes
  /-- It is not left out. -/
  stored : attributes.skipped = false
  /-- No other fields stand in its place. -/
  own : attributes.flattened = false
  /-- The name that filters use. -/
  name : descriptor.name = attributes.name.getD (plainName field.name)
  /-- The declared type. -/
  declaredType : descriptor.declaredType = spaced field.type

/-- **The storage name of a described field** is the key under which it is written, unless that key
is miscased. -/
theorem describes_of_describeField {rule : Option RenameRule} {field : FieldDeclaration}
    {items : List DescribedField} (h : describeField rule field = .ok items)
    {descriptor : FieldDescriptor} (hmem : .field descriptor ∈ items) :
    ∃ attributes, Describes field attributes descriptor ∧
      (descriptor.storageName = keyWritten rule field attributes
        ↔ ¬ Miscased rule field attributes) := by
  obtain ⟨attributes, hread, hrest⟩ := Outcome.bind_eq_ok_iff.mp h
  dsimp only at hrest
  split at hrest
  · cases hrest
    cases hmem
  · rename_i hstored
    split at hrest
    · cases hrest
      simp at hmem
    · rename_i hown
      cases hrest
      obtain rfl : descriptor = _ := by simpa using hmem
      refine ⟨attributes, ⟨hread, by simpa using hstored, by simpa using hown, rfl, rfl⟩, ?_⟩
      rw [keyWritten.eq_def, Miscased]
      cases attributes.storageName with
      | some key => simp
      | none =>
        cases rule with
        | none => simp
        | some rule => simpa using rule.apply_eq_written_iff (plainName field.name)

/-! ## Filters on described fields -/

/-- **A filter on a declared field** asks for its storage name, and does not compile if its logical
name is a path. -/
theorem compile_field_eq_iff {model : String} {fields : List FieldDescriptor} {schema : Schema}
    (h : Schema.build model fields = .ok schema) {descriptor : FieldDescriptor}
    (hmem : descriptor ∈ fields) (operator : FieldOperator) (key : String) :
    (Condition.field descriptor.name operator).compile schema
        = .ok [(key, .document operator.compile)] ↔
      '.' ∉ descriptor.name.toList ∧ descriptor.storageName = key := by
  rw [Condition.compile]
  by_cases hdot : '.' ∈ descriptor.name.toList
  · have hpath : schema.resolve descriptor.name = .error (.nestedField descriptor.name) := by
      rw [Schema.resolve, if_pos (by simpa using hdot)]
    simp [hpath, hdot, Except.map]
  · rw [Schema.resolve_of_mem h hmem hdot]
    simp [hdot, Except.map, Schema.infoOf]

/-- **Derived fields are asked for by the keys that are written, unless these are miscased.** A
rename rule gives the key that is written for a name if and only if it does not miscase the name.
Every described field is a field of the declaration that describes itself; and in each schema that
has it among its fields, a filter on it asks for the key under which it is written if and only if its
logical name is no path and its key is not miscased. -/
theorem derived_keys_written_unless_miscased (declaration : Declaration) :
    (∀ (rule : RenameRule) (name : String),
      rule.apply name = rule.written name ↔ ¬ rule.Miscases name) ∧
    ∀ description rule, describeFields declaration = .ok description →
      readRenameRule declaration.attributes = .ok rule →
      ∀ descriptor, .field descriptor ∈ description.fields →
        ∃ field ∈ declaration.fields, ∃ attributes, Describes field attributes descriptor ∧
          ∀ model fields schema, descriptor ∈ fields → Schema.build model fields = .ok schema →
            ∀ operator, (Condition.field descriptor.name operator).compile schema
                = .ok [(keyWritten rule field attributes, .document operator.compile)]
              ↔ '.' ∉ descriptor.name.toList ∧ ¬ Miscased rule field attributes := by
  refine ⟨RenameRule.apply_eq_written_iff, ?_⟩
  intro description rule h hrule descriptor hdescribed
  obtain ⟨field, hfield, items, hitems, hmem⟩ :=
    (mem_fields_of_describeFields h hrule).mp hdescribed
  obtain ⟨attributes, hdescribes, hkey⟩ := describes_of_describeField hitems hmem
  refine ⟨field, hfield, attributes, hdescribes, ?_⟩
  intro model fields schema hdeclared hbuild operator
  rw [compile_field_eq_iff hbuild hdeclared, hkey]

/-- A field `_total` under camel case is written as `total`, but a filter on it asks for `Total`; a
field `unit_price` is asked for as it is written. -/
theorem derived_keys_written_unless_miscased_underscored :
    ∃ (field : FieldDeclaration) (declaration : Declaration) (schema : Schema),
      field = ⟨"_total", ["i64"], []⟩ ∧
      declaration = ⟨"Invoice", .named, [],
        [⟨"serde", some [.text "rename_all" "camelCase"]⟩], [field]⟩ ∧
      describeFields declaration = .ok ⟨"Invoice", [.field ⟨"_total", "Total", "i64"⟩]⟩ ∧
      readRenameRule declaration.attributes = .ok (some .camel) ∧
      Schema.build "Invoice" [⟨"_total", "Total", "i64"⟩] = .ok schema ∧
      keyWritten (some .camel) field {} = "total" ∧
      (Condition.field "_total" (.eq (.int32 1))).compile schema
        ≠ .ok [("total", .document [("$eq", .int32 1)])] ∧
      RenameRule.camel.apply "unit_price" = RenameRule.camel.written "unit_price" ∧
      RenameRule.camel.written "unit_price" = "unitPrice" := by
  let descriptor : FieldDescriptor := ⟨"_total", "Total", "i64"⟩
  let field : FieldDeclaration := ⟨"_total", ["i64"], []⟩
  let declaration : Declaration := ⟨"Invoice", .named, [],
    [⟨"serde", some [.text "rename_all" "camelCase"]⟩], [field]⟩
  have hdescribe : describeFields declaration = .ok ⟨"Invoice", [.field descriptor]⟩ := by
    simp only [declaration, field, descriptor]
    rfl
  have hrule : readRenameRule declaration.attributes = .ok (some .camel) := rfl
  have hbuild : Schema.build "Invoice" [descriptor]
      = .ok ⟨"Invoice", Schema.entriesOf [descriptor]⟩ :=
    Schema.build_of_namesDiffer "Invoice" (List.cons_ne_nil _ _) ⟨by decide, by decide⟩
  have hmiscased : Miscased (some .camel) field {} :=
    ⟨rfl, .camel, rfl, rfl, 't', Option.mem_def.mpr (by decide), Or.inr ⟨rfl, by decide⟩⟩
  have hproper : ¬ RenameRule.camel.Miscases "unit_price" := by
    rintro ⟨-, c, hc, hcase⟩
    obtain rfl : 'u' = c := Option.some.inj hc
    rcases hcase with hupper | ⟨-, hopens⟩
    · exact absurd hupper (by decide)
    · exact absurd hopens (by decide)
  have hwritten : keyWritten (some .camel) field {} = "total" := by decide
  obtain ⟨hnames, hderived⟩ := derived_keys_written_unless_miscased declaration
  obtain ⟨source, hsource, attributes, hdescribes, hasks⟩ :=
    hderived _ _ hdescribe hrule descriptor List.mem_cons_self
  obtain rfl := List.mem_singleton.mp hsource
  obtain rfl : attributes = {} := (Except.ok.inj hdescribes.read).symm
  refine ⟨field, declaration, _, rfl, rfl, hdescribe, hrule, hbuild, hwritten, ?_,
    (hnames .camel "unit_price").mpr hproper, by decide⟩
  rw [← hwritten]
  exact fun hcompile =>
    ((hasks "Invoice" _ _ List.mem_cons_self hbuild _).mp hcompile).2 hmiscased

end Derive

end DocStore
