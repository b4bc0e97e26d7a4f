import DocStore.Proofs.Ranges

/-! # Arrays and ranges

An array equals an operand, or is among several, if one of its items is. A range looks at one item
only, the first in the bracket of the operand (`RangeOperator.decider?`): the array lies in the range
if that item does (`RangeOperator.meaning_array`). So an array of which any item lies in the range is
matched unless a first item outside hides it (`Query.byItems_iff_not_hides`), and the order of the
items does not matter if and only if the items of that bracket lie in the range all or none
(`Query.ignoresOrder_iff_not_straddles`). -/

namespace DocStore

/-- The **range operators**. -/
inductive RangeOperator where
  | gt
  | gte
  | lt
  | lte
  deriving DecidableEq

namespace RangeOperator

/-- The ways to compare with an operand that a range accepts. -/
def accepts : RangeOperator → Ordering → Bool
  | .gt => Ordering.isGT
  | .gte => Ordering.isGE
  | .lt => Ordering.isLT
  | .lte => Ordering.isLE

/-- The test for the range that an operand bounds. -/
def test : RangeOperator → Value → FieldOperator
  | .gt => .gt
  | .gte => .gte
  | .lt => .lt
  | .lte => .lte

/-- Whether a value lies in the range that an operand bounds. -/
def contains (range : RangeOperator) (operand value : Value) : Bool :=
  (value.compareInBracket operand).any range.accepts

/-- **The item that decides** whether an array lies in a range: the first in the bracket of the
operand. -/
def decider? (operand : Value) (items : List Value) : Option Value :=
  items.find? fun item => decide (item.bracket = operand.bracket)

/-- Whether the item that decides lies outside of a range in which another item lies. -/
def Hides (range : RangeOperator) (operand : Value) (items : List Value) : Prop :=
  ∃ outside, decider? operand items = some outside ∧ range.contains operand outside = false ∧
    ∃ inside ∈ items, range.contains operand inside = true

/-- Whether of the items in the bracket of the operand one lies in a range and another outside. -/
def Straddles (range : RangeOperator) (operand : Value) (items : List Value) : Prop :=
  ∃ inside ∈ items, ∃ outside ∈ items, range.contains operand inside = true ∧
    outside.bracket = operand.bracket ∧ range.contains operand outside = false

variable {range : RangeOperator} {operand : Value} {items : List Value}

theorem patterns_test (range : RangeOperator) (operand : Value) :
    (range.test operand).patterns = [] := by
  cases range <;> rfl

theorem meaning_test [Runtime] (range : RangeOperator) (operand : Value) (stored : Option Value) :
    (range.test operand).meaning stored
      = FieldTest.comparesAs range.accepts stored operand := by
  cases range <;> rfl

/-- What lies in a range is in the bracket of the operand. -/
theorem bracket_eq_of_contains {value : Value} (h : range.contains operand value = true) :
    value.bracket = operand.bracket := by
  rw [contains, Value.compareInBracket] at h
  by_contra hbracket
  rw [if_neg hbracket] at h
  cases h

/-- A value other than an array is in the range if it lies there. -/
theorem meaning_of_isArray_eq_false [Runtime] {value : Value} (h : value.isArray = false) :
    (range.test operand).meaning (some value) = range.contains operand value := by
  rw [meaning_test, FieldTest.comparesAs, FieldTest.compare?_of_isArray_eq_false h, contains]

/-- **An array lies in a range** if the item that decides does. -/
theorem meaning_array [Runtime] (range : RangeOperator) (operand : Value) (items : List Value) :
    (range.test operand).meaning (some (.array items))
      = (decider? operand items).any (range.contains operand) := by
  rw [meaning_test, FieldTest.comparesAs, FieldTest.compare?, decider?]
  -- the scan passes over the items with which the operand does not compare, those of other brackets
  induction items with
  | nil => rfl
  | cons item rest ih =>
    rw [List.findSome?_cons, List.find?_cons]
    by_cases hbracket : item.bracket = operand.bracket
    · rw [decide_eq_true hbracket, Option.any_some, contains, Value.compareInBracket,
        if_pos hbracket]
    · rw [decide_eq_false hbracket, Value.compareInBracket, if_neg hbracket]
      exact ih

theorem mem_of_decider? {item : Value} (h : decider? operand items = some item) :
    item ∈ items ∧ item.bracket = operand.bracket := by
  have hfound := List.find?_some h
  exact ⟨List.mem_of_find?_eq_some h, by simpa using hfound⟩

/-- If an item is in the bracket of the operand, there is one that decides. -/
theorem exists_decider {item : Value} (hmem : item ∈ items)
    (hbracket : item.bracket = operand.bracket) : ∃ first, decider? operand items = some first :=
  Option.isSome_iff_exists.mp (List.find?_isSome.mpr ⟨item, hmem, decide_eq_true hbracket⟩)

/-- An item in the bracket of the operand decides if it comes first. -/
theorem decider?_cons {item : Value} (hbracket : item.bracket = operand.bracket)
    (rest : List Value) : decider? operand (item :: rest) = some item :=
  List.find?_cons_of_pos (decide_eq_true hbracket)

/-- The item that decides lies in the range just where any item does, unless it hides that one. -/
theorem any_decider_iff_not_hides :
    ((decider? operand items).any (range.contains operand) = true
      ↔ ∃ item ∈ items, range.contains operand item = true) ↔ ¬ range.Hides operand items := by
  constructor
  · rintro h ⟨outside, hdecider, houtside, hinside⟩
    have hany := h.mpr hinside
    rw [hdecider, Option.any_some, houtside] at hany
    cases hany
  · intro h
    constructor
    · intro hany
      obtain ⟨item, hdecider, hcontains⟩ := (Option.any_eq_true _ _).mp hany
      exact ⟨item, (mem_of_decider? hdecider).1, hcontains⟩
    · rintro ⟨inside, hmem, hinside⟩
      obtain ⟨first, hfirst⟩ := exists_decider hmem (bracket_eq_of_contains hinside)
      rw [hfirst, Option.any_some]
      by_contra houtside
      rw [Bool.not_eq_true] at houtside
      exact h ⟨first, hfirst, houtside, inside, hmem, hinside⟩

/-- **The order of the items matters** if and only if they straddle the end of the range. -/
theorem any_decider_perm_iff_not_straddles :
    (∀ items', items.Perm items' → (decider? operand items').any (range.contains operand)
      = (decider? operand items).any (range.contains operand))
      ↔ ¬ range.Straddles operand items := by
  constructor
  · rintro h ⟨inside, hinside, outside, houtside, hcontains, hbracket, hnot⟩
    -- each of the two can be moved to the front, where it decides
    have hfront : ∀ item ∈ items, item.bracket = operand.bracket →
        (decider? operand items).any (range.contains operand) = range.contains operand item := by
      intro item hmem hitem
      obtain ⟨before, after, hsplit⟩ := List.append_of_mem hmem
      rw [← h (item :: (before ++ after)) (hsplit ▸ List.perm_middle), decider?_cons hitem,
        Option.any_some]
    have hsame := (hfront inside hinside (bracket_eq_of_contains hcontains)).symm.trans
      (hfront outside houtside hbracket)
    rw [hcontains, hnot] at hsame
    cases hsame
  · intro h items' hperm
    cases hdecider : decider? operand items with
    | none =>
      have hnone : decider? operand items' = none := by
        by_contra hsome
        obtain ⟨item, hitem⟩ := Option.ne_none_iff_exists'.mp hsome
        obtain ⟨hmem, hbracket⟩ := mem_of_decider? hitem
        obtain ⟨first, hfirst⟩ := exists_decider (hperm.mem_iff.mpr hmem) hbracket
        rw [hfirst] at hdecider
        cases hdecider
      rw [hnone]
    | some first =>
      obtain ⟨hmem, hbracket⟩ := mem_of_decider? hdecider
      obtain ⟨first', hdecider'⟩ := exists_decider (hperm.mem_iff.mp hmem) hbracket
      obtain ⟨hmem', hbracket'⟩ := mem_of_decider? hdecider'
      rw [hdecider', Option.any_some, Option.any_some]
      rw [← hperm.mem_iff] at hmem'
      -- one in the range and the other outside would straddle its end
      cases hfirst : range.contains operand first with
      | true =>
        by_contra hfirst'
        rw [Bool.not_eq_true] at hfirst'
        exact h ⟨first, hmem, first', hmem', hfirst, hbracket', hfirst'⟩
      | false =>
        by_contra hfirst'
        rw [Bool.not_eq_false] at hfirst'
        exact h ⟨first', hmem', first, hmem, hfirst', hbracket, hfirst⟩

end RangeOperator

/-! ## Tests of arrays -/

namespace FieldTest

open Collection (equals_of_isArray_eq_false)

/-- An array equals an operand that is no array if one of its items is the same. -/
theorem equals_array {operand : Value} (h : operand.isArray = false) (items : List Value) :
    equals (some (.array items)) operand = items.any fun item => same item operand := by
  cases operand <;> first | rfl | cases h

/-- What is the same as no array is no array. -/
theorem isArray_of_same {item operand : Value} (h : operand.isArray = false)
    (hsame : same item operand = true) : item.isArray = false :=
  Value.isArray_of_bracket_eq (Value.bracket_eq_of_same hsame).symm h

end FieldTest

namespace Query

open Collection (equals_of_isArray_eq_false)

section

variable [Runtime]

/-- **A test goes item by item** where a document holds an array: the document is matched just where
one with an item in the place of the array is, the item being no array itself. -/
def ByItems (doc : Document) (field : String) (items : List Value) (operator : FieldOperator) :
    Prop :=
  holds doc (operator.query field) = .ok true ↔
    ∃ item ∈ items, item.isArray = false ∧
      holds (Entries.insert doc field item) (operator.query field) = .ok true

/-- Whether a test **ignores the order** of the items of an array that a document holds. -/
def IgnoresOrder (doc : Document) (field : String) (items : List Value)
    (operator : FieldOperator) : Prop :=
  ∀ items', items.Perm items' →
    holds (Entries.insert doc field (.array items')) (operator.query field)
      = holds doc (operator.query field)

section

variable {doc : Document} {field : String} {items : List Value} {operand : Value}
  (hfield : isOperator field = false) (hstored : Entries.get? doc field = some (.array items))

include hfield

/-- A test of a document with a value put into the field is a test of that value. -/
theorem holds_insert_query {operator : FieldOperator} (hpatterns : operator.patterns = [])
    (value : Value) :
    holds (Entries.insert doc field value) (operator.query field)
      = .ok (operator.meaning (some value)) := by
  rw [FieldOperator.holds_query hfield hpatterns, Entries.get?_insert_self]

include hstored

/-- A test that holds of an array if something holds of an item goes item by item and ignores the
order. -/
theorem byItems_of_any {operator : FieldOperator} (hpatterns : operator.patterns = [])
    (holdsOf : Value → Bool)
    (harray : ∀ items, operator.meaning (some (.array items)) = items.any holdsOf)
    (hitem : ∀ item : Value, item.isArray = false →
      operator.meaning (some item) = holdsOf item)
    (hplain : ∀ item, holdsOf item = true → item.isArray = false) :
    ByItems doc field items operator ∧ IgnoresOrder doc field items operator := by
  have hholds : holds doc (operator.query field) = .ok (items.any holdsOf) := by
    rw [FieldOperator.holds_query hfield hpatterns, hstored, harray]
  constructor
  · rw [ByItems, hholds, Except.ok.injEq, List.any_eq_true]
    refine exists_congr fun item => and_congr_right fun _ => ?_
    rw [holds_insert_query hfield hpatterns, Except.ok.injEq]
    constructor
    · intro h
      have hnoArray := hplain item h
      exact ⟨hnoArray, (hitem item hnoArray).trans h⟩
    · rintro ⟨hnoArray, h⟩
      exact (hitem item hnoArray).symm.trans h
  · intro items' hperm
    rw [hholds, holds_insert_query hfield hpatterns, harray, hperm.any_eq]

/-- Equality goes item by item. -/
theorem byItems_eq (hoperand : operand.isArray = false) :
    ByItems doc field items (.eq operand) ∧ IgnoresOrder doc field items (.eq operand) :=
  byItems_of_any hfield hstored rfl (fun item => FieldTest.same item operand)
    (FieldTest.equals_array hoperand) (fun _ h => equals_of_isArray_eq_false h operand)
    fun _ => FieldTest.isArray_of_same hoperand

/-- Membership in a list goes item by item. -/
theorem byItems_inq {operands : List Value}
    (hoperands : ∀ operand ∈ operands, operand.isArray = false) :
    ByItems doc field items (.inq operands) ∧ IgnoresOrder doc field items (.inq operands) := by
  refine byItems_of_any hfield hstored rfl
    (fun item => operands.any fun operand => FieldTest.same item operand) ?_ ?_ ?_
  · intro items
    rw [FieldOperator.meaning, Bool.eq_iff_iff, List.any_eq_true, List.any_eq_true]
    constructor
    · rintro ⟨operand, hmem, h⟩
      rw [FieldTest.equals_array (hoperands operand hmem), List.any_eq_true] at h
      obtain ⟨item, hitem, hsame⟩ := h
      exact ⟨item, hitem, List.any_eq_true.mpr ⟨operand, hmem, hsame⟩⟩
    · rintro ⟨item, hitem, h⟩
      obtain ⟨operand, hmem, hsame⟩ := List.any_eq_true.mp h
      refine ⟨operand, hmem, ?_⟩
      rw [FieldTest.equals_array (hoperands operand hmem)]
      exact List.any_eq_true.mpr ⟨item, hitem, hsame⟩
  · intro item h
    simp only [FieldOperator.meaning, equals_of_isArray_eq_false h]
  · intro item h
    obtain ⟨operand, hmem, hsame⟩ := List.any_eq_true.mp h
    exact FieldTest.isArray_of_same (hoperands operand hmem) hsame

/-- **A range of an array** is tested on the item that decides. -/
theorem holds_range (range : RangeOperator) :
    holds doc ((range.test operand).query field)
      = .ok ((RangeOperator.decider? operand items).any (range.contains operand)) := by
  rw [FieldOperator.holds_query hfield (range.patterns_test operand), hstored,
    RangeOperator.meaning_array]

/-- **A range goes item by item** if and only if no item outside hides one that lies in it. -/
theorem byItems_iff_not_hides (hoperand : operand.isArray = false) (range : RangeOperator) :
    ByItems doc field items (range.test operand) ↔ ¬ range.Hides operand items := by
  rw [← RangeOperator.any_decider_iff_not_hides, ByItems, holds_range hfield hstored,
    Except.ok.injEq]
  refine iff_congr Iff.rfl (exists_congr fun item => and_congr_right fun _ => ?_)
  rw [holds_insert_query hfield (range.patterns_test operand), Except.ok.injEq]
  constructor
  · rintro ⟨hnoArray, h⟩
    exact (RangeOperator.meaning_of_isArray_eq_false hnoArray).symm.trans h
  · intro h
    have hbracket := RangeOperator.bracket_eq_of_contains h
    have hnoArray := Value.isArray_of_bracket_eq hbracket.symm hoperand
    exact ⟨hnoArray, (RangeOperator.meaning_of_isArray_eq_false hnoArray).trans h⟩

/-- **A range ignores the order** of the items if and only if they do not straddle its end. -/
theorem ignoresOrder_iff_not_straddles (range : RangeOperator) :
    IgnoresOrder doc field items (range.test operand) ↔ ¬ range.Straddles operand items := by
  rw [← RangeOperator.any_decider_perm_iff_not_straddles]
  refine forall₂_congr fun items' _ => ?_
  rw [holds_insert_query hfield (range.patterns_test operand), RangeOperator.meaning_array,
    holds_range hfield hstored, Except.ok.injEq]

end

/-- **The first item of the bracket decides.** Where a document holds an array and the operand is no
array, the document lies in a range just where the first item in the bracket of the operand does, by
itself. So if the document is matched, an item lies in the range; conversely the range goes item by
item unless that first item hides one that lies in it, and the order of the items does not matter if
and only if they do not straddle the end of the range. Equality and membership go item by item
whatever the items are, and ignore their order. -/
theorem array_ranges_by_first_item {doc : Document} {field : String} {items : List Value}
    (hfield : isOperator field = false) (hstored : Entries.get? doc field = some (.array items)) :
    (∀ operand : Value, operand.isArray = false →
      (∀ range : RangeOperator,
        holds doc ((range.test operand).query field)
          = .ok ((RangeOperator.decider? operand items).any (range.contains operand)) ∧
        (∀ item : Value, item.isArray = false →
          holds (Entries.insert doc field item) ((range.test operand).query field)
            = .ok (range.contains operand item)) ∧
        (holds doc ((range.test operand).query field) = .ok true →
          ∃ item ∈ items, item.isArray = false ∧
            holds (Entries.insert doc field item) ((range.test operand).query field) = .ok true) ∧
        (ByItems doc field items (range.test operand) ↔ ¬ range.Hides operand items) ∧
        (IgnoresOrder doc field items (range.test operand)
          ↔ ¬ range.Straddles operand items)) ∧
      ByItems doc field items (.eq operand) ∧ IgnoresOrder doc field items (.eq operand)) ∧
    ∀ operands : List Value, (∀ operand ∈ operands, operand.isArray = false) →
      ByItems doc field items (.inq operands) ∧ IgnoresOrder doc field items (.inq operands) := by
  refine ⟨fun operand hoperand => ⟨fun range => ?_, byItems_eq hfield hstored hoperand⟩,
    fun operands hoperands => byItems_inq hfield hstored hoperands⟩
  have hrange : holds doc ((range.test operand).query field)
      = .ok ((RangeOperator.decider? operand items).any (range.contains operand)) :=
    holds_range hfield hstored range
  have halone : ∀ item : Value, item.isArray = false →
      holds (Entries.insert doc field item) ((range.test operand).query field)
        = .ok (range.contains operand item) := by
    intro item h
    rw [holds_insert_query hfield (range.patterns_test operand),
      RangeOperator.meaning_of_isArray_eq_false h]
  refine ⟨hrange, halone, fun h => ?_, byItems_iff_not_hides hfield hstored hoperand range,
    ignoresOrder_iff_not_straddles hfield hstored range⟩
  rw [hrange, Except.ok.injEq, Option.any_eq_true] at h
  obtain ⟨item, hdecider, hcontains⟩ := h
  obtain ⟨hmem, hbracket⟩ := RangeOperator.mem_of_decider? hdecider
  have hnoArray := Value.isArray_of_bracket_eq hbracket.symm hoperand
  exact ⟨item, hmem, hnoArray, by rw [halone item hnoArray, hcontains]⟩

end

/-- Of the scores 1 and 10, behind a text, the first one hides the other from more than 5, although
that lies there by itself. It hides nothing from at least 1, and equality with 10 finds the last
item. -/
theorem array_ranges_by_first_item_scores :
    ∃ (doc : Document) (items : List Value), doc = [("scores", .array items)] ∧
      items = [.string "none", .int32 1, .int64 10] ∧
      (isOperator "scores" = false ∧ Entries.get? doc "scores" = some (.array items) ∧
        (Value.int32 5).isArray = false) ∧
      holds doc ((FieldOperator.gt (.int32 5)).query "scores") = .ok false ∧
      holds (Entries.insert doc "scores" (.int64 10))
        ((FieldOperator.gt (.int32 5)).query "scores") = .ok true ∧
      ¬ ByItems doc "scores" items (.gt (.int32 5)) ∧
      ¬ IgnoresOrder doc "scores" items (.gt (.int32 5)) ∧
      ByItems doc "scores" items (.gte (.int32 1)) ∧
      IgnoresOrder doc "scores" items (.gte (.int32 1)) ∧
      holds doc ((FieldOperator.eq (.int32 10)).query "scores") = .ok true ∧
      ByItems doc "scores" items (.eq (.int32 10)) := by
  let items : List Value := [.string "none", .int32 1, .int64 10]
  let doc : Document := [("scores", .array items)]
  have hfield : isOperator "scores" = false := by decide
  have hstored : Entries.get? doc "scores" = some (.array items) := rfl
  obtain ⟨hfive, -⟩ := (array_ranges_by_first_item hfield hstored).1 (.int32 5) rfl
  obtain ⟨hone, -⟩ := (array_ranges_by_first_item hfield hstored).1 (.int32 1) rfl
  obtain ⟨-, hten, -⟩ := (array_ranges_by_first_item hfield hstored).1 (.int32 10) rfl
  obtain ⟨hmore, halone, -, hbyItems, horder⟩ := hfive .gt
  obtain ⟨-, -, -, hbyItems', horder'⟩ := hone .gte
  have hhides : RangeOperator.Hides .gt (.int32 5) items :=
    ⟨.int32 1, rfl, rfl, .int64 10, by simp [items], rfl⟩
  have hstraddles : RangeOperator.Straddles .gt (.int32 5) items :=
    ⟨.int64 10, by simp [items], .int32 1, by simp [items], rfl, rfl, rfl⟩
  -- both numbers are at least 1, and the text is in another bracket
  have hinside : ∀ item ∈ items, item.bracket = (Value.int32 1).bracket →
      RangeOperator.contains .gte (.int32 1) item = true := by
    intro item hmem hbracket
    simp only [items, List.mem_cons, List.not_mem_nil, or_false] at hmem
    rcases hmem with rfl | rfl | rfl
    · cases hbracket
    · rfl
    · rfl
  refine ⟨doc, items, rfl, rfl, ⟨hfield, hstored, rfl⟩, hmore, halone (.int64 10) rfl,
    fun h => hbyItems.mp h hhides, fun h => horder.mp h hstraddles, hbyItems'.mpr ?_,
    horder'.mpr ?_, rfl, hten⟩
  · rintro ⟨outside, hdecider, houtside, -⟩
    obtain ⟨hmem, hbracket⟩ := RangeOperator.mem_of_decider? hdecider
    rw [hinside outside hmem hbracket] at houtside
    cases houtside
  · rintro ⟨-, -, outside, hmem, -, hbracket, houtside⟩
    rw [hinside outside hmem hbracket] at houtside
    cases houtside

end Query

end DocStore
