import DocStore.Proofs.KeyQueries
import DocStore.Proofs.ListWrites
import DocStore.Proofs.Meaning
import DocStore.Proofs.ValueOrder

/-! # Ranges and equality

Equality of a field with an operand and the ranges that the operand bounds are tested apart from
each other: equality by type and content, ranges by the order of values. On values that have an
order of their own both come to the same (`Value.order_eq_iff_same`); any other value counts as
equal, in the order, to all of its bracket (`Value.order_of_unordered`), and a field that is missing
equals null without being in any range. These are the only ways in which the two part
(`FieldTest.Discrepant`), so elsewhere a range that includes its end is the range without it or
equality (`Query.ranges_agree_unless_discrepant`). -/

namespace DocStore

namespace Value

/-- Whether a value that is no array **has an order** of its own: it is compared by its content, and
it is no NaN. An array has the order of its items instead. -/
def hasOrder : Value → Bool
  | .null | .int32 _ | .int64 _ | .string _ | .objectId _ | .bool _ | .dateTime _ => true
  | .double x => !x.isNaN
  | _ => false

variable {left right : Value}

/-! ## Values that are the same -/

/-- Equal values have one bracket. -/
theorem bracket_eq_of_equal (h : equal left right = true) : left.bracket = right.bracket := by
  cases left <;> cases right <;> first | rfl | cases h

/-- Values that are the same to a query have one bracket. -/
theorem bracket_eq_of_same (h : FieldTest.same left right = true) :
    left.bracket = right.bracket := by
  rcases FieldTest.same_iff.mp h with hequal | ⟨x, y, hx, hy, -⟩
  · exact bracket_eq_of_equal hequal
  · rw [bracket_of_number? hx, bracket_of_number? hy]

/-! ## Values without an order -/

/-- A value without an order counts as equal to all of its bracket. -/
theorem order_of_left_unordered (h : left.hasOrder = false) (harray : left.isArray = false)
    (hbracket : left.bracket = right.bracket) : order left right = .eq := by
  -- it is no number, or a NaN, which compares with no number
  have hnumbers : orderNumbers left right = .eq := by
    cases left with
    | double x =>
      rw [hasOrder, Bool.not_eq_false'] at h
      rw [orderNumbers, number?]
      cases right.number? with
      | none => rfl
      | some y =>
        dsimp only
        rw [Double.compare?, h, Bool.true_or]
        rfl
    | null | int32 _ | int64 _ | string _ | objectId _ | bool _ | dateTime _ => cases h
    | _ => rfl
  -- and it is of no type whose values are compared by their content
  have hacross : order left right
      = (compare left.bracket right.bracket).then (orderNumbers left right) := by
    cases left with
    | string _ | objectId _ | bool _ | dateTime _ => cases h
    | array _ => cases harray
    | _ => cases right <;> rfl
  have hself : compare right.bracket right.bracket = .eq := Std.ReflCmp.compare_self
  rw [hacross, hnumbers, hbracket, hself]
  rfl

theorem isArray_of_bracket_eq (hbracket : left.bracket = right.bracket)
    (harray : left.isArray = false) : right.isArray = false := by
  cases right with
  | array _ =>
    cases left with
    | array _ => cases harray
    | _ => cases hbracket
  | _ => rfl

/-- Two values of one bracket of which one has no order count as equal. -/
theorem order_of_unordered (h : left.hasOrder = false ∨ right.hasOrder = false)
    (harray : left.isArray = false) (hbracket : left.bracket = right.bracket) :
    order left right = .eq := by
  rcases h with hleft | hright
  · exact order_of_left_unordered hleft harray hbracket
  · rw [order_swap right left, order_of_left_unordered hright
      (isArray_of_bracket_eq hbracket harray) hbracket.symm]
    rfl

/-! ## Values with an order -/

/-- The values of the bracket of numbers are numbers, and those with an order are no NaN. -/
theorem exists_number_of_bracket (h : left.hasOrder = true) (hbracket : left.bracket = 1) :
    ∃ x, left.number? = some x ∧ x.isNaN = false := by
  cases left with
  | int32 n => exact ⟨_, rfl, Double.isNaN_ofInt _⟩
  | int64 n => exact ⟨_, rfl, Double.isNaN_ofInt _⟩
  | double x => exact ⟨x, rfl, by simpa [hasOrder] using h⟩
  | _ => cases hbracket

/-- Two numbers are equal in the order if and only if they are the same. -/
theorem order_eq_iff_same_of_numbers {x y : Double} (hx : left.number? = some x)
    (hy : right.number? = some y) (hleft : x.isNaN = false) (hright : y.isNaN = false) :
    order left right = .eq ↔ FieldTest.same left right = true := by
  rw [order_of_number? hx hy, FieldTest.same, hx, hy]
  dsimp only
  rw [Double.compare?, Double.equals, hleft, hright]
  simp only [Bool.or_self, Bool.false_eq_true, if_false, Option.getD_some, Bool.not_false,
    Bool.true_and, decide_eq_true_eq]
  exact compare_eq_iff_eq

/-- **Values with an order** of one bracket are equal in the order if and only if they are the
same. -/
theorem order_eq_iff_same (hleft : left.hasOrder = true) (hright : right.hasOrder = true)
    (hbracket : left.bracket = right.bracket) :
    order left right = .eq ↔ FieldTest.same left right = true := by
  cases left with
  | int32 _ | int64 _ | double _ =>
    obtain ⟨x, hx, hx'⟩ := exists_number_of_bracket hleft rfl
    obtain ⟨y, hy, hy'⟩ := exists_number_of_bracket hright hbracket.symm
    exact order_eq_iff_same_of_numbers hx hy hx' hy'
  | null =>
    cases right with
    | null => exact ⟨fun _ => rfl, fun _ => rfl⟩
    | _ => cases hbracket
  | string a =>
    cases right with
    | string b =>
      have hsame : FieldTest.same (.string a) (.string b) = (a == b) := rfl
      rw [hsame, beq_iff_eq, order]
      exact Std.LawfulEqCmp.compare_eq_iff_eq
    | symbol b => cases hright
    | _ => cases hbracket
  | objectId a =>
    cases right with
    | objectId b =>
      have hsame : FieldTest.same (.objectId a) (.objectId b) = decide (a = b) := rfl
      rw [hsame, decide_eq_true_eq, order, ObjectId.order, compare_eq_iff_eq, BitVec.toNat_inj]
      exact ⟨fun h => congrArg ObjectId.mk h, fun h => congrArg ObjectId.value h⟩
    | _ => cases hbracket
  | bool a =>
    cases right with
    | bool b => cases a <;> cases b <;> decide
    | _ => cases hbracket
  | dateTime a =>
    cases right with
    | dateTime b =>
      have hsame : FieldTest.same (.dateTime a) (.dateTime b) = decide (a = b) := rfl
      rw [hsame, decide_eq_true_eq, order, compare_eq_iff_eq, Int64.toInt_inj]
      exact ⟨fun h => congrArg DateTime.mk h, fun h => congrArg DateTime.millis h⟩
    | _ => cases hbracket
  | _ => cases hleft

end Value

/-! ## Equality beside the ranges -/

namespace FieldTest

open Collection (equals_of_isArray_eq_false)

/-- **Where equality and the ranges part.** A missing field equals null and is in no range; two
values of one bracket that are not the same, one of them without an order, are in every range that
includes its end. -/
inductive Discrepant : Option Value → Value → Prop where
  /-- A missing field beside null. -/
  | missing : Discrepant none .null
  /-- Two values that the order does not tell apart. -/
  | unordered {stored operand : Value} (bracket : stored.bracket = operand.bracket)
      (different : same stored operand = false)
      (unordered : stored.hasOrder = false ∨ operand.hasOrder = false) :
      Discrepant (some stored) operand

/-- A value other than an array compares with an operand of its bracket. -/
theorem compare?_of_isArray_eq_false {stored : Value} (h : stored.isArray = false)
    (operand : Value) : compare? (some stored) operand = stored.compareInBracket operand := by
  cases stored <;> first | rfl | cases h

/-- A value that is the same as an operand compares with it as equal. -/
theorem compare?_of_same {stored operand : Value} (harray : stored.isArray = false)
    (h : same stored operand = true) : compare? (some stored) operand = some .eq := by
  have hbracket := Value.bracket_eq_of_same h
  rw [compare?_of_isArray_eq_false harray, Value.compareInBracket, if_pos hbracket,
    Option.some.injEq]
  by_cases horder : stored.hasOrder = true ∧ operand.hasOrder = true
  · exact (Value.order_eq_iff_same horder.1 horder.2 hbracket).mpr h
  · rw [not_and_or, Bool.not_eq_true, Bool.not_eq_true] at horder
    exact Value.order_of_unordered horder harray hbracket

section

variable {stored : Option Value} {operand : Value}
  (harray : ∀ value, stored = some value → value.isArray = false)

include harray

/-- What equals an operand is neither more nor less. -/
theorem eq_of_compare?_of_equals (h : equals stored operand = true) {ordering : Ordering}
    (hcompare : compare? stored operand = some ordering) : ordering = .eq := by
  cases stored with
  | none => cases hcompare
  | some value =>
    rw [equals_of_isArray_eq_false (harray value rfl)] at h
    rw [compare?_of_same (harray value rfl) h, Option.some.injEq] at hcompare
    exact hcompare.symm

/-- **Equality is comparing as equal** unless the two part. -/
theorem equals_eq_iff_not_discrepant :
    equals stored operand = decide (compare? stored operand = some .eq)
      ↔ ¬ Discrepant stored operand := by
  cases stored with
  | none =>
    constructor
    · rintro h ⟨⟩
      cases h
    · intro h
      cases operand <;> first | rfl | exact absurd .missing h
  | some value =>
    have hvalue := harray value rfl
    rw [equals_of_isArray_eq_false hvalue]
    constructor
    · rintro h (_ | ⟨hbracket, hdifferent, hunordered⟩)
      rw [hdifferent, compare?_of_isArray_eq_false hvalue, Value.compareInBracket,
        if_pos hbracket, Value.order_of_unordered hunordered hvalue hbracket] at h
      cases h
    · intro h
      cases hsame : same value operand with
      | true => rw [compare?_of_same hvalue hsame, decide_eq_true rfl]
      | false =>
        refine (decide_eq_false fun hcompare => h ?_).symm
        rw [compare?_of_isArray_eq_false hvalue, Value.compareInBracket] at hcompare
        split at hcompare
        · rename_i hbracket
          refine .unordered hbracket hsame ?_
          -- with an order of their own they would be the same
          by_contra hordered
          rw [not_or, Bool.not_eq_false, Bool.not_eq_false] at hordered
          rw [Option.some.injEq, Value.order_eq_iff_same hordered.1 hordered.2 hbracket,
            hsame] at hcompare
          cases hcompare
        · cases hcompare

end

end FieldTest

/-! ## Queries of one test -/

/-- The query that tests one field. -/
def FieldOperator.query (field : String) (operator : FieldOperator) : Document :=
  [(field, .document operator.compile)]

/-- The query of a test says what the test means. -/
theorem FieldOperator.holds_query [Runtime] {field : String} (hfield : isOperator field = false)
    {operator : FieldOperator} (hpatterns : operator.patterns = []) (doc : Document) :
    Query.holds doc (operator.query field) = .ok (operator.meaning (Entries.get? doc field)) := by
  have hparse : operator.PatternsParse := by
    rw [PatternsParse, hpatterns]
    exact fun _ hmem => absurd hmem List.not_mem_nil
  rw [query, Condition.holds_field hfield, holds_compile hparse]

namespace Query

open FieldTest (Discrepant compare? equals comparesAs)

section

variable {ordering? : Option Ordering} {equal : Bool}
  (h : equal = true → ∀ ordering, ordering? = some ordering → ordering = .eq)

include h

/-- Beside equality that implies comparing as equal, at most one of more, equal and less holds. -/
theorem at_most_one_of_comparison :
    (ordering?.any Ordering.isGT && equal) = false ∧
    (ordering?.any Ordering.isLT && equal) = false ∧
    (ordering?.any Ordering.isGT && ordering?.any Ordering.isLT) = false := by
  cases equal with
  | false =>
    cases ordering? with
    | none => exact ⟨rfl, rfl, rfl⟩
    | some ordering => cases ordering <;> exact ⟨rfl, rfl, rfl⟩
  | true =>
    cases ordering? with
    | none => exact ⟨rfl, rfl, rfl⟩
    | some ordering =>
      rw [h rfl ordering rfl]
      exact ⟨rfl, rfl, rfl⟩

/-- At least is more or equal, and at most is less or equal, just where equality is comparing as
equal. -/
theorem range_eq_iff_of_comparison :
    (ordering?.any Ordering.isGE = (ordering?.any Ordering.isGT || equal)
      ↔ equal = decide (ordering? = some .eq)) ∧
    (ordering?.any Ordering.isLE = (ordering?.any Ordering.isLT || equal)
      ↔ equal = decide (ordering? = some .eq)) := by
  cases equal with
  | false =>
    cases ordering? with
    | none => decide
    | some ordering => cases ordering <;> decide
  | true =>
    cases ordering? with
    | none => decide
    | some ordering =>
      rw [h rfl ordering rfl]
      decide

end

section

variable [Runtime]

/-- **The answers** that a document gives to equality with an operand, to the ranges that the
operand bounds, and to the range from the operand to itself. -/
structure Answers (doc : Document) (field : String) (operand : Value)
    (eq gt gte lt lte between : Bool) : Prop where
  /-- Equal to the operand. -/
  eq : holds doc ((FieldOperator.eq operand).query field) = .ok eq
  /-- More than the operand. -/
  gt : holds doc ((FieldOperator.gt operand).query field) = .ok gt
  /-- At least the operand. -/
  gte : holds doc ((FieldOperator.gte operand).query field) = .ok gte
  /-- Less than the operand. -/
  lt : holds doc ((FieldOperator.lt operand).query field) = .ok lt
  /-- At most the operand. -/
  lte : holds doc ((FieldOperator.lte operand).query field) = .ok lte
  /-- Between the operand and itself. -/
  between : holds doc ((FieldOperator.between operand operand).query field) = .ok between

/-- The answers follow from equality and one comparison. -/
theorem answers_of_compare? {field : String} (hfield : isOperator field = false) (doc : Document)
    (operand : Value) :
    Answers doc field operand (equals (Entries.get? doc field) operand)
      (comparesAs Ordering.isGT (Entries.get? doc field) operand)
      (comparesAs Ordering.isGE (Entries.get? doc field) operand)
      (comparesAs Ordering.isLT (Entries.get? doc field) operand)
      (comparesAs Ordering.isLE (Entries.get? doc field) operand)
      (decide (compare? (Entries.get? doc field) operand = some .eq)) where
  eq := FieldOperator.holds_query hfield rfl doc
  gt := FieldOperator.holds_query hfield rfl doc
  gte := FieldOperator.holds_query hfield rfl doc
  lt := FieldOperator.holds_query hfield rfl doc
  lte := FieldOperator.holds_query hfield rfl doc
  between := by
    rw [FieldOperator.holds_query hfield rfl, FieldOperator.meaning, comparesAs, comparesAs]
    cases compare? (Entries.get? doc field) operand with
    | none => rfl
    | some ordering => cases ordering <;> rfl

/-- Two queries without a fault select the same documents if they accept the same of them. -/
theorem select_eq_select_iff {first second : Document} {docs : List Document}
    (hfirst : Evaluates first docs) (hsecond : Evaluates second docs) :
    select first docs = select second docs
      ↔ ∀ doc ∈ docs, accepts first doc = accepts second doc := by
  rw [Collection.select_of_evaluates hfirst, Collection.select_of_evaluates hsecond,
    Except.ok.injEq]
  refine ⟨fun h doc hmem => ?_, List.filter_congr⟩
  have hiff : doc ∈ docs.filter (accepts first) ↔ doc ∈ docs.filter (accepts second) := by rw [h]
  rw [List.mem_filter, List.mem_filter, and_congr_right_iff] at hiff
  exact Bool.eq_iff_iff.mpr (hiff hmem)

/-- **Ranges agree with equality unless they are discrepant.** Where a field is missing or holds no
array, the tests for equality with an operand and for the ranges that it bounds are never at fault,
and at most one of more, equal and less holds. At least is more or equal, at most is less or equal,
and the range from the operand to itself is equality, each of them if and only if the field and the
operand are not discrepant: a missing field beside null, or two different values of one bracket of
which one has no order. So that range selects the same documents as equality if and only if none of
the documents is discrepant. -/
theorem ranges_agree_unless_discrepant {field : String} (hfield : isOperator field = false)
    (operand : Value) :
    (∀ doc : Document,
      (∀ value, Entries.get? doc field = some value → value.isArray = false) →
      ∃ eq gt gte lt lte between, Answers doc field operand eq gt gte lt lte between ∧
        (gt && eq) = false ∧ (lt && eq) = false ∧ (gt && lt) = false ∧
        (gte = (gt || eq) ↔ ¬ Discrepant (Entries.get? doc field) operand) ∧
        (lte = (lt || eq) ↔ ¬ Discrepant (Entries.get? doc field) operand) ∧
        (between = eq ↔ ¬ Discrepant (Entries.get? doc field) operand)) ∧
    ∀ docs : List Document,
      (∀ doc ∈ docs, ∀ value, Entries.get? doc field = some value → value.isArray = false) →
      (select ((FieldOperator.between operand operand).query field) docs
          = select ((FieldOperator.eq operand).query field) docs
        ↔ ∀ doc ∈ docs, ¬ Discrepant (Entries.get? doc field) operand) := by
  constructor
  · intro doc harray
    have hexclusive : equals (Entries.get? doc field) operand = true →
        ∀ ordering, compare? (Entries.get? doc field) operand = some ordering → ordering = .eq :=
      fun hequals _ => FieldTest.eq_of_compare?_of_equals harray hequals
    obtain ⟨hgt, hlt, hboth⟩ := at_most_one_of_comparison hexclusive
    obtain ⟨hgte, hlte⟩ := range_eq_iff_of_comparison hexclusive
    have hdiscrepant : equals (Entries.get? doc field) operand
        = decide (compare? (Entries.get? doc field) operand = some .eq)
        ↔ ¬ Discrepant (Entries.get? doc field) operand :=
      FieldTest.equals_eq_iff_not_discrepant harray
    exact ⟨_, _, _, _, _, _, answers_of_compare? hfield doc operand, hgt, hlt, hboth,
      hgte.trans hdiscrepant, hlte.trans hdiscrepant, eq_comm.trans hdiscrepant⟩
  · intro docs harray
    have hanswers := fun doc => answers_of_compare? hfield doc operand
    rw [select_eq_select_iff (fun doc _ => ⟨_, (hanswers doc).between⟩)
      fun doc _ => ⟨_, (hanswers doc).eq⟩]
    refine forall₂_congr fun doc hmem => ?_
    rw [accepts_of_holds (hanswers doc).between, accepts_of_holds (hanswers doc).eq, eq_comm]
    exact FieldTest.equals_eq_iff_not_discrepant (harray doc hmem)

end

/-- A document holds 3.0, and another one lacks the field. For the integer 3 the range from it to
itself selects what equals it. For null it does not: the document without the field equals null and
is in no range. Of two documents that hold different documents neither is more than the other, yet
each is at least the other. -/
theorem ranges_agree_unless_discrepant_three :
    ∃ three missing other : Document, three = [("v", .double ⟨4613937818241073152⟩)] ∧
      missing = [] ∧ other = [("v", .document [("a", .int32 2)])] ∧ isOperator "v" = false ∧
      Answers three "v" (.int64 3) true false true false true true ∧
      Answers missing "v" .null true false false false false false ∧
      Answers other "v" (.document [("a", .int32 1)]) false false true false true true ∧
      select ((FieldOperator.between (.int64 3) (.int64 3)).query "v") [three, missing]
        = select ((FieldOperator.eq (.int64 3)).query "v") [three, missing] ∧
      select ((FieldOperator.between .null .null).query "v") [three, missing]
        ≠ select ((FieldOperator.eq .null).query "v") [three, missing] := by
  let three : Document := [("v", .double ⟨4613937818241073152⟩)]
  have hfield : isOperator "v" = false := by decide
  have harray : ∀ doc ∈ [three, []], ∀ value, Entries.get? doc "v" = some value →
      value.isArray = false := by
    intro doc hmem value hvalue
    rcases List.mem_pair.mp hmem with rfl | rfl
    · cases hvalue
      rfl
    · cases hvalue
  have hselect := (ranges_agree_unless_discrepant hfield (.int64 3)).2 _ harray
  have hselectNull := (ranges_agree_unless_discrepant hfield .null).2 _ harray
  refine ⟨three, [], [("v", .document [("a", .int32 2)])], rfl, rfl, rfl, hfield,
    ⟨rfl, rfl, rfl, rfl, rfl, rfl⟩, ⟨rfl, rfl, rfl, rfl, rfl, rfl⟩, ⟨rfl, rfl, rfl, rfl, rfl, rfl⟩,
    hselect.mpr fun doc hmem => ?_, fun hsame => ?_⟩
  · rcases List.mem_pair.mp hmem with rfl | rfl
    · rintro (_ | ⟨-, hdifferent, -⟩)
      cases hdifferent
    · rintro ⟨⟩
  · exact hselectNull.mp hsame [] (by simp) .missing

end Query

end DocStore
