import DocStore.Model.Record
import DocStore.Proofs.Meaning
import DocStore.Proofs.ValueOrder

/-! # Comparing integers

Queries and sorts compare integers as doubles. So they say of two integers what holds of the nearest
doubles (`Query.comparesAs_nearest`), and that is what holds of the integers themselves unless the
two are confused (`Query.comparesAs_iff`): they are different, at least `2 ^ 53` in magnitude and
close to each other, and become one double. Sorting by a field puts its integers in order up to
those that are confused (`Query.integers_compare_unless_confused`). -/

namespace DocStore

open Double (nearest Confused exactBound signPlace)
open FieldCodec (integer?)

namespace Value

variable {left right : Value} {m n : Int}

theorem number?_of_integer? (h : integer? left = some m) :
    left.number? = some (Double.ofInt m) := by
  cases left <;> cases h <;> rfl

/-- The integers of values fit 64 bits. -/
theorem natAbs_le_of_integer? (h : integer? left = some m) : m.natAbs ≤ signPlace := by
  rw [signPlace, Nat.pow_eq]
  cases left with
  | int32 k =>
    cases h
    have hlow := k.minValue_le_toInt
    have hhigh := k.toInt_lt
    simp at hlow
    omega
  | int64 k =>
    cases h
    have hlow := k.minValue_le_toInt
    have hhigh := k.toInt_lt
    simp at hlow
    omega
  | _ => cases h

/-- **The order of two integers** is that of the nearest doubles. -/
theorem order_of_integer? (hleft : integer? left = some m) (hright : integer? right = some n) :
    order left right = compare (nearest m) (nearest n) := by
  rw [order_of_number? (number?_of_integer? hleft) (number?_of_integer? hright), Double.compare?,
    Double.isNaN_ofInt, Double.isNaN_ofInt]
  exact Double.compare_position_ofInt (natAbs_le_of_integer? hleft) (natAbs_le_of_integer? hright)

/-- Two integers are the same to a query if the nearest doubles are. -/
theorem same_of_integer? (hleft : integer? left = some m) (hright : integer? right = some n) :
    FieldTest.same left right = decide (nearest m = nearest n) := by
  have hcompare := Double.compare_position_ofInt (natAbs_le_of_integer? hleft)
    (natAbs_le_of_integer? hright)
  rw [FieldTest.same, number?_of_integer? hleft, number?_of_integer? hright]
  dsimp only
  rw [Double.equals, Double.isNaN_ofInt, Double.isNaN_ofInt, Bool.not_false, Bool.true_and,
    Bool.true_and, Bool.eq_iff_iff, decide_eq_true_iff, decide_eq_true_iff,
    ← compare_eq_iff_eq, hcompare, compare_eq_iff_eq]

end Value

namespace FieldTest

variable {stored operand : Value} {a b : Int}

theorem equals_of_integer? (ha : integer? stored = some a) (hb : integer? operand = some b) :
    equals (some stored) operand = decide (nearest a = nearest b) := by
  rw [← Value.same_of_integer? ha hb]
  cases stored <;> cases ha <;> rfl

theorem compare?_of_integer? (ha : integer? stored = some a) (hb : integer? operand = some b) :
    compare? (some stored) operand = some (compare (nearest a) (nearest b)) := by
  have hbrackets : stored.bracket = operand.bracket :=
    (Value.bracket_of_number? (Value.number?_of_integer? ha)).trans
      (Value.bracket_of_number? (Value.number?_of_integer? hb)).symm
  rw [← Value.order_of_integer? ha hb]
  cases stored <;> cases ha <;> exact if_pos hbrackets

/-- A comparison of two integers accepts what it accepts of the nearest doubles. -/
theorem comparesAs_of_integer? (ha : integer? stored = some a) (hb : integer? operand = some b)
    (accept : Ordering → Bool) :
    comparesAs accept (some stored) operand = accept (compare (nearest a) (nearest b)) := by
  rw [comparesAs, compare?_of_integer? ha hb]
  rfl

/-- Membership in a list of integers is that of the nearest doubles. -/
theorem any_equals_of_integers (ha : integer? stored = some a) {operands : List Value}
    {bs : List Int} (hbs : operands.map integer? = bs.map some) :
    (operands.any fun operand => equals (some stored) operand)
      = bs.any fun b => decide (nearest a = nearest b) := by
  induction operands generalizing bs with
  | nil =>
    cases bs with
    | nil => rfl
    | cons b rest => cases hbs
  | cons operand rest ih =>
    cases bs with
    | nil => cases hbs
    | cons b rest' =>
      rw [List.map_cons, List.map_cons, List.cons.injEq] at hbs
      rw [List.any_cons, List.any_cons, ih hbs.2, equals_of_integer? ha hbs.1]

end FieldTest

namespace Query

/-- Membership of an integer in a list that holds none it is confused with. -/
theorem any_nearest_of_not_confused {a : Int} {bs : List Int} (h : ∀ b ∈ bs, ¬ Confused a b) :
    (bs.any fun b => decide (nearest a = nearest b)) = decide (a ∈ bs) := by
  rw [Bool.eq_iff_iff, List.any_eq_true, decide_eq_true_iff]
  constructor
  · rintro ⟨b, hmem, hsame⟩
    by_contra hnot
    refine h b hmem ⟨?_, of_decide_eq_true hsame⟩
    rintro rfl
    exact hnot hmem
  · exact fun hmem => ⟨a, hmem, decide_eq_true rfl⟩

variable [Runtime]

/-- **A comparison of a field with an operand**: each operator says of a document what holds of two
whole numbers. -/
structure ComparesAs (doc : Document) (field : String) (operand : Value) (left right : Int) :
    Prop where
  /-- They are equal. -/
  eq : holds doc [(field, .document [("$eq", operand)])] = .ok (decide (left = right))
  /-- They are different. -/
  ne : holds doc [(field, .document [("$ne", operand)])] = .ok (decide (left ≠ right))
  /-- The left one is greater. -/
  gt : holds doc [(field, .document [("$gt", operand)])] = .ok (decide (right < left))
  /-- The left one is not less. -/
  gte : holds doc [(field, .document [("$gte", operand)])] = .ok (decide (right ≤ left))
  /-- The left one is less. -/
  lt : holds doc [(field, .document [("$lt", operand)])] = .ok (decide (left < right))
  /-- The left one is not greater. -/
  lte : holds doc [(field, .document [("$lte", operand)])] = .ok (decide (left ≤ right))

/-- A query with one operator tests the field with it. -/
theorem holds_operator {field key : String} (hfield : isOperator field = false)
    (hkey : isOperator key = true) (hnot : key ≠ "$not") (doc : Document) (operand : Value) :
    holds doc [(field, .document [(key, operand)])]
      = FieldTest.testKey key (FieldTest.optionsAmong [(key, operand)]) (Entries.get? doc field)
          operand := by
  rw [Condition.holds_field hfield, FieldTest.holds_single hkey hnot]

section

variable {doc : Document} {field : String} {stored operand : Value} {a b : Int}

/-- An operator that compares accepts what it accepts of the nearest doubles. -/
theorem holds_comparison (hfield : isOperator field = false)
    (hstored : Entries.get? doc field = some stored) (ha : integer? stored = some a)
    (hb : integer? operand = some b) {key : String} {accept : Ordering → Bool}
    (hkey : isOperator key = true) (hnot : key ≠ "$not")
    (htest : ∀ options stored operand, FieldTest.testKey key options stored operand
      = .ok (FieldTest.comparesAs accept stored operand)) :
    holds doc [(field, .document [(key, operand)])]
      = .ok (accept (compare (nearest a) (nearest b))) := by
  rw [holds_operator hfield hkey hnot, htest, hstored, FieldTest.comparesAs_of_integer? ha hb]

/-- **Integers compare as doubles**: every operator says what holds of the nearest doubles. -/
theorem comparesAs_nearest (hfield : isOperator field = false)
    (hstored : Entries.get? doc field = some stored) (ha : integer? stored = some a)
    (hb : integer? operand = some b) :
    ComparesAs doc field operand (nearest a) (nearest b) where
  eq := by
    rw [holds_operator hfield rfl (by decide), hstored, ← FieldTest.equals_of_integer? ha hb]
    rfl
  ne := by
    rw [holds_operator hfield rfl (by decide), hstored, decide_not,
      ← FieldTest.equals_of_integer? ha hb]
    rfl
  gt := by
    rw [holds_comparison hfield hstored ha hb rfl (by decide) fun _ _ _ => rfl, Except.ok.injEq,
      Bool.eq_iff_iff, decide_eq_true_iff, Ordering.isGT_iff_eq_gt, compare_gt_iff_gt]
  gte := by
    rw [holds_comparison hfield hstored ha hb rfl (by decide) fun _ _ _ => rfl, Except.ok.injEq,
      Bool.eq_iff_iff, decide_eq_true_iff, Std.isGE_compare]
  lt := by
    rw [holds_comparison hfield hstored ha hb rfl (by decide) fun _ _ _ => rfl, Except.ok.injEq,
      Bool.eq_iff_iff, decide_eq_true_iff, Ordering.isLT_iff_eq_lt, compare_lt_iff_lt]
  lte := by
    rw [holds_comparison hfield hstored ha hb rfl (by decide) fun _ _ _ => rfl, Except.ok.injEq,
      Bool.eq_iff_iff, decide_eq_true_iff, Std.isLE_compare]

/-- **Integers compare exactly** if and only if they are not confused. -/
theorem comparesAs_iff (hfield : isOperator field = false)
    (hstored : Entries.get? doc field = some stored) (ha : integer? stored = some a)
    (hb : integer? operand = some b) :
    ComparesAs doc field operand a b ↔ ¬ Confused a b := by
  have hnearest := comparesAs_nearest hfield hstored ha hb
  constructor
  · rintro hexact ⟨hne, hsame⟩
    -- equality alone gives a confused pair away
    have heq := hexact.eq.symm.trans hnearest.eq
    rw [hsame, Except.ok.injEq, decide_eq_false hne, decide_eq_true rfl] at heq
    cases heq
  · intro h
    have hsymm : ¬ Confused b a := fun hconfused => h hconfused.symm
    have heq : nearest a = nearest b ↔ a = b :=
      ⟨fun hsame => by_contra fun hne => h ⟨hne, hsame⟩, congrArg nearest⟩
    obtain ⟨heq', hne', hgt', hge', hlt', hle'⟩ := hnearest
    simp only [heq, ne_eq] at heq' hne'
    simp only [Double.nearest_lt_iff h, Double.nearest_lt_iff hsymm] at hlt' hgt'
    simp only [Double.nearest_le_iff h, Double.nearest_le_iff hsymm] at hle' hge'
    exact ⟨heq', hne', hgt', hge', hlt', hle'⟩

end

end Query

namespace Sorting

/-- Whether two whole numbers are in the order of a direction. -/
def InOrder (direction : Value) (left right : Int) : Prop :=
  if isDescending direction then right ≤ left else left ≤ right

variable {docs : List Document} {field : String} {whole : Document → Int}

/-- Integers do not blur the order. -/
theorem not_blurs_of_integers
    (h : ∀ doc ∈ docs, ∃ stored, Entries.get? doc field = some stored ∧
      integer? stored = some (whole doc)) : ¬ Value.Blurs (Held docs field) := by
  have hheld : ∀ leaf, Held docs field leaf → ∃ n, integer? leaf = some n := by
    rintro leaf ⟨doc, hmem, value, hvalue, hleaf⟩
    obtain ⟨stored, hstored, hwhole⟩ := h doc hmem
    rw [hstored, Option.some.injEq] at hvalue
    subst hvalue
    rw [Value.leaves_of_number? (Value.number?_of_integer? hwhole), List.mem_singleton] at hleaf
    exact ⟨whole doc, hleaf ▸ hwhole⟩
  rintro (⟨nan, -, -, hnan, -⟩ | ⟨symbol, -, -, hsymbol, -⟩)
  · obtain ⟨n, hn⟩ := hheld _ hnan
    cases hn
  · obtain ⟨n, hn⟩ := hheld _ hsymbol
    cases hn

variable [Runtime]

/-- **Sorting by integers** puts documents in the order of the nearest doubles. -/
theorem pairwise_sort_of_integers
    (h : ∀ doc ∈ docs, ∃ stored, Entries.get? doc field = some stored ∧
      integer? stored = some (whole doc)) (direction : Value) :
    (sort [(field, direction)] docs).Pairwise fun earlier later =>
      InOrder direction (nearest (whole earlier)) (nearest (whole later)) := by
  have hsorted : (sort [(field, direction)] docs).Pairwise fun earlier later =>
      (compareDocuments earlier later [(field, direction)]).isLE = true := by
    refine pairwise_sort fun name hmem => ?_
    rw [List.mem_singleton.mp hmem]
    exact isTransitiveOn_of_held (not_blurs_of_integers h)
  refine hsorted.imp_of_mem fun {earlier later} hearlier hlater hle => ?_
  obtain ⟨left, hleft, hwhole⟩ := h earlier ((sort_perm _ docs).mem_iff.mp hearlier)
  obtain ⟨right, hright, hwhole'⟩ := h later ((sort_perm _ docs).mem_iff.mp hlater)
  have horder : Value.orderStored (Entries.get? earlier field) (Entries.get? later field)
      = compare (nearest (whole earlier)) (nearest (whole later)) := by
    rw [hleft, hright]
    exact Value.order_of_integer? hwhole hwhole'
  rw [compareDocuments, horder, compareDocuments, Ordering.then_eq] at hle
  rw [InOrder]
  split
  · rename_i hdescending
    rwa [if_pos hdescending, ← Std.OrientedCmp.eq_swap, Std.isLE_compare] at hle
  · rename_i hascending
    rwa [if_neg hascending, Std.isLE_compare] at hle

end Sorting

/-- **Integers are compared exactly unless they are confused.** Where a document holds an integer in
a field and the operand of a query is an integer, each of 32 or 64 bits, the operators say what
holds of the nearest doubles, and that is what holds of the integers if and only if these are not
confused. The same goes for lists of integers. Confused integers are at least `2 ^ 53` in magnitude
and at most `1024` apart. Sorting by the field, in either direction, puts documents that hold
integers there in the order of these, save for two that are confused. -/
theorem Query.integers_compare_unless_confused [Runtime] {field : String}
    (hfield : isOperator field = false) :
    (∀ (doc : Document) (stored operand : Value) (a b : Int),
      Entries.get? doc field = some stored → integer? stored = some a →
      integer? operand = some b →
      ComparesAs doc field operand (nearest a) (nearest b) ∧
      (ComparesAs doc field operand a b ↔ ¬ Confused a b) ∧
      (Confused a b →
        exactBound ≤ a.natAbs ∧ exactBound ≤ b.natAbs ∧ (a - b).natAbs ≤ 1024)) ∧
    (∀ (doc : Document) (stored : Value) (operands : List Value) (a : Int) (bs : List Int),
      Entries.get? doc field = some stored → integer? stored = some a →
      operands.map integer? = bs.map some →
      let found := bs.any fun b => decide (nearest a = nearest b)
      holds doc [(field, .document [("$in", .array operands)])] = .ok found ∧
      holds doc [(field, .document [("$nin", .array operands)])] = .ok !found ∧
      ((∀ b ∈ bs, ¬ Confused a b) → found = decide (a ∈ bs))) ∧
    ∀ (docs : List Document) (whole : Document → Int) (direction : Value),
      (∀ doc ∈ docs, ∃ stored, Entries.get? doc field = some stored ∧
        integer? stored = some (whole doc)) →
      let sorted := Sorting.sort [(field, direction)] docs
      sorted.Perm docs ∧
      sorted.Pairwise fun earlier later =>
        Sorting.InOrder direction (nearest (whole earlier)) (nearest (whole later)) ∧
        (¬ Confused (whole earlier) (whole later) →
          Sorting.InOrder direction (whole earlier) (whole later)) := by
  refine ⟨fun doc stored operand a b hstored ha hb =>
      ⟨comparesAs_nearest hfield hstored ha hb, comparesAs_iff hfield hstored ha hb, fun h => ?_⟩,
    fun doc stored operands a bs hstored ha hbs => ⟨?_, ?_, any_nearest_of_not_confused⟩,
    fun docs whole direction h => ⟨Sorting.sort_perm _ docs, ?_⟩⟩
  · exact ⟨h.exactBound_le_left, h.symm.exactBound_le_left,
      h.close (Value.natAbs_le_of_integer? ha) (Value.natAbs_le_of_integer? hb)⟩
  · rw [holds_operator hfield rfl (by decide), hstored,
      ← FieldTest.any_equals_of_integers ha hbs]
    rfl
  · rw [holds_operator hfield rfl (by decide), hstored,
      ← FieldTest.any_equals_of_integers ha hbs]
    rfl
  · refine (Sorting.pairwise_sort_of_integers h direction).imp fun {earlier later} hnearest =>
      ⟨hnearest, fun hnot => ?_⟩
    rwa [Sorting.InOrder, Double.nearest_le_iff hnot,
      Double.nearest_le_iff fun hconfused => hnot hconfused.symm] at hnearest

/-- A document holds `2 ^ 53 + 1`. A query for `2 ^ 53` matches it, with which that is confused, and
one for more than `2 ^ 53` does not; with 1 it is compared exactly. Sorting leaves it in front of a
document that holds `2 ^ 53`, and puts it behind one that holds 1. -/
theorem Query.integers_compare_unless_confused_large :
    ∃ large close small : Document, large = [("v", .int64 9007199254740993)] ∧
      close = [("v", .int64 9007199254740992)] ∧ small = [("v", .int32 1)] ∧
      isOperator "v" = false ∧ Confused 9007199254740993 9007199254740992 ∧
      holds large [("v", .document [("$eq", .int64 9007199254740992)])] = .ok true ∧
      holds large [("v", .document [("$gt", .int64 9007199254740992)])] = .ok false ∧
      holds large [("v", .document [("$in", .array [.int32 1, .int64 9007199254740992])])]
        = .ok true ∧
      ComparesAs large "v" (.int32 1) 9007199254740993 1 ∧
      Sorting.sort [("v", .int32 1)] [large, close, small] = [small, large, close] ∧
      (Sorting.sort [("v", .int32 1)] [large, close, small]).Pairwise fun earlier later =>
        Sorting.InOrder (.int32 1)
          (nearest (((Entries.get? earlier "v").bind integer?).getD 0))
          (nearest (((Entries.get? later "v").bind integer?).getD 0)) := by
  let large : Document := [("v", .int64 9007199254740993)]
  let close : Document := [("v", .int64 9007199254740992)]
  let small : Document := [("v", .int32 1)]
  have hfield : isOperator "v" = false := by decide
  have hconfused : Confused 9007199254740993 9007199254740992 := by decide
  have hexact : ¬ Confused 9007199254740993 1 := by decide
  obtain ⟨hcompare, hlist, hsort⟩ := integers_compare_unless_confused hfield
  have hlarge := (hcompare large (.int64 9007199254740993) (.int64 9007199254740992)
    9007199254740993 9007199254740992 rfl rfl rfl).1
  have hsmall := (hcompare large (.int64 9007199254740993) (.int32 1) 9007199254740993 1
    rfl rfl rfl).2.1.mpr hexact
  have hin := (hlist large (.int64 9007199254740993) [.int32 1, .int64 9007199254740992]
    9007199254740993 [1, 9007199254740992] rfl rfl rfl).1
  have hsorted := (hsort [large, close, small]
    (fun doc => ((Entries.get? doc "v").bind integer?).getD 0) (.int32 1) fun doc hmem => by
      simp only [List.mem_cons, List.not_mem_nil, or_false] at hmem
      rcases hmem with rfl | rfl | rfl <;> exact ⟨_, rfl, rfl⟩).2
  exact ⟨large, close, small, rfl, rfl, rfl, hfield, hconfused, hlarge.eq, hlarge.gt, hin, hsmall,
    rfl, hsorted.imp fun h => h.1⟩

end DocStore
