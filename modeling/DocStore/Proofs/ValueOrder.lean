import DocStore.Proofs.Doubles
import DocStore.Proofs.StableSort

/-! # Where the order of values is a preorder

The order of values is turned round with them and counts every value as equal to itself. It is not
transitive on all values: a NaN counts as equal to every number and a symbol to every string, while
the numbers and the strings themselves differ (`Value.Blurs`). On values that do not blur it, the
order is that of keys (`Value.order_eq_of_placement`): the bracket, a whole number, a string, and
the items of an array. Keys compare transitively, and so do arrays of what compares transitively
(`Value.isTransitiveOn_within`). So whatever a store sorts, the order is transitive exactly where
nothing blurs it (`Sorting.transitive_iff_not_blurs`). -/

namespace DocStore

namespace Value

/-! ## What values are made of -/

mutual

/-- The **leaves** of a value: those of the items of an array, and any other value itself. -/
def leaves : Value → List Value
  | .array items => leavesOfItems items
  | value => [value]
termination_by structural value => value

/-- The leaves of the items of an array. -/
def leavesOfItems : List Value → List Value
  | [] => []
  | item :: rest => leaves item ++ leavesOfItems rest
termination_by structural items => items

end

/-- The items of an array; any other value has none. -/
def items : Value → List Value
  | .array items => items
  | _ => []

/-- Whether all leaves of a value are among some values. -/
def Within (values : Value → Prop) (value : Value) : Prop := ∀ leaf ∈ value.leaves, values leaf

/-- **Some values blur the order**: with a NaN, which counts as equal to every number, there are two
numbers of which one is less, or with a symbol, which counts as equal to every string, there are two
strings. -/
def Blurs (values : Value → Prop) : Prop :=
  (∃ nan less more, values (.double nan) ∧ nan.isNaN = true ∧ values less ∧ values more ∧
    orderNumbers less more = .lt) ∨
  ∃ symbol first second, values (.symbol symbol) ∧ values (.string first) ∧
    values (.string second) ∧ first ≠ second

theorem mem_leavesOfItems {leaf : Value} {items : List Value} :
    leaf ∈ leavesOfItems items ↔ ∃ item ∈ items, leaf ∈ item.leaves := by
  induction items with
  | nil => simp [leavesOfItems]
  | cons item rest ih => rw [leavesOfItems, List.mem_append, ih, List.exists_mem_cons_iff]

theorem within_array_iff {values : Value → Prop} {items : List Value} :
    Within values (.array items) ↔ ∀ item ∈ items, Within values item := by
  simp only [Within, leaves, mem_leavesOfItems]
  exact ⟨fun h item hitem leaf hleaf => h leaf ⟨item, hitem, hleaf⟩,
    fun h leaf ⟨item, hitem, hleaf⟩ => h item hitem leaf hleaf⟩

/-- The items of a value are made of the same leaves. -/
theorem Within.items {values : Value → Prop} {value : Value} (h : Within values value) :
    ∀ item ∈ value.items, Within values item := by
  cases value with
  | array items => exact within_array_iff.mp h
  | _ => exact fun item hitem => absurd hitem List.not_mem_nil

/-- The items of a value are smaller than the value. -/
theorem sizeOf_lt_of_mem_items {value item : Value} (h : item ∈ value.items) :
    sizeOf item < sizeOf value := by
  cases value with
  | array items =>
    have := List.sizeOf_lt_of_mem (show item ∈ items from h)
    rw [array.sizeOf_spec]
    omega
  | _ => exact absurd h List.not_mem_nil

/-! ## The order by keys -/

/-- Where a value stands among the values of its type that are ordered as whole numbers. -/
def place (numbers : Double → Int) : Value → Int
  | .objectId id => id.value.toNat
  | .bool b => b.toNat
  | .dateTime t => t.millis.toInt
  | value => (value.number?.map numbers).getD 0

/-- Where a value stands among the strings. -/
def wording (strings : String → String) : Value → String
  | .string s => strings s
  | _ => ""

/-- **A placement** of some values: numbers are placed among the whole numbers and strings among the
strings as the order has them, and every symbol with all strings. -/
structure Placement (values : Value → Prop) (numbers : Double → Int) (strings : String → String) :
    Prop where
  /-- Numbers are in the order of their places. -/
  ofNumbers : ∀ left right x y, values left → values right → left.number? = some x →
    right.number? = some y → orderNumbers left right = compare (numbers x) (numbers y)
  /-- Strings are in the order of their places. -/
  ofStrings : ∀ first second, values (.string first) → values (.string second) →
    compare first second = compare (strings first) (strings second)
  /-- A symbol has the place of every string. -/
  ofSymbols : ∀ symbol text, values (.symbol symbol) → values (.string text) → strings text = ""

/-- Numbers can be placed if they do not blur the order. -/
theorem exists_numbers_of_not_blurs {values : Value → Prop} (h : ¬ Blurs values) :
    ∃ numbers : Double → Int, ∀ left right x y, values left → values right →
      left.number? = some x → right.number? = some y →
      orderNumbers left right = compare (numbers x) (numbers y) := by
  by_cases hnan : ∃ nan, values (.double nan) ∧ nan.isNaN = true
  · -- beside a NaN all numbers are equal
    obtain ⟨nan, hvalue, hisNaN⟩ := hnan
    refine ⟨fun _ => 0, fun left right x y hleft hright _ _ => ?_⟩
    cases horder : orderNumbers left right with
    | eq => rfl
    | lt => exact absurd (Or.inl ⟨nan, left, right, hvalue, hisNaN, hleft, hright, horder⟩) h
    | gt =>
      have hswap : orderNumbers right left = .lt := by
        rw [orderNumbers_swap, horder]
        rfl
      exact absurd (Or.inl ⟨nan, right, left, hvalue, hisNaN, hright, hleft, hswap⟩) h
  · have hnumber : ∀ value x, values value → value.number? = some x → x.isNaN = false := by
      intro value x hvalue hx
      cases value with
      | int32 n => cases hx; exact Double.isNaN_ofInt _
      | int64 n => cases hx; exact Double.isNaN_ofInt _
      | double y => cases hx; exact Bool.eq_false_iff.mpr fun hisNaN => hnan ⟨x, hvalue, hisNaN⟩
      | _ => cases hx
    refine ⟨Double.position, fun left right x y hleft hright hx hy => ?_⟩
    rw [orderNumbers, hx, hy]
    dsimp only
    rw [Double.compare?, hnumber left x hleft hx, hnumber right y hright hy]
    rfl

/-- Strings can be placed if they do not blur the order. -/
theorem exists_strings_of_not_blurs {values : Value → Prop} (h : ¬ Blurs values) :
    ∃ strings : String → String,
      (∀ first second, values (.string first) → values (.string second) →
        compare first second = compare (strings first) (strings second)) ∧
      ∀ symbol text, values (.symbol symbol) → values (.string text) → strings text = "" := by
  by_cases hsymbol : ∃ symbol, values (.symbol symbol)
  · -- beside a symbol there is one string only
    obtain ⟨symbol, hvalue⟩ := hsymbol
    refine ⟨fun _ => "", fun first second hfirst hsecond => ?_, fun _ _ _ _ => rfl⟩
    by_cases heq : first = second
    · rw [heq]
      exact Std.ReflCmp.compare_self.trans Std.ReflCmp.compare_self.symm
    · exact absurd (Or.inr ⟨symbol, first, second, hvalue, hfirst, hsecond, heq⟩) h
  · exact ⟨id, fun _ _ _ _ => rfl, fun symbol _ hvalue _ => absurd ⟨symbol, hvalue⟩ hsymbol⟩

theorem exists_placement {values : Value → Prop} (h : ¬ Blurs values) :
    ∃ numbers strings, Placement values numbers strings := by
  obtain ⟨numbers, hnumbers⟩ := exists_numbers_of_not_blurs h
  obtain ⟨strings, hstrings, hsymbols⟩ := exists_strings_of_not_blurs h
  exact ⟨numbers, strings, hnumbers, hstrings, hsymbols⟩

/-- What decides between two values of one bracket, given the places of numbers and strings. -/
def orderKeys (numbers : Double → Int) (strings : String → String) (left right : Value) :
    Ordering :=
  (compare (left.place numbers) (right.place numbers)).then
    ((compare (left.wording strings) (right.wording strings)).then
      (orderItems left.items right.items))

theorem compare_natCast (m n : Nat) : compare (m : Int) n = compare m n := by
  simp only [compare, compareOfLessAndEq, Int.ofNat_lt, Int.natCast_inj]

section

variable {values : Value → Prop} {numbers : Double → Int} {strings : String → String}

/-- Two numbers are in the order of their keys. -/
theorem Placement.orderNumbers_eq (h : Placement values numbers strings) {left right : Value}
    {x y : Double} (hleft : values left) (hright : values right) (hx : left.number? = some x)
    (hy : right.number? = some y) :
    orderNumbers left right = orderKeys numbers strings left right := by
  have hkeys : ∀ (value : Value) (z : Double), value.number? = some z →
      value.place numbers = numbers z ∧ value.wording strings = "" ∧ value.items = [] := by
    intro value z hz
    cases value <;> cases hz <;> exact ⟨rfl, rfl, rfl⟩
  obtain ⟨hplace, hwording, hitems⟩ := hkeys left x hx
  obtain ⟨hplace', hwording', hitems'⟩ := hkeys right y hy
  rw [orderKeys, hplace, hplace', hwording, hwording', hitems, hitems',
    h.ofNumbers left right x y hleft hright hx hy]
  exact Ordering.then_eq.symm

/-- **The order of values is that of their keys**: the bracket, the places of numbers and strings,
and the items of arrays. -/
theorem order_eq_of_placement (h : Placement values numbers strings) {left right : Value}
    (hleft : Within values left) (hright : Within values right) :
    order left right
      = (compare left.bracket right.bracket).then (orderKeys numbers strings left right) := by
  -- values of different brackets compare by computation
  cases left with
  | int32 _ | int64 _ | double _ =>
    cases right with
    | int32 _ | int64 _ | double _ =>
      exact h.orderNumbers_eq (hleft _ List.mem_cons_self) (hright _ List.mem_cons_self) rfl rfl
    | _ => rfl
  | string a =>
    cases right with
    | string b =>
      rw [order, h.ofStrings a b (hleft _ List.mem_cons_self) (hright _ List.mem_cons_self)]
      exact Ordering.then_eq.symm
    | symbol b =>
      have hwording : wording strings (.string a) = "" :=
        h.ofSymbols b a (hright _ List.mem_cons_self) (hleft _ List.mem_cons_self)
      rw [orderKeys, hwording]
      rfl
    | _ => rfl
  | symbol a =>
    cases right with
    | string b =>
      have hwording : wording strings (.string b) = "" :=
        h.ofSymbols a b (hleft _ List.mem_cons_self) (hright _ List.mem_cons_self)
      rw [orderKeys, hwording]
      rfl
    | _ => rfl
  | objectId a =>
    cases right with
    | objectId b => exact (compare_natCast _ _).symm.trans Ordering.then_eq.symm
    | _ => rfl
  | bool a =>
    cases right with
    | bool b => exact (compare_natCast _ _).symm.trans Ordering.then_eq.symm
    | _ => rfl
  | dateTime a =>
    cases right with
    | dateTime b => exact Ordering.then_eq.symm
    | _ => rfl
  | _ => cases right <;> rfl

end

/-! ## Transitivity -/

/-- Arrays are in the lexicographic order of their items. -/
theorem orderItems_map_val {values : Value → Prop} (items items' : List {value // values value}) :
    orderItems (items.map Subtype.val) (items'.map Subtype.val)
      = List.compareLex (fun left right => order left.1 right.1) items items' := by
  induction items generalizing items' with
  | nil => cases items' <;> rfl
  | cons item rest ih =>
    cases items' with
    | nil => rfl
    | cons item' rest' =>
      rw [List.map_cons, List.map_cons, orderItems, ih, List.compareLex_cons_cons]

/-- Where the order is transitive on some values, so it is on lists of them. -/
theorem isLE_orderItems_trans {values : Value → Prop} (h : IsTransitiveOn values)
    {first second third : List Value} (hfirst : ∀ item ∈ first, values item)
    (hsecond : ∀ item ∈ second, values item) (hthird : ∀ item ∈ third, values item)
    (hle : (orderItems first second).isLE = true) (hle' : (orderItems second third).isLE = true) :
    (orderItems first third).isLE = true := by
  have hitems : Std.TransCmp fun left right : {value // values value} => order left.1 right.1 :=
    { eq_swap := order_swap _ _
      isLE_trans := fun {a b c} => h a.1 b.1 c.1 a.2 b.2 c.2 }
  rw [← List.attachWith_map_subtype_val hfirst, ← List.attachWith_map_subtype_val hsecond,
    orderItems_map_val] at hle
  rw [← List.attachWith_map_subtype_val hsecond, ← List.attachWith_map_subtype_val hthird,
    orderItems_map_val] at hle'
  rw [← List.attachWith_map_subtype_val hfirst, ← List.attachWith_map_subtype_val hthird,
    orderItems_map_val]
  exact Std.TransCmp.isLE_trans hle hle'

/-- Keys compare transitively where the items of arrays do. -/
theorem isTransitiveOn_of_items {values members : Value → Prop} (h : ¬ Blurs values)
    (hwithin : ∀ value, members value → Within values value)
    (hitems : IsTransitiveOn fun item => ∃ value, members value ∧ item ∈ value.items) :
    IsTransitiveOn members := by
  obtain ⟨numbers, strings, hplacement⟩ := exists_placement h
  have harrays : Std.TransCmp fun left right : {value // members value} =>
      orderItems left.1.items right.1.items :=
    { eq_swap := orderItems_swap _ _
      isLE_trans := fun {a b c} => isLE_orderItems_trans hitems
        (fun item hitem => ⟨a.1, a.2, hitem⟩) (fun item hitem => ⟨b.1, b.2, hitem⟩)
        fun item hitem => ⟨c.1, c.2, hitem⟩ }
  -- one key after the other is the lexicographic order of the library
  have hkeys : Std.TransCmp (compareLex
      (compareOn fun value : {value // members value} => value.1.bracket)
      (compareLex (compareOn fun value => value.1.place numbers)
        (compareLex (compareOn fun value => value.1.wording strings)
          fun left right => orderItems left.1.items right.1.items))) := inferInstance
  intro first second third hfirst hsecond hthird
  rw [order_eq_of_placement hplacement (hwithin first hfirst) (hwithin second hsecond),
    order_eq_of_placement hplacement (hwithin second hsecond) (hwithin third hthird),
    order_eq_of_placement hplacement (hwithin first hfirst) (hwithin third hthird)]
  exact hkeys.isLE_trans (a := ⟨first, hfirst⟩) (b := ⟨second, hsecond⟩) (c := ⟨third, hthird⟩)

/-- **The order is transitive** on what is made of values that do not blur it. -/
theorem isTransitiveOn_within {values : Value → Prop} (h : ¬ Blurs values) :
    IsTransitiveOn (Within values) := by
  -- by induction on the size: the items of arrays are smaller than the arrays
  have hsize : ∀ size, IsTransitiveOn fun value => Within values value ∧ sizeOf value < size := by
    intro size
    induction size with
    | zero => exact fun first _ _ hfirst => absurd hfirst.2 (Nat.not_lt_zero _)
    | succ size ih =>
      refine isTransitiveOn_of_items h (fun value hvalue => hvalue.1) (ih.mono ?_)
      rintro item ⟨value, ⟨hwithin, hlt⟩, hitem⟩
      have hsmaller := sizeOf_lt_of_mem_items hitem
      exact ⟨hwithin.items item hitem, by omega⟩
  intro first second third hfirst hsecond hthird
  refine hsize (sizeOf first + sizeOf second + sizeOf third + 1) first second third ?_ ?_ ?_
  · exact ⟨hfirst, by omega⟩
  · exact ⟨hsecond, by omega⟩
  · exact ⟨hthird, by omega⟩

/-! ## What blurs the order -/

/-- A number is its only leaf. -/
theorem leaves_of_number? {value : Value} {x : Double} (h : value.number? = some x) :
    value.leaves = [value] := by
  cases value <;> cases h <;> rfl

theorem within_of_number? {values : Value → Prop} {value : Value} {x : Double}
    (h : value.number? = some x) (hvalue : values value) : Within values value := by
  rw [Within, leaves_of_number? h]
  exact List.forall_mem_singleton.mpr hvalue

/-- Numbers have one bracket. -/
theorem bracket_of_number? {value : Value} {x : Double} (h : value.number? = some x) :
    value.bracket = 1 := by
  cases value <;> cases h <;> rfl

/-- Two numbers are ordered as numbers. -/
theorem order_of_number? {left right : Value} {x y : Double} (hx : left.number? = some x)
    (hy : right.number? = some y) : order left right = (x.compare? y).getD .eq := by
  cases left <;> cases hx <;> cases right <;> cases hy <;> rfl

/-- Of two values of which one is the lesser number, both are numbers. -/
theorem exists_numbers_of_orderNumbers_eq_lt {left right : Value}
    (h : orderNumbers left right = .lt) :
    ∃ x y, left.number? = some x ∧ right.number? = some y := by
  rw [orderNumbers] at h
  split at h
  · rename_i x y hx hy
    exact ⟨x, y, hx, hy⟩
  · cases h

theorem not_isTransitiveOn_of_blurs {values : Value → Prop} (h : Blurs values) :
    ¬ IsTransitiveOn (Within values) := by
  intro htransitive
  rcases h with ⟨nan, less, more, hvalue, hnan, hless, hmore, hlt⟩ |
    ⟨symbol, first, second, hsymbol, hfirst, hsecond, hne⟩
  · -- the greater number counts as equal to the NaN, and the NaN to the lesser one
    obtain ⟨x, y, hx, hy⟩ := exists_numbers_of_orderNumbers_eq_lt hlt
    have hle : (order more (.double nan)).isLE = true := by
      rw [order_of_number? hy rfl, Double.compare?, hnan, Bool.or_true]
      rfl
    have hle' : (order (.double nan) less).isLE = true := by
      rw [order_of_number? rfl hx, Double.compare?, hnan, Bool.true_or]
      rfl
    have hgt := htransitive _ _ _ (within_of_number? hy hmore)
      (within_of_number? rfl hvalue) (within_of_number? hx hless) hle hle'
    have horder : order less more = .lt := by
      rw [orderNumbers, hx, hy] at hlt
      rw [order_of_number? hx hy]
      exact hlt
    rw [order_swap, horder] at hgt
    cases hgt
  · -- each string counts as equal to the symbol, so each would be at most the other
    have hwithin : Within values (.symbol symbol) := List.forall_mem_singleton.mpr hsymbol
    have hle : ∀ text text', values (.string text) → values (.string text') →
        (compare text text').isLE = true := fun text text' htext htext' =>
      htransitive (.string text) (.symbol symbol) (.string text')
        (List.forall_mem_singleton.mpr htext) hwithin (List.forall_mem_singleton.mpr htext') rfl rfl
    exact hne (Std.LawfulEqCmp.eq_of_compare (Std.OrientedCmp.isLE_antisymm
      (hle first second hfirst hsecond) (hle second first hsecond hfirst)))

instance : Std.OrientedCmp order where
  eq_swap := order_swap _ _

/-- What a field holds is equal to itself, also if that is nothing. -/
theorem orderStored_self (stored : Option Value) : orderStored stored stored = .eq := by
  rw [orderStored]
  exact Std.ReflCmp.compare_self

end Value

namespace Sorting

open Value (Blurs Within orderStored)

/-- The leaves of what documents hold in a field. -/
def Held (docs : List Document) (field : String) (leaf : Value) : Prop :=
  ∃ doc ∈ docs, ∃ value, Entries.get? doc field = some value ∧ leaf ∈ value.leaves

/-- A document is equal to itself in every order. -/
theorem compareDocuments_self (doc spec : Document) : compareDocuments doc doc spec = .eq := by
  induction spec with
  | nil => rfl
  | cons entry rest ih =>
    rw [compareDocuments, Value.orderStored_self, ih]
    split <;> rfl

/-- The order of values is transitive on what documents hold in a field if that does not blur it. -/
theorem isTransitiveOn_of_held {docs : List Document} {field : String}
    (h : ¬ Blurs (Held docs field)) :
    Value.IsTransitiveOn fun value => ∃ doc ∈ docs, Entries.get? doc field = some value :=
  (Value.isTransitiveOn_within h).mono fun value ⟨doc, hmem, hvalue⟩ _ hleaf =>
    ⟨doc, hmem, value, hvalue, hleaf⟩

/-- **The order of values and of documents.** On all values, missing ones and arrays of any depth
included, the order is turned round with the values and counts each as equal to itself, and so does
every sort specification on documents. It is transitive on what is made of some values if and only
if these do not blur it: there is no NaN beside two different numbers and no symbol beside two
different strings. Where the fields of a sort specification hold no values that blur the order, the
specification is transitive on the documents, and a sort puts them in its order. -/
theorem transitive_iff_not_blurs [Runtime] (values : Value → Prop) (spec : Document) :
    (∀ left right, orderStored right left = (orderStored left right).swap) ∧
    (∀ stored, orderStored stored stored = .eq) ∧
    ((∀ first second third : Option Value, (∀ value ∈ first, Within values value) →
      (∀ value ∈ second, Within values value) → (∀ value ∈ third, Within values value) →
      (orderStored first second).isLE = true → (orderStored second third).isLE = true →
      (orderStored first third).isLE = true) ↔ ¬ Blurs values) ∧
    (∀ left right, compareDocuments right left spec = (compareDocuments left right spec).swap) ∧
    (∀ doc, compareDocuments doc doc spec = .eq) ∧
    ∀ docs, (∀ field ∈ Entries.keys spec, ¬ Blurs (Held docs field)) →
      (∀ first ∈ docs, ∀ second ∈ docs, ∀ third ∈ docs,
        (compareDocuments first second spec).isLE = true →
        (compareDocuments second third spec).isLE = true →
        (compareDocuments first third spec).isLE = true) ∧
      (sort spec docs).Perm docs ∧
      (sort spec docs).Pairwise
        fun earlier later => (compareDocuments earlier later spec).isLE = true := by
  refine ⟨fun left right => Value.order_swap _ _, Value.orderStored_self,
    ⟨fun htransitive hblurs => ?_, fun h first second third => ?_⟩,
    fun left right => compareDocuments_swap left right spec,
    fun doc => compareDocuments_self doc spec, fun docs hdocs => ?_⟩
  · -- what holds of stored values holds of values
    refine Value.not_isTransitiveOn_of_blurs hblurs
      fun first second third hfirst hsecond hthird =>
        htransitive (some first) (some second) (some third) ?_ ?_ ?_
    · rintro _ ⟨⟩; exact hfirst
    · rintro _ ⟨⟩; exact hsecond
    · rintro _ ⟨⟩; exact hthird
  · exact (Value.isTransitiveOn_within h).orderStored
  · have htransitive := fun field hmem => isTransitiveOn_of_held (hdocs field hmem)
    exact ⟨fun first hfirst second hsecond third hthird =>
        (preorderOn_compareDocuments htransitive).trans ⟨first, hfirst⟩ ⟨second, hsecond⟩
          ⟨third, hthird⟩,
      sort_perm spec docs, pairwise_sort htransitive⟩

/-- A NaN between two numbers: the documents stay as they are, with 2 before 1, and the order is not
transitive on what they hold. Without the NaN they are put in order. -/
theorem transitive_iff_not_blurs_nan :
    ∃ (nan : Double) (first second third : Document), nan.isNaN = true ∧
      first = [("v", .int32 2)] ∧ second = [("v", .double nan)] ∧ third = [("v", .int32 1)] ∧
      sort [("v", .int32 1)] [first, second, third] = [first, second, third] ∧
      compareDocuments third first [("v", .int32 1)] = .lt ∧
      (¬ ∀ left middle right : Option Value,
        (∀ value ∈ left, Within (Held [first, second, third] "v") value) →
        (∀ value ∈ middle, Within (Held [first, second, third] "v") value) →
        (∀ value ∈ right, Within (Held [first, second, third] "v") value) →
        (orderStored left middle).isLE = true → (orderStored middle right).isLE = true →
        (orderStored left right).isLE = true) ∧
      (sort [("v", .int32 1)] [first, third]).Pairwise
        fun earlier later => (compareDocuments earlier later [("v", .int32 1)]).isLE = true := by
  let nan : Double := ⟨9221120237041090560⟩
  let first : Document := [("v", .int32 2)]
  let second : Document := [("v", .double nan)]
  let third : Document := [("v", .int32 1)]
  have hnan : nan.isNaN = true := by decide
  obtain ⟨-, -, htransitive, -, -, hdocuments⟩ :=
    transitive_iff_not_blurs (Held [first, second, third] "v") [("v", .int32 1)]
  refine ⟨nan, first, second, third, hnan, rfl, rfl, rfl, rfl, rfl, fun hall => ?_, ?_⟩
  · refine htransitive.mp hall (Or.inl ⟨nan, .int32 1, .int32 2, ?_, hnan, ?_, ?_, rfl⟩)
    · exact ⟨second, by simp, .double nan, rfl, by simp [Value.leaves]⟩
    · exact ⟨third, by simp, .int32 1, rfl, by simp [Value.leaves]⟩
    · exact ⟨first, by simp, .int32 2, rfl, by simp [Value.leaves]⟩
  · refine (hdocuments [first, third] fun field hmem hblurs => ?_).2.2
    -- what is left holds 32-bit integers alone, and nothing blurs the order of these
    have hheld : ∀ leaf, Held [first, third] field leaf → ∃ n, leaf = .int32 n := by
      rintro leaf ⟨doc, hdoc, value, hvalue, hleaf⟩
      rw [List.mem_singleton.mp hmem] at hvalue
      rcases List.mem_pair.mp hdoc with rfl | rfl
      · cases hvalue
        exact ⟨2, List.mem_singleton.mp hleaf⟩
      · cases hvalue
        exact ⟨1, List.mem_singleton.mp hleaf⟩
    rcases hblurs with ⟨nan', -, -, hheld', -⟩ | ⟨symbol, -, -, hheld', -⟩
    · obtain ⟨n, hn⟩ := hheld _ hheld'
      cases hn
    · obtain ⟨n, hn⟩ := hheld _ hheld'
      cases hn

end Sorting

end DocStore
