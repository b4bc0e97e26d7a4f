import DocStore.Proofs.Shown
import Mathlib.Order.Compare

/-! # Sorting keeps what is left out apart

Two values compare one way round as they do the other (`Value.order_swap`), so on values on which
the order is transitive it is a preorder, and a sort specification over fields that hold such values
is one on documents (`Sorting.preorderOn_compareDocuments`). A stable sort by a preorder puts the
earliest of the least items first (`Sorting.Arranged.exists_eq_append`). Since there is one
arrangement only, sorting and then leaving out documents gives the same as leaving them out first
(`Sorting.filter_sort`), and sorting documents gives the same as sorting their positions
(`Sorting.map_sortPositions`). -/

namespace DocStore

/-! ## The order of values, the other way round -/

theorem Double.compare?_swap (x y : Double) :
    compare? y x = (compare? x y).map Ordering.swap := by
  rw [compare?, compare?, Bool.or_comm]
  split
  · rfl
  · rw [Option.map_some, ← Std.OrientedCmp.eq_swap]

namespace Value

theorem orderNumbers_swap (left right : Value) :
    orderNumbers right left = (orderNumbers left right).swap := by
  rw [orderNumbers, orderNumbers]
  cases left.number? with
  | none => cases right.number? <;> rfl
  | some x =>
    cases right.number? with
    | none => rfl
    | some y =>
      dsimp only
      rw [Double.compare?_swap]
      cases x.compare? y <;> rfl

theorem orderAcross_swap (left right : Value) :
    (compare right.bracket left.bracket).then (orderNumbers right left)
      = ((compare left.bracket right.bracket).then (orderNumbers left right)).swap := by
  rw [Ordering.swap_then, orderNumbers_swap left right]
  exact congrArg (Ordering.then · _) Std.OrientedCmp.eq_swap

mutual

/-- **The order of two values** is turned round with them. -/
theorem order_swap : ∀ left right : Value, order right left = (order left right).swap
  | .array items, right => by
    cases right with
    | array items' => exact orderItems_swap items items'
    | _ => simpa only [order] using orderAcross_swap _ _
  | .string a, right => by
    cases right with
    | string b =>
      rw [order, order]
      exact Std.OrientedCmp.eq_swap
    | _ => simpa only [order] using orderAcross_swap _ _
  | .objectId a, right => by
    cases right with
    | objectId b =>
      rw [order, order, ObjectId.order, ObjectId.order]
      exact Std.OrientedCmp.eq_swap
    | _ => simpa only [order] using orderAcross_swap _ _
  | .bool a, right => by
    cases right with
    | bool b =>
      rw [order, order]
      exact Std.OrientedCmp.eq_swap
    | _ => simpa only [order] using orderAcross_swap _ _
  | .dateTime a, right => by
    cases right with
    | dateTime b =>
      rw [order, order]
      exact Std.OrientedCmp.eq_swap
    | _ => simpa only [order] using orderAcross_swap _ _
  | .null, right | .int32 _, right | .int64 _, right | .double _, right | .symbol _, right
  | .document _, right | .binary _ _, right | .regex _ _, right | .timestamp _ _, right
  | .code _, right | .scopedCode _ _, right | .undefined, right | .minKey, right
  | .maxKey, right => by
    cases right <;> simpa only [order] using orderAcross_swap _ _
termination_by structural left => left

theorem orderItems_swap : ∀ items items' : List Value,
    orderItems items' items = (orderItems items items').swap
  | [], [] => rfl
  | [], _ :: _ => rfl
  | _ :: _, [] => rfl
  | item :: rest, item' :: rest' => by
    rw [orderItems, orderItems, Ordering.swap_then, order_swap item item',
      orderItems_swap rest rest']
termination_by structural items => items

end

theorem isLE_order_null (value : Value) : (order .null value).isLE = true := by
  cases value <;> rfl

theorem eq_null_of_isLE {value : Value} (h : (order value .null).isLE = true) : value = .null := by
  cases value with
  | null => rfl
  | _ => cases h

/-- Whether the order of values is **transitive** on some of them. -/
def IsTransitiveOn (values : Value → Prop) : Prop :=
  ∀ first second third, values first → values second → values third →
    (order first second).isLE = true → (order second third).isLE = true →
    (order first third).isLE = true

/-- Where the order is transitive on some values, it is on fewer of them. -/
theorem IsTransitiveOn.mono {values fewer : Value → Prop} (h : IsTransitiveOn values)
    (hfewer : ∀ value, fewer value → values value) : IsTransitiveOn fewer :=
  fun first second third hfirst hsecond hthird =>
    h first second third (hfewer first hfirst) (hfewer second hsecond) (hfewer third hthird)

/-- Strings are in the order of their code points. -/
theorem isTransitiveOn_of_strings {values : Value → Prop}
    (h : ∀ value, values value → ∃ text, value = .string text) : IsTransitiveOn values := by
  intro first second third hfirst hsecond hthird
  obtain ⟨a, rfl⟩ := h first hfirst
  obtain ⟨b, rfl⟩ := h second hsecond
  obtain ⟨c, rfl⟩ := h third hthird
  rw [order, order, order]
  exact Std.TransCmp.isLE_trans

/-- Null comes before all other values, so the order stays transitive with it. -/
theorem IsTransitiveOn.orderStored {values : Value → Prop} (h : IsTransitiveOn values)
    {first second third : Option Value} (hfirst : ∀ value ∈ first, values value)
    (hsecond : ∀ value ∈ second, values value) (hthird : ∀ value ∈ third, values value)
    (hle : (orderStored first second).isLE = true)
    (hle' : (orderStored second third).isLE = true) :
    (orderStored first third).isLE = true := by
  cases first with
  | none => exact isLE_order_null _
  | some first =>
    cases second with
    | none =>
      have hnull : first = .null := eq_null_of_isLE hle
      rw [hnull]
      exact isLE_order_null _
    | some second =>
      cases third with
      | none =>
        have hnull : second = .null := eq_null_of_isLE hle'
        rw [hnull] at hle
        exact hle
      | some third =>
        exact h first second third (hfirst first rfl) (hsecond second rfl) (hthird third rfl) hle
          hle'

end Value

namespace Sorting

/-! ## A sort by a preorder -/

section

variable {α β : Type} {cmp : α → α → Ordering} {items sorted : List α}

/-- A comparison that the library knows to be a preorder. -/
theorem isPreorder_of_transCmp [Std.TransCmp cmp] : IsPreorder cmp where
  swap _ _ := Std.OrientedCmp.eq_swap
  trans _ _ _ := Std.TransCmp.isLE_trans

namespace Arranged

/-- **Leaving out items** leaves the others arranged. -/
theorem filter (h : Arranged cmp items sorted) (keep : α → Bool) :
    Arranged cmp (items.filter keep) (sorted.filter keep) where
  perm := h.perm.filter keep
  ordered := h.ordered.filter keep
  ties item hmem := by
    rw [List.filter_comm, h.ties item (List.mem_of_mem_filter hmem), List.filter_comm]

/-- **What is compared in items** is arranged as they are. -/
theorem map {f : β → α} {items sorted : List β}
    (h : Arranged (fun left right => cmp (f left) (f right)) items sorted) :
    Arranged cmp (items.map f) (sorted.map f) where
  perm := h.perm.map f
  ordered := List.pairwise_map.mpr h.ordered
  ties item hmem := by
    obtain ⟨member, hmember, rfl⟩ := List.mem_map.mp hmem
    rw [List.filter_map, List.filter_map]
    exact congrArg (List.map f) (h.ties member hmember)

/-- **What an arrangement puts first** is the earliest of the least items. -/
theorem exists_eq_append {first : α} {later : List α} (hcmp : PreorderOn cmp items)
    (h : Arranged cmp items (first :: later)) :
    ∃ front rest, items = front ++ first :: rest ∧ (∀ item ∈ front, cmp first item = .lt) ∧
      ∀ item ∈ items, (cmp first item).isLE = true := by
  have hfirst : first ∈ items := h.perm.mem_iff.mp List.mem_cons_self
  have hself : cmp first first = .eq := hcmp.refl ⟨first, hfirst⟩
  have hleast : ∀ item ∈ items, (cmp first item).isLE = true := by
    intro item hmem
    rcases List.mem_cons.mp (h.perm.mem_iff.mpr hmem) with rfl | hlater
    · rw [hself]
      rfl
    · exact List.rel_of_pairwise_cons h.ordered hlater
  -- the items that tie with the first one stand as they stood, so it was the first of them
  have hties := h.ties first hfirst
  rw [List.filter_cons_of_pos (ties_iff.mpr hself)] at hties
  obtain ⟨front, rest, hitems, hfront, -⟩ := List.filter_eq_cons_iff.mp hties.symm
  refine ⟨front, rest, hitems, fun item hmem => ?_, hleast⟩
  have hle := hleast item (hitems ▸ List.mem_append_left _ hmem)
  have hne : cmp first item ≠ .eq := fun htie => hfront item hmem (ties_iff.mpr htie)
  cases hitem : cmp first item with
  | lt => rfl
  | eq => exact absurd hitem hne
  | gt => rw [hitem] at hle; cases hle

end Arranged

namespace StableSort

variable (sort : StableSort α)

/-- Sorting leaves items as they are if they are in order already. -/
theorem run_of_ordered (h : PreorderOn cmp items)
    (hordered : items.Pairwise fun earlier later => (cmp earlier later).isLE = true) :
    sort.run cmp items = items :=
  (sort.arranged cmp items h).unique h (.self hordered)

/-- **Leaving out before sorting** gives what leaving out afterwards gives. -/
theorem filter_run (h : PreorderOn cmp items) (keep : α → Bool) :
    (sort.run cmp items).filter keep = sort.run cmp (items.filter keep) := by
  have hkept : PreorderOn cmp (items.filter keep) := h.mono fun _ => List.mem_of_mem_filter
  exact ((sort.arranged cmp items h).filter keep).unique hkept (sort.arranged cmp _ hkept)

/-- **Two stable sorts** by a preorder agree, also where one of them sorts items by what the other
one sorts. -/
theorem map_run (other : StableSort β) {f : β → α} {items : List β}
    (h : PreorderOn cmp (items.map f)) :
    (other.run (fun left right => cmp (f left) (f right)) items).map f
      = sort.run cmp (items.map f) := by
  have hitems : PreorderOn (fun left right => cmp (f left) (f right)) items :=
    h.comap fun _ => List.mem_map_of_mem
  exact (other.arranged _ items hitems).map.unique h (sort.arranged cmp _ h)

end StableSort

end

/-! ## A sort specification as a preorder -/

/-- The order of a field is a preorder on documents if it is transitive on what they hold there. -/
theorem transCmp_orderStored {docs : List Document} {field : String}
    (h : Value.IsTransitiveOn fun value => ∃ doc ∈ docs, Entries.get? doc field = some value) :
    Std.TransCmp fun left right : {doc // doc ∈ docs} =>
      Value.orderStored (Entries.get? left.1 field) (Entries.get? right.1 field) where
  eq_swap := Value.order_swap _ _
  isLE_trans := by
    intro first second third
    refine h.orderStored ?_ ?_ ?_
    · exact fun value hvalue => ⟨first.1, first.2, hvalue⟩
    · exact fun value hvalue => ⟨second.1, second.2, hvalue⟩
    · exact fun value hvalue => ⟨third.1, third.2, hvalue⟩

/-- A direction keeps a preorder or turns it round. -/
theorem transCmp_directed {docs : List Document} {field : String} (direction : Value)
    (h : Value.IsTransitiveOn fun value => ∃ doc ∈ docs, Entries.get? doc field = some value) :
    Std.TransCmp fun left right : {doc // doc ∈ docs} =>
      let ordering := Value.orderStored (Entries.get? left.1 field) (Entries.get? right.1 field)
      if isDescending direction then ordering.swap else ordering := by
  have hfield := transCmp_orderStored h
  cases isDescending direction with
  | false => exact hfield
  | true =>
    simp only [if_true, Value.orderStored, ← Value.order_swap]
    exact hfield.opposite

/-- **A sort specification is a preorder** on documents if the order of values is transitive on what
they hold in each of its fields. -/
theorem transCmp_compareDocuments {docs : List Document} {spec : Document}
    (h : ∀ field ∈ Entries.keys spec,
      Value.IsTransitiveOn fun value => ∃ doc ∈ docs, Entries.get? doc field = some value) :
    Std.TransCmp fun left right : {doc // doc ∈ docs} => compareDocuments left.1 right.1 spec := by
  induction spec with
  | nil => exact { eq_swap := rfl, isLE_trans := fun _ _ => rfl }
  | cons entry rest ih =>
    have hfirst := transCmp_directed entry.2 (h entry.1 List.mem_cons_self)
    have hrest := ih fun field hmem => h field (List.mem_cons_of_mem _ hmem)
    -- one field after the other is the lexicographic order of the library
    exact inferInstanceAs (Std.TransCmp (compareLex
      (fun left right : {doc // doc ∈ docs} =>
        let ordering :=
          Value.orderStored (Entries.get? left.1 entry.1) (Entries.get? right.1 entry.1)
        if isDescending entry.2 then ordering.swap else ordering)
      fun left right => compareDocuments left.1 right.1 rest))

/-- **The order of two documents** is turned round with them. -/
theorem compareDocuments_swap (left right spec : Document) :
    compareDocuments right left spec = (compareDocuments left right spec).swap := by
  induction spec with
  | nil => rfl
  | cons entry rest ih =>
    have hfield : Value.orderStored (Entries.get? right entry.1) (Entries.get? left entry.1)
        = (Value.orderStored (Entries.get? left entry.1) (Entries.get? right entry.1)).swap :=
      Value.order_swap _ _
    rw [compareDocuments, compareDocuments, hfield, ih, Ordering.swap_then]
    split <;> rfl

/-- A sort specification compares some documents by a preorder if the order of values is transitive
on what they hold in each of its fields. -/
theorem preorderOn_compareDocuments {docs : List Document} {spec : Document}
    (h : ∀ field ∈ Entries.keys spec,
      Value.IsTransitiveOn fun value => ∃ doc ∈ docs, Entries.get? doc field = some value) :
    PreorderOn (compareDocuments · · spec) docs :=
  have := transCmp_compareDocuments h
  isPreorder_of_transCmp

variable [Runtime]

/-- To sort by no fields leaves documents as they are. -/
theorem sort_nil (docs : List Document) : sort [] docs = docs :=
  Runtime.documents.run_of_ordered (preorderOn_compareDocuments (List.forall_mem_nil _))
    (List.pairwise_of_forall fun _ _ => rfl)

/-- To sort by no fields leaves positions as they are. -/
theorem sortPositions_nil (found : List (Nat × Document)) : sortPositions [] found = found :=
  Runtime.positions.run_of_ordered
    ((preorderOn_compareDocuments (List.forall_mem_nil _)).comap fun _ => List.mem_map_of_mem)
    (List.pairwise_of_forall fun _ _ => rfl)

/-- **Leaving out documents before sorting them** gives what leaving them out afterwards gives. -/
theorem filter_sort {docs : List Document} {spec : Document}
    (h : ∀ field ∈ Entries.keys spec,
      Value.IsTransitiveOn fun value => ∃ doc ∈ docs, Entries.get? doc field = some value)
    (keep : Document → Bool) : (sort spec docs).filter keep = sort spec (docs.filter keep) :=
  Runtime.documents.filter_run (preorderOn_compareDocuments h) keep

/-- **Sorted documents** are in the order of the specification. -/
theorem pairwise_sort {docs : List Document} {spec : Document}
    (h : ∀ field ∈ Entries.keys spec,
      Value.IsTransitiveOn fun value => ∃ doc ∈ docs, Entries.get? doc field = some value) :
    (sort spec docs).Pairwise
      fun earlier later => (compareDocuments earlier later spec).isLE = true :=
  (Runtime.documents.arranged _ docs (preorderOn_compareDocuments h)).ordered

/-- **Sorting documents and sorting their positions** comes to the same, where the specification is
a preorder on the documents. -/
theorem map_sortPositions {found : List (Nat × Document)} {spec : Document}
    (h : ∀ field ∈ Entries.keys spec, Value.IsTransitiveOn fun value =>
      ∃ doc ∈ found.map Prod.snd, Entries.get? doc field = some value) :
    (sortPositions spec found).map Prod.snd = sort spec (found.map Prod.snd) :=
  Runtime.documents.map_run Runtime.positions (preorderOn_compareDocuments h)

end Sorting

end DocStore
