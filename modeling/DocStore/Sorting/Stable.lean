/-! # Stable sorts

A sort of items by a comparison promises little where the comparison contradicts itself: all items
are there, in some order. Where it is a preorder on the items, they come in its order, and those
that tie stay as they stood (`Sorting.Arranged`). Both together leave no choice
(`Sorting.Arranged.unique`). -/

namespace DocStore

namespace Sorting

variable {α : Type}

/-- **A preorder** as a comparison: it is turned round with its operands, and it is transitive. -/
structure IsPreorder (cmp : α → α → Ordering) : Prop where
  /-- The other way round. -/
  swap : ∀ left right, cmp right left = (cmp left right).swap
  /-- What does not come behind a second, which does not come behind a third. -/
  trans : ∀ first second third, (cmp first second).isLE = true →
    (cmp second third).isLE = true → (cmp first third).isLE = true

/-- A comparison is **a preorder on some items**, whatever it makes of others. -/
def PreorderOn (cmp : α → α → Ordering) (items : List α) : Prop :=
  IsPreorder fun left right : {item // item ∈ items} => cmp left.1 right.1

/-- Whether two items compare as equal. -/
def ties (cmp : α → α → Ordering) (item other : α) : Bool := (cmp item other).isEq

/-- **A stable arrangement** of items. -/
structure Arranged (cmp : α → α → Ordering) (items sorted : List α) : Prop where
  /-- All items are there, and no others. -/
  perm : sorted.Perm items
  /-- None stands behind one that it comes before. -/
  ordered : sorted.Pairwise fun earlier later => (cmp earlier later).isLE = true
  /-- Those that tie stay as they stood. -/
  ties : ∀ item ∈ items, sorted.filter (ties cmp item) = items.filter (ties cmp item)

/-- **A stable sort** of one type of items. It comes to an end by every comparison, also by one that
contradicts itself. -/
structure StableSort (α : Type) where
  /-- Sort items by a comparison. -/
  run : (α → α → Ordering) → List α → List α
  /-- Whatever the comparison, all items stay, and no others come. -/
  perm : ∀ cmp items, (run cmp items).Perm items
  /-- By a preorder they are arranged in its order. -/
  arranged : ∀ cmp items, PreorderOn cmp items → Arranged cmp items (run cmp items)
  /-- Of the items, a sort sees only how they compare. -/
  map : ∀ (cmp cmp' : α → α → Ordering) (f : α → α),
    (∀ left right, cmp' (f left) (f right) = cmp left right) →
    ∀ items, run cmp' (items.map f) = (run cmp items).map f

/-! ## Preorders -/

section

variable {cmp : α → α → Ordering} {items : List α}

theorem ties_iff {item other : α} : ties cmp item other = true ↔ cmp item other = .eq :=
  Ordering.isEq_iff_eq_eq

namespace IsPreorder

/-- An item ties with itself. -/
theorem refl (h : IsPreorder cmp) (item : α) : cmp item item = .eq := by
  have hswap := h.swap item item
  cases hself : cmp item item with
  | eq => rfl
  | lt | gt => rw [hself] at hswap; cases hswap

/-- An item comes before another if it does not come behind it the other way round. -/
theorem isLT_eq_not_isLE (h : IsPreorder cmp) (left right : α) :
    (cmp right left).isLT = !(cmp left right).isLE := by
  rw [h.swap left right]
  cases cmp left right <;> rfl

/-- One of two items does not come behind the other. -/
theorem total (h : IsPreorder cmp) (left right : α) :
    ((cmp left right).isLE || (cmp right left).isLE) = true := by
  rw [h.swap left right]
  cases cmp left right <;> rfl

/-- Items that do not come behind each other tie. -/
theorem eq_of_isLE (h : IsPreorder cmp) (left right : α) (hle : (cmp left right).isLE = true)
    (hle' : (cmp right left).isLE = true) : cmp left right = .eq := by
  rw [h.swap left right] at hle'
  cases hcmp : cmp left right with
  | eq => rfl
  | lt => rw [hcmp] at hle'; cases hle'
  | gt => rw [hcmp] at hle; cases hle

/-- A preorder the other way round is one. -/
theorem flip (h : IsPreorder cmp) : IsPreorder fun left right => cmp right left where
  swap left right := h.swap right left
  trans first second third hle hle' := h.trans third second first hle' hle

/-- A preorder compares ties alike. -/
theorem congr_left (h : IsPreorder cmp) {left right : α} (htie : cmp left right = .eq) (other : α) :
    ties cmp left other = ties cmp right other := by
  have hle : (cmp left right).isLE = true := by rw [htie]; rfl
  have hle' : (cmp right left).isLE = true := by rw [h.swap left right, htie]; rfl
  rw [Bool.eq_iff_iff, ties_iff, ties_iff]
  constructor <;> intro heq
  · exact h.eq_of_isLE _ _ (h.trans _ left _ hle' (by rw [heq]; rfl))
      (h.trans _ left _ (by rw [h.swap left other, heq]; rfl) hle)
  · exact h.eq_of_isLE _ _ (h.trans _ right _ hle (by rw [heq]; rfl))
      (h.trans _ right _ (by rw [h.swap right other, heq]; rfl) hle')

/-- A preorder is one on all items. -/
theorem preorderOn (h : IsPreorder cmp) (items : List α) : PreorderOn cmp items where
  swap left right := h.swap left.1 right.1
  trans first second third := h.trans first.1 second.1 third.1

end IsPreorder

namespace PreorderOn

/-- What is compared by a preorder on some items is compared by a preorder. -/
theorem comap (h : PreorderOn cmp items) {β : Type} {f : β → α} {others : List β}
    (hf : ∀ other ∈ others, f other ∈ items) :
    PreorderOn (fun left right => cmp (f left) (f right)) others where
  swap left right := h.swap ⟨f left, hf _ left.2⟩ ⟨f right, hf _ right.2⟩
  trans first second third :=
    h.trans ⟨f first, hf _ first.2⟩ ⟨f second, hf _ second.2⟩ ⟨f third, hf _ third.2⟩

/-- A preorder on some items is one on fewer. -/
theorem mono (h : PreorderOn cmp items) {fewer : List α} (hfewer : ∀ item ∈ fewer, item ∈ items) :
    PreorderOn cmp fewer := h.comap hfewer

end PreorderOn

/-! ## Arrangements -/

/-- **No two lists** of the same items in order, with ties as they stood in both, differ. -/
theorem eq_of_ordered {first second : List α} (h : PreorderOn cmp first)
    (hperm : first.Perm second)
    (hfirst : first.Pairwise fun earlier later => (cmp earlier later).isLE = true)
    (hsecond : second.Pairwise fun earlier later => (cmp earlier later).isLE = true)
    (hties : ∀ item ∈ first, first.filter (ties cmp item) = second.filter (ties cmp item)) :
    first = second := by
  induction first generalizing second with
  | nil => exact hperm.nil_eq
  | cons x xs ih =>
    cases second with
    | nil => cases hperm.eq_nil
    | cons y ys =>
      -- each of the two heads is in the other list, so the heads tie
      have hx : x ∈ y :: ys := hperm.mem_iff.mp List.mem_cons_self
      have hy : y ∈ x :: xs := hperm.mem_iff.mpr List.mem_cons_self
      have hself : cmp x x = .eq := h.refl ⟨x, List.mem_cons_self⟩
      have hle : (cmp x y).isLE = true := by
        rcases List.mem_cons.mp hy with rfl | hlater
        · rw [hself]; rfl
        · exact List.rel_of_pairwise_cons hfirst hlater
      have hle' : (cmp y x).isLE = true := by
        rcases List.mem_cons.mp hx with rfl | hlater
        · rw [hself]; rfl
        · exact List.rel_of_pairwise_cons hsecond hlater
      have htie : cmp x y = .eq :=
        h.eq_of_isLE ⟨x, List.mem_cons_self⟩ ⟨y, hy⟩ hle hle'
      have hheads := hties x List.mem_cons_self
      rw [List.filter_cons_of_pos (ties_iff.mpr hself), List.filter_cons_of_pos (ties_iff.mpr htie)]
        at hheads
      obtain ⟨rfl, -⟩ := List.cons.inj hheads
      have hrest := ih (h.mono fun _ => List.mem_cons_of_mem _) hperm.cons_inv
        (List.pairwise_cons.mp hfirst).2 (List.pairwise_cons.mp hsecond).2 fun item hmem => by
          have hitem := hties item (List.mem_cons_of_mem _ hmem)
          rw [List.filter_cons, List.filter_cons] at hitem
          split at hitem
          · exact (List.cons.inj hitem).2
          · exact hitem
      rw [hrest]

namespace Arranged

variable {sorted : List α}

/-- **There is one arrangement** of items by a preorder. -/
theorem unique (h : PreorderOn cmp items) {other : List α} (hsorted : Arranged cmp items sorted)
    (hother : Arranged cmp items other) : sorted = other :=
  eq_of_ordered (h.mono fun _ => hsorted.perm.mem_iff.mp)
    (hsorted.perm.trans hother.perm.symm) hsorted.ordered hother.ordered fun item hmem =>
      (hsorted.ties item (hsorted.perm.mem_iff.mp hmem)).trans
        (hother.ties item (hsorted.perm.mem_iff.mp hmem)).symm

/-- Items in order are arranged. -/
theorem self (h : items.Pairwise fun earlier later => (cmp earlier later).isLE = true) :
    Arranged cmp items items := ⟨.refl _, h, fun _ _ => rfl⟩

/-- Items are arranged as the members of their list are. -/
theorem of_attach {sorted : List {item // item ∈ items}}
    (h : Arranged (fun left right => cmp left.1 right.1) items.attach sorted) :
    Arranged cmp items (sorted.map Subtype.val) where
  perm := by
    have hperm := h.perm.map Subtype.val
    rwa [List.attach_map_subtype_val] at hperm
  ordered := List.pairwise_map.mpr h.ordered
  ties item hmem := by
    have hties := congrArg (List.map Subtype.val) (h.ties ⟨item, hmem⟩ (List.mem_attach _ _))
    have hval : ∀ members : List {item // item ∈ items},
        (members.filter (Sorting.ties (fun left right => cmp left.1 right.1) ⟨item, hmem⟩)).map
          Subtype.val = (members.map Subtype.val).filter (Sorting.ties cmp item) :=
      fun members => by rw [List.filter_map]; rfl
    rw [hval, hval, List.attach_map_subtype_val] at hties
    exact hties

/-- By a preorder all ties stay, those with other items too. -/
theorem filter_ties (hcmp : IsPreorder cmp) (h : Arranged cmp items sorted) (item : α) :
    sorted.filter (Sorting.ties cmp item) = items.filter (Sorting.ties cmp item) := by
  by_cases hmember : ∃ member ∈ items, cmp item member = .eq
  · obtain ⟨member, hmem, htie⟩ := hmember
    have hsame : Sorting.ties cmp item = Sorting.ties cmp member :=
      funext (hcmp.congr_left htie)
    rw [hsame]
    exact h.ties member hmem
  · have hnone : ∀ other ∈ items, ¬ Sorting.ties cmp item other = true := fun other hmem htie =>
      hmember ⟨other, hmem, ties_iff.mp htie⟩
    rw [List.filter_eq_nil_iff.mpr hnone,
      List.filter_eq_nil_iff.mpr fun other hmem => hnone other (h.perm.mem_iff.mp hmem)]

end Arranged

end

end Sorting

end DocStore
