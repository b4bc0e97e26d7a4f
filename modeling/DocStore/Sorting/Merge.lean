import DocStore.Sorting.Insertion

/-! # Merging from both ends

Two sorted lists of nearly the same length are merged by taking half of all items from their fronts
and half from their backs. Where the comparison contradicts itself, the two halves may overlap, and
there is no result; by a preorder, a result is the merge of the two lists
(`Sorting.mergeEnds_eq_merge`). -/

namespace DocStore

namespace Sorting

variable {α β : Type}

/-- Take items from the front of two lists, each time the head of the second if it comes before the
head of the first, and that of the first if not: what is taken, and what is left of both. -/
def draw (cmp : α → α → Ordering) : Nat → List α → List α → List α × List α × List α
  | count + 1, x :: xs, y :: ys =>
    if (cmp y x).isLT then
      let (taken, rest) := draw cmp count (x :: xs) ys
      (y :: taken, rest)
    else
      let (taken, rest) := draw cmp count xs (y :: ys)
      (x :: taken, rest)
  | _, xs, ys => ([], xs, ys)

/-- What two ends of a list leave between them, given what is left behind the first. -/
def between (items front back : List α) : List α :=
  front.take (front.length + back.length - items.length)

/-- **A merge from both ends**: half of the items from the fronts, half from the backs, and what may
be left between. There is no result if an item was taken from both ends. -/
def mergeEnds (cmp : α → α → Ordering) (left right : List α) : Option (List α) :=
  let half := (left.length + right.length) / 2
  let (front, left₁, right₁) := draw cmp half left right
  -- from the backs, the greater one is taken, and of two that tie the right one
  let (back, right₂, left₂) := draw (fun x y => cmp y x) half right.reverse left.reverse
  if left.length ≤ left₁.length + left₂.length ∧ right.length ≤ right₁.length + right₂.length then
    some (front ++ between left left₁ left₂ ++ between right right₁ right₂ ++ back.reverse)
  else none

/-! ## What is kept -/

/-- What is drawn comes from the fronts of both lists, and the rest of them is left. -/
theorem draw_spec (cmp : α → α → Ordering) (count : Nat) (xs ys : List α) :
    ∃ xs' ys', xs = xs' ++ (draw cmp count xs ys).2.1 ∧ ys = ys' ++ (draw cmp count xs ys).2.2 ∧
      (draw cmp count xs ys).1.Perm (xs' ++ ys') := by
  fun_induction draw cmp count xs ys with
  | case1 count x xs y ys hlt taken rest hdraw ih =>
    obtain ⟨xs', ys', hxs, hys, hperm⟩ := ih
    rw [hdraw] at hxs hys hperm
    exact ⟨xs', y :: ys', hxs, congrArg (y :: ·) hys,
      (hperm.cons y).trans List.perm_middle.symm⟩
  | case2 count x xs y ys hlt taken rest hdraw ih =>
    obtain ⟨xs', ys', hxs, hys, hperm⟩ := ih
    rw [hdraw] at hxs hys hperm
    exact ⟨x :: xs', ys', congrArg (x :: ·) hxs, hys, hperm.cons x⟩
  | case3 => exact ⟨[], [], rfl, rfl, .refl _⟩

/-- A list is what is taken from its front, what is left between, and what is taken from its
back. -/
theorem eq_append_between {items taken front back taken' : List α} (hfront : items = taken ++ front)
    (hback : items.reverse = taken' ++ back) (h : items.length ≤ front.length + back.length) :
    items = taken ++ between items front back ++ taken'.reverse := by
  have hreversed : items = back.reverse ++ taken'.reverse := by
    rw [← List.reverse_append, ← hback, List.reverse_reverse]
  obtain ⟨mid, hmid, rfl⟩ : ∃ mid, back.reverse = taken ++ mid ∧ front = mid ++ taken'.reverse := by
    rcases List.append_eq_append_iff.mp (hfront.symm.trans hreversed) with hmid | hmid
    · exact hmid
    · -- what is taken from the front is no longer than what the back leaves
      obtain ⟨extra, htaken, hextra⟩ := hmid
      have hlength := congrArg List.length hfront
      have hlength' := congrArg List.length htaken
      simp only [List.length_append, List.length_reverse] at hlength hlength'
      have hnil : extra = [] := List.length_eq_zero_iff.mp (by omega)
      subst hnil
      exact ⟨[], by simpa using htaken.symm, by simpa using hextra.symm⟩
  have hcount : (mid ++ taken'.reverse).length + back.length - items.length = mid.length := by
    have hlength := congrArg List.length hreversed
    simp only [List.length_append, List.length_reverse] at hlength ⊢
    omega
  rw [between, hcount, List.take_left, hfront, List.append_assoc]

/-- **A merge from both ends keeps the items.** -/
theorem mergeEnds_perm {cmp : α → α → Ordering} {left right merged : List α}
    (h : mergeEnds cmp left right = some merged) : merged.Perm (left ++ right) := by
  classical
  obtain ⟨leftTaken, rightTaken, hleft, hright, hfront⟩ :=
    draw_spec cmp ((left.length + right.length) / 2) left right
  obtain ⟨rightTaken', leftTaken', hright', hleft', hback⟩ :=
    draw_spec (fun x y => cmp y x) ((left.length + right.length) / 2) right.reverse left.reverse
  rw [mergeEnds] at h
  generalize draw cmp _ left right = fronts at h hleft hright hfront
  generalize draw (fun x y => cmp y x) _ right.reverse left.reverse = backs
    at h hright' hleft' hback
  obtain ⟨front, left₁, right₁⟩ := fronts
  obtain ⟨back, right₂, left₂⟩ := backs
  dsimp only at h hleft hright hfront hright' hleft' hback
  split at h
  · rename_i hapart
    obtain rfl := Option.some.inj h
    refine List.perm_iff_count.mpr fun item => ?_
    have hcount := hfront.count_eq item
    have hcount' := hback.count_eq item
    have hcountLeft := congrArg (List.count item) (eq_append_between hleft hleft' hapart.1)
    have hcountRight := congrArg (List.count item) (eq_append_between hright hright' hapart.2)
    simp only [List.count_append, List.count_reverse] at hcount hcount' hcountLeft hcountRight ⊢
    omega
  · cases h

/-! ## Merging by a preorder -/

section

variable {cmp : α → α → Ordering}

/-- The merge of two lists by a comparison. -/
abbrev merge (cmp : α → α → Ordering) (left right : List α) : List α :=
  left.merge right fun x y => (cmp x y).isLE

/-- The head of the second list is merged first if it comes before that of the first. -/
theorem merge_cons_cons (hcmp : IsPreorder cmp) (x y : α) (xs ys : List α) :
    merge cmp (x :: xs) (y :: ys)
      = if (cmp y x).isLT then y :: merge cmp (x :: xs) ys else x :: merge cmp xs (y :: ys) := by
  rw [merge, List.cons_merge_cons, hcmp.isLT_eq_not_isLE]
  cases (cmp x y).isLE <;> rfl

/-- In the merge of sorted lists, what ties stands in the order of the lists. -/
theorem filter_merge (hcmp : IsPreorder cmp) (item : α) {left : List α} (right : List α)
    (h : left.Pairwise fun earlier later => (cmp earlier later).isLE = true) :
    (merge cmp left right).filter (ties cmp item)
      = left.filter (ties cmp item) ++ right.filter (ties cmp item) := by
  induction left generalizing right with
  | nil => rw [merge, List.nil_merge]; rfl
  | cons x xs ih =>
    have hxs := (List.pairwise_cons.mp h).2
    induction right with
    | nil => rw [merge, List.merge_right, List.filter_nil, List.append_nil]
    | cons y ys ihright =>
      rw [merge_cons_cons hcmp]
      split
      · rename_i hlt
        rw [List.filter_cons, ihright]
        by_cases hy : ties cmp item y = true
        · -- all of the first list comes behind what is taken from the second
          have hnone : ∀ other ∈ x :: xs, ¬ ties cmp item other = true := by
            intro other hmem htie
            have hle : (cmp x other).isLE = true := by
              rcases List.mem_cons.mp hmem with rfl | hlater
              · rw [hcmp.refl]; rfl
              · exact List.rel_of_pairwise_cons h hlater
            rw [hcmp.congr_left (ties_iff.mp hy), ties_iff] at htie
            rw [hcmp.isLT_eq_not_isLE,
              hcmp.trans x other y hle (by rw [hcmp.swap y other, htie]; rfl)] at hlt
            cases hlt
          rw [List.filter_eq_nil_iff.mpr hnone, List.filter_cons_of_pos hy, if_pos hy]
          rfl
        · rw [if_neg hy, List.filter_cons_of_neg hy]
      · by_cases hx : ties cmp item x = true
        · rw [List.filter_cons_of_pos hx, ih _ hxs, List.filter_cons_of_pos hx, List.cons_append]
        · rw [List.filter_cons_of_neg hx, ih _ hxs, List.filter_cons_of_neg hx]

/-- **Merging arranges** what is arranged already, the first list in front of the second. -/
theorem arranged_merge (hcmp : IsPreorder cmp) {items items' left right : List α}
    (hleft : Arranged cmp items left) (hright : Arranged cmp items' right) :
    Arranged cmp (items ++ items') (merge cmp left right) where
  perm := (List.merge_perm_append _).trans (hleft.perm.append hright.perm)
  ordered := List.pairwise_merge hcmp.trans hcmp.total left right hleft.ordered hright.ordered
  ties item _ := by
    rw [filter_merge hcmp item right hleft.ordered, hleft.filter_ties hcmp,
      hright.filter_ties hcmp, List.filter_append]

/-- A merge from the backs is the merge, last items first. -/
theorem reverse_merge (hcmp : IsPreorder cmp) {left right : List α}
    (hleft : left.Pairwise fun earlier later => (cmp earlier later).isLE = true)
    (hright : right.Pairwise fun earlier later => (cmp earlier later).isLE = true) :
    (merge cmp left right).reverse
      = merge (fun x y => cmp y x) right.reverse left.reverse := by
  have hflip : ∀ item, ties (fun x y => cmp y x) item = ties cmp item := by
    intro item
    funext other
    rw [Bool.eq_iff_iff, ties_iff, ties_iff, hcmp.swap item other]
    cases cmp item other <;> simp
  have hmerged := arranged_merge hcmp (.self hleft) (.self hright)
  have hforward : Arranged (fun x y => cmp y x) (right.reverse ++ left.reverse)
      (merge cmp left right).reverse :=
    { perm := by
        rw [← List.reverse_append]
        exact (List.reverse_perm _).trans (hmerged.perm.trans (List.reverse_perm _).symm)
      ordered := List.pairwise_reverse.mpr hmerged.ordered
      ties := fun item _ => by
        rw [hflip, List.filter_reverse, filter_merge hcmp item right hleft, List.reverse_append,
          List.filter_append, List.filter_reverse, List.filter_reverse] }
  exact hforward.unique (hcmp.flip.preorderOn _) (arranged_merge hcmp.flip
    (.self (List.pairwise_reverse.mpr hright)) (.self (List.pairwise_reverse.mpr hleft)))

/-- What is drawn from the fronts of long enough lists is the front of their merge. -/
theorem draw_eq_take (hcmp : IsPreorder cmp) {count : Nat} {xs ys : List α}
    (hxs : count ≤ xs.length) (hys : count ≤ ys.length) :
    (draw cmp count xs ys).1 = (merge cmp xs ys).take count := by
  induction count generalizing xs ys with
  | zero => rw [draw.eq_def]; rfl
  | succ count ih =>
    obtain ⟨x, xs, rfl⟩ := List.exists_cons_of_length_pos (Nat.lt_of_lt_of_le count.succ_pos hxs)
    obtain ⟨y, ys, rfl⟩ := List.exists_cons_of_length_pos (Nat.lt_of_lt_of_le count.succ_pos hys)
    have hxs' : count ≤ xs.length := Nat.le_of_succ_le_succ hxs
    have hys' : count ≤ ys.length := Nat.le_of_succ_le_succ hys
    rw [merge_cons_cons hcmp, draw]
    split
    · exact congrArg (y :: ·) (ih (Nat.le_of_succ_le hxs) hys')
    · exact congrArg (x :: ·) (ih hxs' (Nat.le_of_succ_le hys))

/-- One item can be in one order only. -/
theorem eq_of_perm_of_length_le_one {first second : List α} (h : first.Perm second)
    (hlength : second.length ≤ 1) : first = second := by
  match second, hlength with
  | [], _ => exact h.eq_nil
  | [item], _ => exact List.perm_singleton.mp h

/-- **A merge from both ends is the merge** of sorted lists, of which the second is as long as the
first or longer by one. -/
theorem mergeEnds_eq_merge (hcmp : IsPreorder cmp) {left right merged : List α}
    (hleft : left.Pairwise fun earlier later => (cmp earlier later).isLE = true)
    (hright : right.Pairwise fun earlier later => (cmp earlier later).isLE = true)
    (hshort : left.length ≤ right.length) (hlong : right.length ≤ left.length + 1)
    (h : mergeEnds cmp left right = some merged) : merged = merge cmp left right := by
  have hperm := (mergeEnds_perm h).trans (List.merge_perm_append fun x y => (cmp x y).isLE).symm
  have hlength : (merge cmp left right).length = left.length + right.length :=
    (List.merge_perm_append _).length_eq.trans List.length_append
  have hhalf : (left.length + right.length) / 2 = left.length := by omega
  -- both ends are ends of the merge
  obtain ⟨middle, rfl⟩ : ∃ middle, merged = (merge cmp left right).take left.length ++ middle
      ++ (merge cmp left right).drop ((merge cmp left right).length - left.length) := by
    have hfront := draw_eq_take hcmp (Nat.le_refl left.length) hshort
    have hback : (draw (fun x y => cmp y x) left.length right.reverse left.reverse).1
        = ((merge cmp left right).drop ((merge cmp left right).length - left.length)).reverse := by
      rw [draw_eq_take hcmp.flip (by rwa [List.length_reverse])
        (Nat.le_of_eq List.length_reverse.symm), ← reverse_merge hcmp hleft hright,
        List.take_reverse]
    rw [mergeEnds, hhalf] at h
    dsimp only at h
    split at h
    · rw [hfront, hback, List.reverse_reverse] at h
      exact ⟨_, by rw [← Option.some.inj h, List.append_assoc (List.take _ _)]⟩
    · cases h
  -- so at most one item is left between them, and it is the same
  have hsplit : merge cmp left right = (merge cmp left right).take left.length
      ++ ((merge cmp left right).drop left.length).take (right.length - left.length)
      ++ (merge cmp left right).drop ((merge cmp left right).length - left.length) := by
    rw [List.append_assoc, hlength, Nat.add_sub_cancel_left]
    have hrest := List.take_append_drop (right.length - left.length)
      ((merge cmp left right).drop left.length)
    rw [List.drop_drop, Nat.add_sub_cancel' hshort] at hrest
    rw [hrest, List.take_append_drop]
  have hmiddle := (List.perm_append_left_iff _).mp
    ((List.perm_append_right_iff _).mp (hperm.trans (.of_eq hsplit)))
  have hone : (((merge cmp left right).drop left.length).take
      (right.length - left.length)).length ≤ 1 :=
    Nat.le_trans (List.length_take_le _ _) (by omega)
  rw [eq_of_perm_of_length_le_one hmiddle hone]
  exact hsplit.symm

/-! ## Naturality -/

variable {cmp' : β → β → Ordering} {f : α → β}

/-- Drawing goes along with a map that keeps the comparison. -/
theorem draw_map (h : ∀ left right, cmp' (f left) (f right) = cmp left right) (count : Nat)
    (xs ys : List α) :
    draw cmp' count (xs.map f) (ys.map f)
      = (draw cmp count xs ys).map (List.map f) (Prod.map (List.map f) (List.map f)) := by
  fun_induction draw cmp count xs ys with
  | case1 count x xs y ys hlt taken rest hdraw ih =>
    rw [hdraw] at ih
    rw [List.map_cons, List.map_cons, draw, h, if_pos hlt, ← List.map_cons, ih]
    rfl
  | case2 count x xs y ys hlt taken rest hdraw ih =>
    rw [hdraw] at ih
    rw [List.map_cons, List.map_cons, draw, h, if_neg hlt, ← List.map_cons, ih]
    rfl
  | case3 count xs ys hempty =>
    cases count with
    | zero => rw [draw.eq_def]; rfl
    | succ count =>
      cases xs with
      | nil => rw [draw.eq_def]; rfl
      | cons x xs =>
        cases ys with
        | nil => rw [draw.eq_def]; rfl
        | cons y ys => exact (hempty count x xs y ys rfl rfl rfl).elim

/-- Merging from both ends goes along with a map that keeps the comparison. -/
theorem mergeEnds_map (h : ∀ left right, cmp' (f left) (f right) = cmp left right)
    (left right : List α) :
    mergeEnds cmp' (left.map f) (right.map f) = (mergeEnds cmp left right).map (List.map f) := by
  have hbackwards : draw (fun x y => cmp' y x) ((left.length + right.length) / 2)
        (right.reverse.map f) (left.reverse.map f)
      = (draw (fun x y => cmp y x) ((left.length + right.length) / 2) right.reverse
          left.reverse).map (List.map f) (Prod.map (List.map f) (List.map f)) :=
    draw_map (fun x y => h y x) _ _ _
  rw [mergeEnds, mergeEnds, List.length_map, List.length_map, draw_map h, ← List.map_reverse,
    ← List.map_reverse, hbackwards]
  dsimp only [Prod.map]
  simp only [List.length_map, between]
  split
  · simp
  · rfl

end

end Sorting

end DocStore
