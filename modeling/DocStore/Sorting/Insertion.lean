import DocStore.Sorting.Stable

/-! # Insertion sort

Items are taken one by one, and each moves to the front past those that it comes before. By a
preorder this is a stable arrangement (`Sorting.arranged_insertAll`). -/

namespace DocStore

namespace Sorting

/-- Put an item behind all items at the end of a sorted list, given last first, that it does not
come before. -/
def place {α : Type} (cmp : α → α → Ordering) (item : α) : List α → List α
  | [] => [item]
  | last :: rest =>
    if (cmp item last).isLT then last :: place cmp item rest else item :: last :: rest

/-- **Insertion**: each item moves to the front past the items that it comes before, and stops at
the first that it does not. -/
def insertAll {α : Type} (cmp : α → α → Ordering) (sorted items : List α) : List α :=
  (items.foldl (fun sorted item => place cmp item sorted) sorted.reverse).reverse

/-- **Insertion sort** inserts all items into the empty list. -/
def insertionSort {α : Type} (cmp : α → α → Ordering) (items : List α) : List α :=
  insertAll cmp [] items

section

variable {α β : Type} {cmp : α → α → Ordering}

/-- Inserting one item and then the rest. -/
theorem insertAll_cons (cmp : α → α → Ordering) (sorted : List α) (item : α) (rest : List α) :
    insertAll cmp sorted (item :: rest)
      = insertAll cmp (place cmp item sorted.reverse).reverse rest := by
  rw [insertAll, insertAll, List.reverse_reverse, List.foldl_cons]

/-! ## What is kept -/

/-- Placing an item adds that item. -/
theorem place_perm (cmp : α → α → Ordering) (item : α) (sorted : List α) :
    (place cmp item sorted).Perm (item :: sorted) := by
  induction sorted with
  | nil => exact .refl _
  | cons last rest ih =>
    rw [place]
    split
    · exact (ih.cons last).trans (.swap item last rest)
    · exact .refl _

/-- Inserting items adds these items. -/
theorem insertAll_perm (cmp : α → α → Ordering) (sorted items : List α) :
    (insertAll cmp sorted items).Perm (sorted ++ items) := by
  induction items generalizing sorted with
  | nil => simp [insertAll]
  | cons item rest ih =>
    rw [insertAll_cons]
    have hplaced : (place cmp item sorted.reverse).reverse.Perm (item :: sorted) :=
      (List.reverse_perm _).trans ((place_perm cmp item _).trans ((List.reverse_perm _).cons item))
    exact (ih _).trans ((hplaced.append_right rest).trans List.perm_middle.symm)

/-! ## Naturality -/

variable {cmp' : β → β → Ordering} {f : α → β}

/-- Placing goes along with a map that keeps the comparison. -/
theorem place_map (h : ∀ left right, cmp' (f left) (f right) = cmp left right) (item : α)
    (sorted : List α) : place cmp' (f item) (sorted.map f) = (place cmp item sorted).map f := by
  induction sorted with
  | nil => rfl
  | cons last rest ih =>
    rw [List.map_cons, place, place, h]
    split
    · rw [List.map_cons, ih]
    · rfl

/-- Inserting goes along with a map that keeps the comparison. -/
theorem insertAll_map (h : ∀ left right, cmp' (f left) (f right) = cmp left right)
    (sorted items : List α) :
    insertAll cmp' (sorted.map f) (items.map f) = (insertAll cmp sorted items).map f := by
  induction items generalizing sorted with
  | nil => simp [insertAll]
  | cons item rest ih =>
    rw [List.map_cons, insertAll_cons, insertAll_cons, ← List.map_reverse, place_map h,
      ← List.map_reverse, ih]

/-! ## What is put in order -/

/-- Placing an item in a list that is sorted, given last first, keeps it so. -/
theorem pairwise_place (hcmp : IsPreorder cmp) (item : α) {sorted : List α}
    (h : sorted.Pairwise fun later earlier => (cmp earlier later).isLE = true) :
    (place cmp item sorted).Pairwise fun later earlier => (cmp earlier later).isLE = true := by
  induction sorted with
  | nil => exact List.pairwise_singleton _ _
  | cons last rest ih =>
    obtain ⟨hlast, hrest⟩ := List.pairwise_cons.mp h
    rw [place]
    cases hlt : (cmp item last).isLT with
    | true =>
      -- the item goes among the others, and the last one stays last
      rw [if_pos rfl]
      refine List.pairwise_cons.mpr ⟨fun other hother => ?_, ih hrest⟩
      rcases List.mem_cons.mp ((place_perm cmp item rest).mem_iff.mp hother) with rfl | hmem
      · rw [Ordering.isLT_iff_eq_lt.mp hlt]; rfl
      · exact hlast other hmem
    | false =>
      -- the last one bounds all others
      have hle : (cmp last item).isLE = true := by
        rwa [hcmp.isLT_eq_not_isLE, Bool.not_eq_false'] at hlt
      rw [if_neg Bool.false_ne_true]
      refine List.pairwise_cons.mpr ⟨fun other hother => ?_, h⟩
      rcases List.mem_cons.mp hother with rfl | hmem
      · exact hle
      · exact hcmp.trans _ last _ (hlast other hmem) hle

/-- An item stands behind those that it ties with. -/
theorem filter_place (hcmp : IsPreorder cmp) (item other : α) (sorted : List α) :
    (place cmp item sorted).filter (ties cmp other)
      = [item].filter (ties cmp other) ++ sorted.filter (ties cmp other) := by
  induction sorted with
  | nil => simp [place]
  | cons last rest ih =>
    rw [place]
    split
    · rename_i hlt
      rw [List.filter_cons, ih]
      by_cases hlast : ties cmp other last = true
      · -- what comes before the last one does not tie with what the last one ties with
        have hitem : ¬ ties cmp other item = true := by
          rw [hcmp.congr_left (ties_iff.mp hlast), ties_iff, hcmp.swap item last,
            Ordering.isLT_iff_eq_lt.mp hlt]
          exact Ordering.noConfusion
        simp [hlast, hitem]
      · simp [hlast]
    · rw [← List.filter_append]
      rfl

/-- **Inserting the next item** into an arrangement arranges it with the others. -/
theorem arranged_place (hcmp : IsPreorder cmp) {items sorted : List α}
    (h : Arranged cmp items sorted) (item : α) :
    Arranged cmp (items ++ [item]) (place cmp item sorted.reverse).reverse where
  perm := by
    have hplaced := (List.reverse_perm _).trans (place_perm cmp item sorted.reverse)
    exact hplaced.trans ((((List.reverse_perm _).trans h.perm).cons item).trans
      (List.perm_append_singleton item items).symm)
  ordered := List.pairwise_reverse.mpr
    (pairwise_place hcmp item (List.pairwise_reverse.mpr h.ordered))
  ties other _ := by
    rw [List.filter_reverse, filter_place hcmp, List.filter_reverse, List.reverse_append,
      List.reverse_reverse, h.filter_ties hcmp, List.filter_append]
    by_cases hitem : ties cmp other item = true <;> simp [hitem]

/-- **Insertion arranges**: what is inserted into an arrangement is arranged with it. -/
theorem arranged_insertAll (hcmp : IsPreorder cmp) {done sorted : List α}
    (h : Arranged cmp done sorted) (items : List α) :
    Arranged cmp (done ++ items) (insertAll cmp sorted items) := by
  induction items generalizing done sorted with
  | nil => simpa [insertAll] using h
  | cons item rest ih =>
    rw [insertAll_cons, List.append_cons]
    exact ih (arranged_place hcmp h item)

end

end Sorting

end DocStore
