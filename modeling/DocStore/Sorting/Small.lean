import DocStore.Sorting.Merge

/-! # Sorting a few items

Up to twenty items are sorted by insertion. For some more, each half is sorted on its own, its first
items by a network of comparisons and the others by insertion, and the halves are merged from both
ends; how many items the network sorts depends on whether they are narrow. By a preorder all this is
one stable sort (`Sorting.arranged_sortSmall`), and where a comparison contradicts itself, the width
of the items shows in the result. -/

namespace DocStore

namespace Sorting

variable {α β : Type}

/-- Two items in order. -/
def sortPair (cmp : α → α → Ordering) (left right : α) : α × α :=
  if (cmp right left).isLT then (right, left) else (left, right)

/-- Two pairs in order: the lesser first item comes first, the greater second one last, and the
other two are a pair again. -/
def joinPairs (cmp : α → α → Ordering) : α × α → α × α → List α
  | (a, b), (c, d) =>
    match (cmp c a).isLT, (cmp d b).isLT with
    | false, false => let (y, z) := sortPair cmp b c; [a, y, z, d]
    | false, true => let (y, z) := sortPair cmp c d; [a, y, z, b]
    | true, false => let (y, z) := sortPair cmp a b; [c, y, z, d]
    | true, true => let (y, z) := sortPair cmp a d; [c, y, z, b]

/-- **Four items in order.** -/
def sortFour (cmp : α → α → Ordering) (x₀ x₁ x₂ x₃ : α) : List α :=
  joinPairs cmp (sortPair cmp x₀ x₁) (sortPair cmp x₂ x₃)

/-- Four items in order and more: the next four are put in order and merged with them, and the
others are inserted. -/
def sortEight (cmp : α → α → Ordering) (four : List α) : List α → Option (List α)
  | x₄ :: x₅ :: x₆ :: x₇ :: rest =>
    (mergeEnds cmp four (sortFour cmp x₄ x₅ x₆ x₇)).map fun eight => insertAll cmp eight rest
  | few => some (insertAll cmp four few)

/-- **Half of the items in order.** A network sorts the first four items, of narrow items the first
eight; the others are inserted. -/
def sortHalf (narrow : Bool) (cmp : α → α → Ordering) : List α → Option (List α)
  | x₀ :: x₁ :: x₂ :: x₃ :: rest =>
    let four := sortFour cmp x₀ x₁ x₂ x₃
    if narrow then sortEight cmp four rest else some (insertAll cmp four rest)
  | few => some (insertionSort cmp few)

/-- **Both halves in order**, merged from both ends. -/
def sortHalves (narrow : Bool) (cmp : α → α → Ordering) (items : List α) : Option (List α) :=
  match sortHalf narrow cmp (items.take (items.length / 2)),
    sortHalf narrow cmp (items.drop (items.length / 2)) with
  | some left, some right => mergeEnds cmp left right
  | _, _ => none

/-- How many items at the front are in order already, or in reverse order without ties. -/
def runLength (cmp : α → α → Ordering) : List α → Nat
  | first :: second :: rest =>
    let falls := (cmp second first).isLT
    (((second :: rest).zip rest).takeWhile fun (earlier, later) =>
      (cmp later earlier).isLT == falls).length + 2
  | few => few.length

/-- Whether items are sorted by halves: they are more than twenty, not more than thirty-two, and do
not begin with a long run. -/
def isHalved (cmp : α → α → Ordering) (items : List α) : Bool :=
  decide (20 < items.length) && decide (items.length ≤ 32) &&
    decide (runLength cmp items < items.length - items.length / 2)

/-- **A sort of few items**, by halves or by insertion. It is by insertion too where sorting by
halves finds that the comparison contradicts itself, and for more items than a few: there, only what
every stable sort has in common counts. -/
def sortSmall (narrow : Bool) (cmp : α → α → Ordering) (items : List α) : List α :=
  if isHalved cmp items then (sortHalves narrow cmp items).getD (insertionSort cmp items)
  else insertionSort cmp items

/-! ## What is kept -/

/-- Two items stay these two. -/
theorem sortPair_perm (cmp : α → α → Ordering) (left right : α) :
    [(sortPair cmp left right).1, (sortPair cmp left right).2].Perm [left, right] := by
  rw [sortPair]
  split
  · exact .swap left right []
  · exact .refl _

/-- Two pairs stay these four items. -/
theorem joinPairs_perm (cmp : α → α → Ordering) (first second : α × α) :
    (joinPairs cmp first second).Perm [first.1, first.2, second.1, second.2] := by
  classical
  obtain ⟨a, b⟩ := first
  obtain ⟨c, d⟩ := second
  refine List.perm_iff_count.mpr fun item => ?_
  have hpair := fun left right => (sortPair_perm cmp left right).count_eq item
  simp only [List.count_cons, List.count_nil] at hpair
  rw [joinPairs]
  split <;> simp only [List.count_cons, List.count_nil]
  · have hmiddle := hpair b c
    omega
  · have hmiddle := hpair c d
    omega
  · have hmiddle := hpair a b
    omega
  · have hmiddle := hpair a d
    omega

/-- Four items stay these four. -/
theorem sortFour_perm (cmp : α → α → Ordering) (x₀ x₁ x₂ x₃ : α) :
    (sortFour cmp x₀ x₁ x₂ x₃).Perm [x₀, x₁, x₂, x₃] :=
  (joinPairs_perm cmp _ _).trans ((sortPair_perm cmp x₀ x₁).append (sortPair_perm cmp x₂ x₃))

/-- Four items and more stay these items. -/
theorem sortEight_perm {cmp : α → α → Ordering} {four rest sorted : List α}
    (h : sortEight cmp four rest = some sorted) : sorted.Perm (four ++ rest) := by
  rw [sortEight.eq_def] at h
  split at h
  · rename_i x₄ x₅ x₆ x₇ rest
    obtain ⟨eight, height, rfl⟩ := Option.map_eq_some_iff.mp h
    have hperm := (mergeEnds_perm height).trans ((sortFour_perm cmp x₄ x₅ x₆ x₇).append_left four)
    exact (insertAll_perm cmp eight rest).trans
      ((hperm.append_right rest).trans (.of_eq (List.append_assoc _ _ _)))
  · obtain rfl := Option.some.inj h
    exact insertAll_perm cmp four _

/-- Half of the items stay these items. -/
theorem sortHalf_perm {narrow : Bool} {cmp : α → α → Ordering} {items sorted : List α}
    (h : sortHalf narrow cmp items = some sorted) : sorted.Perm items := by
  rw [sortHalf.eq_def] at h
  split at h
  · rename_i x₀ x₁ x₂ x₃ rest
    have hfour := (sortFour_perm cmp x₀ x₁ x₂ x₃).append_right rest
    dsimp only at h
    split at h
    · exact (sortEight_perm h).trans hfour
    · obtain rfl := Option.some.inj h
      exact (insertAll_perm cmp _ rest).trans hfour
  · obtain rfl := Option.some.inj h
    exact insertAll_perm cmp [] _

/-- Both halves stay all items. -/
theorem sortHalves_perm {narrow : Bool} {cmp : α → α → Ordering} {items sorted : List α}
    (h : sortHalves narrow cmp items = some sorted) : sorted.Perm items := by
  rw [sortHalves] at h
  split at h
  · rename_i left right hleft hright
    have hhalves := (sortHalf_perm hleft).append (sortHalf_perm hright)
    rw [List.take_append_drop] at hhalves
    exact (mergeEnds_perm h).trans hhalves
  · cases h

/-- Items are sorted by insertion or by halves. -/
theorem sortSmall_cases (narrow : Bool) (cmp : α → α → Ordering) (items : List α) :
    sortSmall narrow cmp items = insertionSort cmp items ∨
      sortHalves narrow cmp items = some (sortSmall narrow cmp items) := by
  rw [sortSmall]
  split
  · cases sortHalves narrow cmp items with
    | none => exact Or.inl rfl
    | some sorted => exact Or.inr rfl
  · exact Or.inl rfl

/-- **Sorting keeps the items**, whatever the comparison is. -/
theorem sortSmall_perm (narrow : Bool) (cmp : α → α → Ordering) (items : List α) :
    (sortSmall narrow cmp items).Perm items := by
  rcases sortSmall_cases narrow cmp items with hinserted | hhalves
  · rw [hinserted]
    exact insertAll_perm cmp [] items
  · exact sortHalves_perm hhalves

/-! ## What is put in order -/

section

variable {cmp : α → α → Ordering}

/-- **Insertion sort arranges.** -/
theorem arranged_insertionSort (hcmp : IsPreorder cmp) (items : List α) :
    Arranged cmp items (insertionSort cmp items) :=
  arranged_insertAll hcmp (.self .nil) items

/-- A pair is arranged. -/
theorem arranged_sortPair (hcmp : IsPreorder cmp) (left right : α) :
    Arranged cmp [left, right] [(sortPair cmp left right).1, (sortPair cmp left right).2] := by
  have h := arranged_insertionSort hcmp [left, right]
  have hpair : insertionSort cmp [left, right]
      = [(sortPair cmp left right).1, (sortPair cmp left right).2] := by
    rw [sortPair]
    cases hlt : (cmp right left).isLT <;> simp [insertionSort, insertAll, place, hlt]
  rwa [hpair] at h

/-- Joining two pairs in order merges them. -/
theorem joinPairs_eq_merge (hcmp : IsPreorder cmp) {a b c d : α} (hab : (cmp a b).isLE = true)
    (hcd : (cmp c d).isLE = true) : joinPairs cmp (a, b) (c, d) = merge cmp [a, b] [c, d] := by
  rw [joinPairs]
  cases hca : (cmp c a).isLT with
  | false =>
    cases hdb : (cmp d b).isLT with
    | false =>
      cases hcb : (cmp c b).isLT <;> simp [sortPair, merge_cons_cons hcmp, hca, hdb, hcb]
    | true =>
      -- `c` comes before `d`, so before `b` too
      have hcb : (cmp c b).isLT = true := by
        rw [hcmp.isLT_eq_not_isLE, Bool.not_eq_true', Bool.eq_false_iff]
        intro hbc
        rw [hcmp.isLT_eq_not_isLE, hcmp.trans b c d hbc hcd] at hdb
        cases hdb
      have hdc : (cmp d c).isLT = false := by rw [hcmp.isLT_eq_not_isLE, hcd]; rfl
      simp [sortPair, merge_cons_cons hcmp, hca, hdb, hcb, hdc]
  | true =>
    cases hdb : (cmp d b).isLT with
    | false =>
      -- `d` does not come before `b`, so not before `a`
      have hda : (cmp d a).isLT = false := by
        rw [hcmp.isLT_eq_not_isLE, Bool.not_eq_false'] at hdb ⊢
        exact hcmp.trans a b d hab hdb
      have hba : (cmp b a).isLT = false := by rw [hcmp.isLT_eq_not_isLE, hab]; rfl
      simp [sortPair, merge_cons_cons hcmp, hca, hdb, hda, hba]
    | true =>
      cases hda : (cmp d a).isLT <;> simp [sortPair, merge_cons_cons hcmp, hca, hdb, hda]

/-- **Four items are arranged.** -/
theorem arranged_sortFour (hcmp : IsPreorder cmp) (x₀ x₁ x₂ x₃ : α) :
    Arranged cmp [x₀, x₁, x₂, x₃] (sortFour cmp x₀ x₁ x₂ x₃) := by
  have hfirst := arranged_sortPair hcmp x₀ x₁
  have hsecond := arranged_sortPair hcmp x₂ x₃
  have hmerged := arranged_merge hcmp hfirst hsecond
  rwa [← joinPairs_eq_merge hcmp
    (List.rel_of_pairwise_cons hfirst.ordered List.mem_cons_self)
    (List.rel_of_pairwise_cons hsecond.ordered List.mem_cons_self)] at hmerged

/-- What a merge from both ends makes of arrangements of two halves is arranged. -/
theorem arranged_mergeEnds (hcmp : IsPreorder cmp) {items items' left right merged : List α}
    (hleft : Arranged cmp items left) (hright : Arranged cmp items' right)
    (hshort : items.length ≤ items'.length) (hlong : items'.length ≤ items.length + 1)
    (h : mergeEnds cmp left right = some merged) : Arranged cmp (items ++ items') merged := by
  rw [← hleft.perm.length_eq, ← hright.perm.length_eq] at hshort hlong
  rw [mergeEnds_eq_merge hcmp hleft.ordered hright.ordered hshort hlong h]
  exact arranged_merge hcmp hleft hright

/-- Four items and more are arranged. -/
theorem arranged_sortEight (hcmp : IsPreorder cmp) {items four rest sorted : List α}
    (hfour : Arranged cmp items four) (hlength : items.length = 4)
    (h : sortEight cmp four rest = some sorted) : Arranged cmp (items ++ rest) sorted := by
  rw [sortEight.eq_def] at h
  split at h
  · rename_i x₄ x₅ x₆ x₇ rest
    obtain ⟨eight, height, rfl⟩ := Option.map_eq_some_iff.mp h
    have hmerged := arranged_mergeEnds hcmp hfour (arranged_sortFour hcmp x₄ x₅ x₆ x₇)
      (Nat.le_of_eq hlength) (hlength ▸ Nat.le_succ 4) height
    have hsorted := arranged_insertAll hcmp hmerged rest
    rwa [List.append_assoc] at hsorted
  · obtain rfl := Option.some.inj h
    exact arranged_insertAll hcmp hfour _

/-- **Half of the items are arranged.** -/
theorem arranged_sortHalf (hcmp : IsPreorder cmp) {narrow : Bool} {items sorted : List α}
    (h : sortHalf narrow cmp items = some sorted) : Arranged cmp items sorted := by
  rw [sortHalf.eq_def] at h
  split at h
  · rename_i x₀ x₁ x₂ x₃ rest
    have hfour := arranged_sortFour hcmp x₀ x₁ x₂ x₃
    dsimp only at h
    split at h
    · exact arranged_sortEight hcmp hfour rfl h
    · obtain rfl := Option.some.inj h
      exact arranged_insertAll hcmp hfour rest
  · obtain rfl := Option.some.inj h
    exact arranged_insertionSort hcmp _

/-- **Both halves are arranged.** -/
theorem arranged_sortHalves (hcmp : IsPreorder cmp) {narrow : Bool} {items sorted : List α}
    (h : sortHalves narrow cmp items = some sorted) : Arranged cmp items sorted := by
  rw [sortHalves] at h
  split at h
  · rename_i left right hleft hright
    have hmerged := arranged_mergeEnds hcmp (arranged_sortHalf hcmp hleft)
      (arranged_sortHalf hcmp hright) (by simp; omega) (by simp; omega) h
    rwa [List.take_append_drop] at hmerged
  · cases h

/-- **Sorting arranges**, whichever way it goes. -/
theorem arranged_sortSmall (hcmp : IsPreorder cmp) (narrow : Bool) (items : List α) :
    Arranged cmp items (sortSmall narrow cmp items) := by
  rcases sortSmall_cases narrow cmp items with hinserted | hhalves
  · rw [hinserted]
    exact arranged_insertionSort hcmp items
  · exact arranged_sortHalves hcmp hhalves

end

/-! ## Naturality -/

section

variable {cmp : α → α → Ordering} {cmp' : β → β → Ordering} {f : α → β}

/-- A pair goes along with a map that keeps the comparison. -/
theorem sortPair_map (h : ∀ left right, cmp' (f left) (f right) = cmp left right) (left right : α) :
    sortPair cmp' (f left) (f right) = (sortPair cmp left right).map f f := by
  rw [sortPair, sortPair, h]
  split <;> rfl

/-- Joining pairs goes along with a map that keeps the comparison. -/
theorem joinPairs_map (h : ∀ left right, cmp' (f left) (f right) = cmp left right)
    (first second : α × α) :
    joinPairs cmp' (first.map f f) (second.map f f) = (joinPairs cmp first second).map f := by
  obtain ⟨a, b⟩ := first
  obtain ⟨c, d⟩ := second
  rw [Prod.map_apply, Prod.map_apply, joinPairs, joinPairs, h, h]
  split <;> (dsimp only; rw [sortPair_map h]; rfl)

/-- Four items in order go along with a map that keeps the comparison. -/
theorem sortFour_map (h : ∀ left right, cmp' (f left) (f right) = cmp left right)
    (x₀ x₁ x₂ x₃ : α) :
    sortFour cmp' (f x₀) (f x₁) (f x₂) (f x₃) = (sortFour cmp x₀ x₁ x₂ x₃).map f := by
  rw [sortFour, sortPair_map h, sortPair_map h, joinPairs_map h]
  rfl

/-- Four items and more go along with a map that keeps the comparison. -/
theorem sortEight_map (h : ∀ left right, cmp' (f left) (f right) = cmp left right)
    (four rest : List α) :
    sortEight cmp' (four.map f) (rest.map f) = (sortEight cmp four rest).map (List.map f) := by
  have hfew := congrArg some (insertAll_map h four rest)
  rcases rest with _ | ⟨x₄, _ | ⟨x₅, _ | ⟨x₆, _ | ⟨x₇, rest⟩⟩⟩⟩
  case cons.cons.cons.cons =>
    simp only [List.map_cons, sortEight]
    rw [sortFour_map h, mergeEnds_map h, Option.map_map, Option.map_map]
    exact congrArg (Option.map · _) (funext fun eight => insertAll_map h eight rest)
  all_goals exact hfew

/-- Half of the items in order goes along with a map that keeps the comparison. -/
theorem sortHalf_map (h : ∀ left right, cmp' (f left) (f right) = cmp left right) (narrow : Bool)
    (items : List α) :
    sortHalf narrow cmp' (items.map f) = (sortHalf narrow cmp items).map (List.map f) := by
  have hfew := congrArg some (insertAll_map h [] items)
  rcases items with _ | ⟨x₀, _ | ⟨x₁, _ | ⟨x₂, _ | ⟨x₃, rest⟩⟩⟩⟩
  case cons.cons.cons.cons =>
    simp only [List.map_cons, sortHalf]
    rw [sortFour_map h]
    split
    · exact sortEight_map h _ rest
    · exact congrArg some (insertAll_map h _ rest)
  all_goals exact hfew

/-- Both halves in order go along with a map that keeps the comparison. -/
theorem sortHalves_map (h : ∀ left right, cmp' (f left) (f right) = cmp left right)
    (narrow : Bool) (items : List α) :
    sortHalves narrow cmp' (items.map f) = (sortHalves narrow cmp items).map (List.map f) := by
  rw [sortHalves, sortHalves, List.length_map, ← List.map_take, ← List.map_drop, sortHalf_map h,
    sortHalf_map h]
  cases sortHalf narrow cmp (items.take (items.length / 2)) with
  | none => rfl
  | some left =>
    cases sortHalf narrow cmp (items.drop (items.length / 2)) with
    | none => rfl
    | some right => exact mergeEnds_map h left right

/-- A run is as long after a map that keeps the comparison. -/
theorem runLength_map (h : ∀ left right, cmp' (f left) (f right) = cmp left right)
    (items : List α) : runLength cmp' (items.map f) = runLength cmp items := by
  rcases items with _ | ⟨first, _ | ⟨second, rest⟩⟩
  case cons.cons =>
    simp only [List.map_cons, runLength, h]
    rw [← List.map_cons, List.zip_map, List.takeWhile_map, List.length_map]
    simp only [Function.comp_def, Prod.map_fst, Prod.map_snd, h]
  all_goals rfl

/-- **Sorting goes along with a map** that keeps the comparison. -/
theorem sortSmall_map (h : ∀ left right, cmp' (f left) (f right) = cmp left right)
    (narrow : Bool) (items : List α) :
    sortSmall narrow cmp' (items.map f) = (sortSmall narrow cmp items).map f := by
  have hinserted : insertionSort cmp' (items.map f) = (insertionSort cmp items).map f :=
    insertAll_map h [] items
  rw [sortSmall, sortSmall, isHalved, isHalved, List.length_map, runLength_map h, hinserted,
    sortHalves_map h]
  split
  · cases sortHalves narrow cmp items <;> rfl
  · rfl

end

/-- **The sort of few items is a stable sort**, for narrow items and for others. -/
def smallSort (narrow : Bool) : StableSort α where
  run := sortSmall narrow
  perm := sortSmall_perm narrow
  arranged cmp items h := by
    have harranged := Arranged.of_attach (arranged_sortSmall h narrow items.attach)
    rwa [← sortSmall_map (fun _ _ => rfl), List.attach_map_subtype_val] at harranged
  map _ _ _ h items := sortSmall_map h narrow items

end Sorting

end DocStore
