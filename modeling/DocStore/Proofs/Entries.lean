import DocStore.Entries
import Mathlib.Data.List.Basic

/-! # Laws of entries

What a key holds after each way of changing entries: one write, one removal, a sequence of writes
or removals, and two lists joined. Every law is about `Entries.get?`, so a document is described by
what its fields hold and not by where they stand. -/

namespace DocStore

namespace Entries

universe u

variable {α : Type u}

/-! ## One write and one removal -/

/-- What a key holds after a write. -/
theorem get?_insert (entries : Entries α) (key other : String) (value : α) :
    get? (insert entries key value) other = if other = key then some value else get? entries other := by
  by_cases h : other = key
  · rw [if_pos h, h, get?_insert_self]
  · rw [if_neg h, get?_insert_of_ne entries value h]

/-- What a key holds after a removal. -/
theorem get?_remove (entries : Entries α) (key other : String) :
    get? (remove entries key) other = if other = key then none else get? entries other := by
  by_cases h : other = key
  · rw [if_pos h, h, get?_remove_self]
  · rw [if_neg h, get?_remove_of_ne entries h]

/-- What a key holds after a write under a condition. -/
theorem get?_insertIf (entries : Entries α) (condition : Bool) (key other : String) (value : α) :
    get? (insertIf entries condition key value) other
      = if condition = true ∧ other = key then some value else get? entries other := by
  cases condition with
  | true => rw [insertIf, if_pos rfl, get?_insert]; simp
  | false => simp [insertIf]

/-! ## Presence -/

@[simp] theorem keys_nil : keys ([] : Entries α) = [] := rfl

@[simp] theorem keys_cons (entry : String × α) (rest : Entries α) :
    keys (entry :: rest) = entry.1 :: keys rest := rfl

/-- A key holds nothing if and only if it is absent. -/
theorem get?_eq_none_iff (entries : Entries α) (key : String) :
    get? entries key = none ↔ key ∉ keys entries := by
  induction entries with
  | nil => simp
  | cons entry rest ih =>
    obtain ⟨k, value⟩ := entry
    by_cases h : k = key
    · simp [get?_cons, h]
    · simp [get?_cons, h, ih, Ne.symm h]

/-- What a key holds is one of its entries. -/
theorem mem_of_get? {entries : Entries α} {key : String} {value : α}
    (h : get? entries key = some value) : (key, value) ∈ entries := by
  induction entries with
  | nil => simp at h
  | cons entry rest ih =>
    obtain ⟨k, first⟩ := entry
    rw [get?_cons] at h
    by_cases hk : k = key
    · rw [if_pos hk, Option.some.injEq] at h
      rw [hk, h]
      exact List.mem_cons_self
    · rw [if_neg hk] at h
      exact List.mem_cons_of_mem _ (ih h)

/-- A key that occurs once holds its only entry. -/
theorem get?_of_mem {entries : Entries α} {key : String} {value : α}
    (hnodup : (keys entries).Nodup) (h : (key, value) ∈ entries) :
    get? entries key = some value := by
  induction entries with
  | nil => cases h
  | cons entry rest ih =>
    obtain ⟨k, first⟩ := entry
    rw [keys_cons, List.nodup_cons] at hnodup
    rcases List.mem_cons.mp h with heq | hlater
    · cases heq
      rw [get?_cons, if_pos rfl]
    · have hne : k ≠ key := by
        rintro rfl
        exact hnodup.1 (List.mem_map.mpr ⟨_, hlater, rfl⟩)
      rw [get?_cons, if_neg hne, ih hnodup.2 hlater]

/-- A key is present if and only if it is one of the keys. -/
theorem contains_iff (entries : Entries α) (key : String) :
    contains entries key = true ↔ key ∈ keys entries := by
  rw [contains, Option.isSome_iff_ne_none, Ne, get?_eq_none_iff, not_not]

/-- A write adds its key. -/
theorem mem_keys_insert (entries : Entries α) (key other : String) (value : α) :
    other ∈ keys (insert entries key value) ↔ other = key ∨ other ∈ keys entries := by
  have h := get?_insert entries key other value
  by_cases hk : other = key
  · rw [if_pos hk] at h
    have present : other ∈ keys (insert entries key value) := by
      by_contra absent
      rw [(get?_eq_none_iff _ _).mpr absent] at h
      exact absurd h (by simp)
    exact ⟨fun _ => Or.inl hk, fun _ => present⟩
  · rw [if_neg hk] at h
    rw [← not_iff_not, ← get?_eq_none_iff, h, get?_eq_none_iff]
    simp [hk]

/-- A write under a condition adds its key under the condition. -/
theorem mem_keys_insertIf (entries : Entries α) (condition : Bool) (key other : String)
    (value : α) :
    other ∈ keys (insertIf entries condition key value)
      ↔ (condition = true ∧ other = key) ∨ other ∈ keys entries := by
  cases condition with
  | true => rw [insertIf, if_pos rfl, mem_keys_insert]; simp
  | false => simp [insertIf]

/-- A write adds one entry if its key is absent, and none otherwise. -/
theorem length_insert (entries : Entries α) (key : String) (value : α) :
    (insert entries key value).length
      = if key ∈ keys entries then entries.length else entries.length + 1 := by
  induction entries with
  | nil => rfl
  | cons entry rest ih =>
    obtain ⟨k, old⟩ := entry
    rw [insert, keys_cons]
    by_cases hk : k = key
    · rw [if_pos hk, if_pos (by rw [hk]; exact List.mem_cons_self), List.length_cons,
        List.length_cons]
    · rw [if_neg hk, List.length_cons, ih]
      by_cases hmem : key ∈ keys rest
      · rw [if_pos hmem, if_pos (List.mem_cons_of_mem _ hmem), List.length_cons]
      · have habsent : key ∉ k :: keys rest := by
          rw [List.mem_cons, not_or]
          exact ⟨Ne.symm hk, hmem⟩
        rw [if_neg hmem, if_neg habsent, List.length_cons]

/-- A write goes past entries that do not have its key. -/
theorem insert_append {first : Entries α} {key : String} (h : key ∉ keys first)
    (second : Entries α) (value : α) :
    insert (first ++ second) key value = first ++ insert second key value := by
  induction first with
  | nil => rfl
  | cons entry rest ih =>
    obtain ⟨k, old⟩ := entry
    rw [keys_cons, List.mem_cons, not_or] at h
    rw [List.cons_append, insert, if_neg (Ne.symm h.1), ih h.2, List.cons_append]

/-- A write to a new key appends it. -/
theorem insert_of_absent {entries : Entries α} {key : String} (h : key ∉ keys entries) (value : α) :
    insert entries key value = entries ++ [(key, value)] := by
  have happend := insert_append h [] value
  rwa [List.append_nil] at happend

/-- A write under a condition goes past entries that do not have its key. -/
theorem insertIf_append {first : Entries α} {condition : Bool} {key : String}
    (h : condition = true → key ∉ keys first) (second : Entries α) (value : α) :
    insertIf (first ++ second) condition key value = first ++ insertIf second condition key value := by
  cases condition with
  | true => exact insert_append (h rfl) second value
  | false => rfl

/-- A write keeps the keys different. -/
theorem nodup_keys_insert {entries : Entries α} (h : (keys entries).Nodup) (key : String)
    (value : α) : (keys (insert entries key value)).Nodup := by
  induction entries with
  | nil => simp [insert]
  | cons entry rest ih =>
    obtain ⟨k, old⟩ := entry
    rw [keys_cons, List.nodup_cons] at h
    rw [insert]
    by_cases hk : k = key
    · rw [if_pos hk, keys_cons, List.nodup_cons, ← hk]
      exact h
    · rw [if_neg hk, keys_cons, List.nodup_cons, mem_keys_insert, not_or]
      exact ⟨⟨hk, h.1⟩, ih h.2⟩

/-- A write under a condition keeps the keys different. -/
theorem nodup_keys_insertIf {entries : Entries α} (h : (keys entries).Nodup) (condition : Bool)
    (key : String) (value : α) : (keys (insertIf entries condition key value)).Nodup := by
  rw [insertIf]
  split
  · exact nodup_keys_insert h key value
  · exact h

/-- A removal drops its key and no other. -/
theorem keys_remove (entries : Entries α) (key : String) :
    keys (remove entries key) = (keys entries).filter fun other => decide (other ≠ key) := by
  rw [keys, keys, remove, List.filter_map]
  rfl

theorem nodup_keys_remove {entries : Entries α} (h : (keys entries).Nodup) (key : String) :
    (keys (remove entries key)).Nodup := by
  rw [keys_remove]
  exact h.filter _

/-- The removal of an absent key changes nothing. -/
theorem remove_of_absent {entries : Entries α} {key : String} (h : key ∉ keys entries) :
    remove entries key = entries := by
  refine List.filter_eq_self.mpr fun entry hmem => ?_
  rw [decide_eq_true_eq]
  rintro rfl
  exact h (List.mem_map_of_mem hmem)

/-- Entries whose keys differ are one of them and the others. -/
theorem perm_cons_remove {entries : Entries α} {key : String} {value : α}
    (hnodup : (keys entries).Nodup) (h : get? entries key = some value) :
    entries.Perm ((key, value) :: remove entries key) := by
  induction entries with
  | nil => cases h
  | cons entry rest ih =>
    obtain ⟨k, first⟩ := entry
    rw [keys_cons, List.nodup_cons] at hnodup
    rw [get?_cons] at h
    by_cases hk : k = key
    · rw [if_pos hk, Option.some.injEq] at h
      subst hk h
      have hrest : remove ((k, first) :: rest) k = rest := by
        rw [remove, List.filter_cons_of_neg (by simp)]
        exact remove_of_absent hnodup.1
      rw [hrest]
    · rw [if_neg hk] at h
      have hrest : remove ((k, first) :: rest) key = (k, first) :: remove rest key :=
        List.filter_cons_of_pos (by simpa using hk)
      rw [hrest]
      exact ((ih hnodup.2 h).cons _).trans (List.Perm.swap _ _ _)

/-- A removal only drops entries. -/
theorem mem_of_mem_remove {entries : Entries α} {key : String} {entry : String × α}
    (h : entry ∈ remove entries key) : entry ∈ entries :=
  (List.mem_filter.mp h).1

/-! ## Sequences of writes and removals -/

/-- What a key holds in two lists joined. -/
theorem get?_append (first second : Entries α) (key : String) :
    get? (first ++ second) key = (get? first key).or (get? second key) := by
  induction first with
  | nil => simp
  | cons entry rest ih =>
    obtain ⟨k, value⟩ := entry
    by_cases h : k = key
    · simp [get?_cons, h]
    · simp [get?_cons, h, ih]

/-- What a key holds after several removals. -/
theorem get?_foldl_remove (removed : List String) (entries : Entries α) (key : String) :
    get? (removed.foldl remove entries) key = if key ∈ removed then none else get? entries key := by
  induction removed generalizing entries with
  | nil => simp
  | cons first rest ih =>
    rw [List.foldl_cons, ih, get?_remove]
    -- whether a later removal drops the key decides first
    by_cases hr : key ∈ rest
    · simp [hr]
    · by_cases hf : key = first <;> simp [hr, hf]

/-- Several removals keep the entries of all other keys. -/
theorem foldl_remove_eq_filter (removed : List String) (entries : Entries α) :
    removed.foldl remove entries = entries.filter fun entry => decide (entry.1 ∉ removed) := by
  induction removed generalizing entries with
  | nil => simp
  | cons first rest ih =>
    rw [List.foldl_cons, ih, remove, List.filter_filter]
    refine List.filter_congr fun entry _ => ?_
    simp [Bool.and_comm]

/-- Removals do not depend on the direction in which entries are read. -/
theorem reverse_foldl_remove (removed : List String) (entries : Entries α) :
    (removed.foldl remove entries).reverse = removed.foldl remove entries.reverse := by
  induction removed generalizing entries with
  | nil => rfl
  | cons first rest ih =>
    rw [List.foldl_cons, List.foldl_cons, ih, remove, remove, List.filter_reverse]

/-- Several removals only drop entries. -/
theorem mem_of_mem_foldl_remove {removed : List String} {entries : Entries α}
    {entry : String × α} (h : entry ∈ removed.foldl remove entries) : entry ∈ entries := by
  induction removed generalizing entries with
  | nil => exact h
  | cons first rest ih => exact mem_of_mem_remove (ih h)

/-- Writing other keys leaves what a key holds. -/
theorem get?_insertAll_of_absent (entries additions : Entries α) {key : String}
    (h : key ∉ keys additions) : get? (insertAll entries additions) key = get? entries key := by
  induction additions generalizing entries with
  | nil => rfl
  | cons entry rest ih =>
    rw [keys_cons, List.mem_cons, not_or] at h
    -- the first write changes the entries that the others start from, but not at this key
    rw [insertAll, List.foldl_cons]
    exact (ih (insert entries entry.1 entry.2) h.2).trans
      (get?_insert_of_ne entries entry.2 h.1)

/-- Of several writes the last one counts. -/
theorem get?_insertAll (entries additions : Entries α) (key : String) :
    get? (insertAll entries additions) key
      = (get? additions.reverse key).or (get? entries key) := by
  induction additions generalizing entries with
  | nil => rfl
  | cons entry rest ih =>
    rw [insertAll, List.foldl_cons, List.reverse_cons, get?_append, Option.or_assoc]
    refine (ih (insert entries entry.1 entry.2)).trans ?_
    rw [get?_insert, get?_cons, get?_nil]
    by_cases h : key = entry.1
    · rw [if_pos h, if_pos h.symm, Option.some_or]
    · rw [if_neg h, if_neg (Ne.symm h), Option.none_or]

/-- Of writes to a key that is written once, that one counts. -/
theorem get?_insertAll_insert_of_absent (entries additions : Entries α) {key : String} {value : α}
    (h : key ∉ keys additions) :
    get? (insertAll entries (insert additions key value)) key = some value := by
  induction additions generalizing entries with
  | nil => exact get?_insert_self entries key value
  | cons entry rest ih =>
    obtain ⟨k, old⟩ := entry
    rw [keys_cons, List.mem_cons, not_or] at h
    -- the new key goes behind all additions, so the first of them is written before it
    rw [insert, if_neg (Ne.symm h.1)]
    exact ih (insert entries k old) h.2

/-- Where the keys are distinct, each of several writes counts. -/
theorem get?_insertAll_of_mem (entries : Entries α) {additions : Entries α} {key : String}
    {value : α} (hnodup : (keys additions).Nodup) (h : (key, value) ∈ additions) :
    get? (insertAll entries additions) key = some value := by
  have hreversed : (keys additions.reverse).Nodup := by
    rw [keys, List.map_reverse]
    exact (List.reverse_perm (keys additions)).symm.nodup hnodup
  rw [get?_insertAll, get?_of_mem hreversed (List.mem_reverse.mpr h), Option.some_or]

/-- Writing what a key holds changes nothing. -/
theorem insert_of_get? {entries : Entries α} {key : String} {value : α}
    (h : get? entries key = some value) : insert entries key value = entries := by
  induction entries with
  | nil => cases h
  | cons entry rest ih =>
    obtain ⟨k, old⟩ := entry
    rw [get?_cons] at h
    rw [insert]
    by_cases hk : k = key
    · rw [if_pos hk] at h ⊢
      rw [Option.some.injEq] at h
      rw [hk, h]
    · rw [if_neg hk] at h ⊢
      rw [ih h]

/-- Of two writes under one key, the later one stands. -/
theorem insert_insert (entries : Entries α) (key : String) (value later : α) :
    insert (insert entries key value) key later = insert entries key later := by
  induction entries with
  | nil => simp [insert]
  | cons entry rest ih =>
    obtain ⟨k, old⟩ := entry
    by_cases h : k = key <;> simp [insert, h, ih]

/-- Writing what all of several keys hold changes nothing. -/
theorem insertAll_of_get? {entries additions : Entries α}
    (h : ∀ entry ∈ additions, get? entries entry.1 = some entry.2) :
    insertAll entries additions = entries := by
  induction additions with
  | nil => rfl
  | cons entry rest ih =>
    rw [insertAll, List.foldl_cons, insert_of_get? (h entry List.mem_cons_self)]
    exact ih fun later hmem => h later (List.mem_cons_of_mem _ hmem)

end Entries

end DocStore
