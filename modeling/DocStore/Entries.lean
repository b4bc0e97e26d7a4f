/-! # Entries: values under string keys, in a fixed order

An ordered map kept as a list of pairs. The first pair of a key decides what the key holds;
writing to a key that is present keeps its position, writing to a new key appends it, and removing
a key keeps the order of the others. Documents, update buckets, collections and registries are all
entries of their own kind of value. -/

namespace DocStore

universe u v

/-- **Entries**: values of type `α` under string keys, in order. -/
abbrev Entries (α : Type u) : Type u := List (String × α)

namespace Entries

variable {α : Type u} {β : Type v}

/-- The value under `key`, if there is one. -/
def get? : Entries α → String → Option α
  | [], _ => none
  | (k, value) :: rest, key => if k = key then some value else get? rest key

/-- Whether `key` is present. -/
def contains (entries : Entries α) (key : String) : Bool := (get? entries key).isSome

/-- The keys, in order. -/
def keys (entries : Entries α) : List String := entries.map Prod.fst

/-- Write `value` under `key`: in place if the key is present, at the end otherwise. -/
def insert : Entries α → String → α → Entries α
  | [], key, value => [(key, value)]
  | (k, old) :: rest, key, value =>
    if k = key then (key, value) :: rest else (k, old) :: insert rest key value

/-- Write `value` under `key` if a condition holds. -/
def insertIf (entries : Entries α) (condition : Bool) (key : String) (value : α) : Entries α :=
  if condition then insert entries key value else entries

/-- Drop `key`; the others keep their order. -/
def remove (entries : Entries α) (key : String) : Entries α :=
  entries.filter fun entry => decide (entry.1 ≠ key)

/-- Write all of `additions`, one after the other. -/
def insertAll (entries additions : Entries α) : Entries α :=
  additions.foldl (fun acc entry => insert acc entry.1 entry.2) entries

/-- Entries of a list of pairs: a repeated key keeps its first position and its last value. -/
def ofPairs (pairs : List (String × α)) : Entries α := insertAll [] pairs

@[simp] theorem get?_nil (key : String) : get? ([] : Entries α) key = none := rfl

theorem get?_cons (k : String) (value : α) (rest : Entries α) (key : String) :
    get? ((k, value) :: rest) key = if k = key then some value else get? rest key := rfl

@[simp] theorem get?_insert_self (entries : Entries α) (key : String) (value : α) :
    get? (insert entries key value) key = some value := by
  induction entries with
  | nil => simp [insert, get?]
  | cons entry rest ih =>
    obtain ⟨k, old⟩ := entry
    by_cases h : k = key <;> simp [insert, get?, h, ih]

/-- Writing one key leaves what every other key holds. -/
theorem get?_insert_of_ne (entries : Entries α) {key other : String} (value : α)
    (h : other ≠ key) : get? (insert entries key value) other = get? entries other := by
  induction entries with
  | nil => simp [insert, get?, Ne.symm h]
  | cons entry rest ih =>
    obtain ⟨k, old⟩ := entry
    by_cases hk : k = key
    · subst hk; simp [insert, get?, Ne.symm h]
    · simp only [insert, hk, if_false, get?_cons, ih]

@[simp] theorem get?_remove_self (entries : Entries α) (key : String) :
    get? (remove entries key) key = none := by
  induction entries with
  | nil => rfl
  | cons entry rest ih =>
    obtain ⟨k, old⟩ := entry
    by_cases h : k = key
    · simpa [remove, h] using ih
    · simpa [remove, h, get?] using ih

/-- Removing one key leaves what every other key holds. -/
theorem get?_remove_of_ne (entries : Entries α) {key other : String} (h : other ≠ key) :
    get? (remove entries key) other = get? entries other := by
  induction entries with
  | nil => rfl
  | cons entry rest ih =>
    obtain ⟨k, old⟩ := entry
    by_cases hk : k = key
    · subst hk
      simpa [remove, get?, Ne.symm h] using ih
    · by_cases ho : k = other
      · simp [remove, get?, ho, h]
      · simpa [remove, get?, hk, ho] using ih

end Entries

end DocStore
