import DocStore.Filter.Compile
import DocStore.Proofs.Entries
import DocStore.Proofs.Outcome
import DocStore.Proofs.StableSort

/-! # What a compiled order means

An order list compares two documents entry by entry, and the first entry that tells them apart
decides. Compilation writes it as a document, which holds each storage name once: of the entries of
one field, under whichever of its names, the first one is kept. The others never decide, because
they are reached only where the first one is a tie (`Sorting.compareBy_drop`), so the compiled order
compares and sorts as the whole list does (`Filter.sortSpec_compares_as_order`). -/

namespace DocStore

/-- A comparison **in a direction**: from high to low it is turned round. -/
def Direction.turn : Direction → Ordering → Ordering
  | .ascending, ordering => ordering
  | .descending, ordering => ordering.swap

@[simp] theorem Direction.turn_eq_eq_iff {direction : Direction} {ordering : Ordering} :
    direction.turn ordering = .eq ↔ ordering = .eq := by
  cases direction <;> cases ordering <;> simp [turn]

namespace Sorting

/-- Order of two documents by one storage name, in a direction. -/
def compareKey (left right : Document) (key : String × Direction) : Ordering :=
  key.2.turn (Value.orderStored (Entries.get? left key.1) (Entries.get? right key.1))

/-- **The lexicographic order** of two documents by a list of storage names with directions, which
may repeat a name. -/
def compareBy (left right : Document) : List (String × Direction) → Ordering
  | [] => .eq
  | key :: rest => (compareKey left right key).then (compareBy left right rest)

/-- The sort specification of storage names with directions. -/
def specOf (keys : List (String × Direction)) : Document :=
  keys.map fun key => (key.1, .int32 key.2.sign)

variable {left right : Document} {keys : List (String × Direction)}

/-- A number turns an order round just as the direction that it stands for. -/
theorem isDescending_sign (direction : Direction) (ordering : Ordering) :
    (if isDescending (.int32 direction.sign) then ordering.swap else ordering)
      = direction.turn ordering := by
  cases direction <;> rfl

/-- **A sort specification compares** by the names and directions that it is written from. -/
theorem compareDocuments_specOf (left right : Document) (keys : List (String × Direction)) :
    compareDocuments left right (specOf keys) = compareBy left right keys := by
  induction keys with
  | nil => rfl
  | cons key rest ih =>
    rw [specOf, List.map_cons, compareDocuments, isDescending_sign, compareBy, ← ih]
    rfl

theorem compareBy_append (left right : Document) (first second : List (String × Direction)) :
    compareBy left right (first ++ second)
      = (compareBy left right first).then (compareBy left right second) := by
  induction first with
  | nil => rfl
  | cons key rest ih => rw [List.cons_append, compareBy, compareBy, ih, Ordering.then_assoc]

/-- In a tie every entry is a tie. -/
theorem compareKey_of_tie (h : compareBy left right keys = .eq) :
    ∀ key ∈ keys, compareKey left right key = .eq := by
  induction keys with
  | nil => simp
  | cons key rest ih =>
    rw [compareBy, Ordering.then_eq_eq] at h
    exact List.forall_mem_cons.mpr ⟨h.1, ih h.2⟩

/-- A name that compared as a tie is a tie in either direction. -/
theorem compareKey_of_same_name {key other : String × Direction} (hname : key.1 = other.1)
    (h : compareKey left right key = .eq) : compareKey left right other = .eq := by
  rw [compareKey, Direction.turn_eq_eq_iff] at h ⊢
  rw [← hname]
  exact h

/-- **A repeated name never decides**: it is reached only where its first occurrence is a tie. -/
theorem compareBy_drop {before : List (String × Direction)} {key : String × Direction}
    (h : key.1 ∈ before.map Prod.fst) (left right : Document)
    (after : List (String × Direction)) :
    compareBy left right (before ++ key :: after) = compareBy left right (before ++ after) := by
  rw [compareBy_append, compareBy_append, compareBy]
  cases htie : compareBy left right before with
  | eq =>
    obtain ⟨earlier, hearlier, hname⟩ := List.mem_map.mp h
    have hkey := compareKey_of_same_name hname (compareKey_of_tie htie earlier hearlier)
    rw [hkey]
    rfl
  | lt => rfl
  | gt => rfl

theorem keys_specOf (keys : List (String × Direction)) :
    Entries.keys (specOf keys) = keys.map Prod.fst := by
  rw [Entries.keys, specOf, List.map_map]
  rfl

end Sorting

namespace Filter

open Sorting (compareBy specOf)

/-- **The storage names of an order list**, with their directions. -/
def orderKeys (schema : Schema) (order : List (String × Direction)) : List (String × Direction) :=
  order.filterMap fun entry =>
    (schema.resolve entry.1).toOption.map fun info => (info.storageName, entry.2)

variable {schema : Schema}

theorem orderKeys_cons {name : String} {info : FieldInfo} (hinfo : schema.resolve name = .ok info)
    (direction : Direction) (rest : List (String × Direction)) :
    orderKeys schema ((name, direction) :: rest)
      = (info.storageName, direction) :: orderKeys schema rest := by
  simp [orderKeys, hinfo, Except.toOption]

/-- **A compiled order** is written from some of the storage names, which compare two documents as
all of them do. -/
theorem exists_keys_of_compileOrder {keys order : List (String × Direction)} {spec : Document}
    (h : compileOrder schema (specOf keys) order = .ok spec) :
    (∀ entry ∈ order, ∃ info, schema.resolve entry.1 = .ok info) ∧
    ∃ kept, spec = specOf kept ∧ ∀ left right,
      compareBy left right kept = compareBy left right (keys ++ orderKeys schema order) := by
  -- `keys` are the names written so far, so the claim has to hold whichever these are
  induction order generalizing keys with
  | nil =>
    cases h
    refine ⟨List.forall_mem_nil _, keys, rfl, fun left right => ?_⟩
    rw [orderKeys, List.filterMap_nil, List.append_nil]
  | cons entry rest ih =>
    obtain ⟨name, direction⟩ := entry
    rw [compileOrder_cons] at h
    obtain ⟨info, hinfo, hrest⟩ := Outcome.bind_eq_ok_iff.mp h
    by_cases hrepeated : info.storageName ∈ keys.map Prod.fst
    · -- the name is written already: the entry is skipped, and it never decides
      have hcontains : Entries.contains (specOf keys) info.storageName = true := by
        rwa [Entries.contains_iff, Sorting.keys_specOf]
      rw [if_pos hcontains] at hrest
      obtain ⟨hresolved, kept, hspec, hkept⟩ := ih hrest
      refine ⟨List.forall_mem_cons.mpr ⟨⟨info, hinfo⟩, hresolved⟩, kept, hspec,
        fun left right => ?_⟩
      rw [hkept, orderKeys_cons hinfo, Sorting.compareBy_drop hrepeated]
    · -- a new name goes to the end, where it stands in the list too
      have habsent : info.storageName ∉ Entries.keys (specOf keys) := by
        rwa [Sorting.keys_specOf]
      have hwritten : Entries.insert (specOf keys) info.storageName (.int32 direction.sign)
          = specOf (keys ++ [(info.storageName, direction)]) := by
        rw [Entries.insert_of_absent habsent, specOf, specOf, List.map_append]
        rfl
      rw [if_neg (by rwa [Entries.contains_iff]), hwritten] at hrest
      obtain ⟨hresolved, kept, hspec, hkept⟩ := ih hrest
      refine ⟨List.forall_mem_cons.mpr ⟨⟨info, hinfo⟩, hresolved⟩, kept, hspec,
        fun left right => ?_⟩
      rw [hkept, orderKeys_cons hinfo, List.append_assoc, List.singleton_append]

/-- The sort specification of compiled options is the compiled order. -/
theorem sortSpec_of_compileOptions {filter : Filter} {options : QueryOptions}
    (h : filter.compileOptions schema = .ok options) :
    filter.sortSpec schema = .ok options.sort := by
  obtain ⟨skip, -, hlimited⟩ := Outcome.bind_eq_ok_iff.mp h
  obtain ⟨limit, -, hsorted⟩ := Outcome.bind_eq_ok_iff.mp hlimited
  obtain ⟨sort, hsort, hprojected⟩ := Outcome.bind_eq_ok_iff.mp hsorted
  obtain ⟨projection, -, hall⟩ := Outcome.bind_eq_ok_iff.mp hprojected
  cases hall
  exact hsort

section

variable [Runtime]

/-- Options sort by the names that their order compares by; to name no order is to sort by no
names. -/
theorem arrange_eq_run (options : QueryOptions) {keys : List (String × Direction)}
    (h : ∀ left right, Sorting.compareDocuments left right (options.sort.getD [])
      = compareBy left right keys) (docs : List Document) :
    options.arrange docs
      = Runtime.documents.run (fun left right => compareBy left right keys) docs := by
  simp only [← h]
  rw [QueryOptions.arrange]
  cases options.sort with
  | none => exact (Sorting.sort_nil docs).symm
  | some spec => rfl

/-- **A compiled order is the whole order list.** Every entry of an order list that compiles names a
field of the schema, by its logical name or its storage name. Two documents compare by the compiled
order as they do entry by entry by the whole list, each entry comparing what they hold under its
storage name in its direction, however often and in whichever directions a field is named. So the
options of a filter put documents in the order of the whole list, and dropping what names a field
again changes no sort. -/
theorem sortSpec_compares_as_order {filter : Filter} {sort : Option Document}
    (h : filter.sortSpec schema = .ok sort) :
    (∀ entry ∈ filter.order, ∃ info, schema.resolve entry.1 = .ok info) ∧
    (∀ left right, Sorting.compareDocuments left right (sort.getD [])
      = compareBy left right (orderKeys schema filter.order)) ∧
    ∀ options, filter.compileOptions schema = .ok options → ∀ docs,
      options.arrange docs = Runtime.documents.run
        (fun left right => compareBy left right (orderKeys schema filter.order)) docs := by
  have hcompares : (∀ entry ∈ filter.order, ∃ info, schema.resolve entry.1 = .ok info) ∧
      ∀ left right, Sorting.compareDocuments left right (sort.getD [])
        = compareBy left right (orderKeys schema filter.order) := by
    rw [sortSpec] at h
    split at h
    · rename_i hempty
      cases h
      rw [List.isEmpty_iff.mp hempty]
      exact ⟨List.forall_mem_nil _, fun _ _ => rfl⟩
    · obtain ⟨spec, hspec, rfl⟩ := Outcome.map_eq_ok_iff.mp h
      have hcompiled : compileOrder schema (specOf []) filter.order = .ok spec := hspec
      obtain ⟨hresolved, kept, rfl, hkept⟩ := exists_keys_of_compileOrder hcompiled
      refine ⟨hresolved, fun left right => ?_⟩
      rw [Option.getD_some, Sorting.compareDocuments_specOf, hkept, List.nil_append]
  refine ⟨hcompares.1, hcompares.2, fun options hoptions docs => ?_⟩
  have hsort : sort = options.sort :=
    Except.ok.inj (h.symm.trans (sortSpec_of_compileOptions hoptions))
  exact arrange_eq_run options (hsort ▸ hcompares.2) docs

end

/-- Notes by title and then by views, with the title named again in both directions and under both
of its names: what is kept of the order is its first mention, and the two notes of one title stand
by their views. -/
theorem sortSpec_compares_as_order_notes :
    ∃ (schema : Schema) (filter : Filter) (options : QueryOptions) (few many last : Document),
      filter.order = [("title", .ascending), ("h", .descending), ("views", .descending),
        ("title", .descending)] ∧
      few = [("h", .string "a"), ("views", .int32 1)] ∧
      many = [("h", .string "a"), ("views", .int32 2)] ∧ last = [("h", .string "b")] ∧
      filter.sortSpec schema = .ok (some [("h", .int32 1), ("views", .int32 (-1))]) ∧
      filter.compileOptions schema = .ok options ∧
      Sorting.compareDocuments few last [("h", .int32 1), ("views", .int32 (-1))]
        = compareBy few last [("h", .ascending), ("h", .descending), ("views", .descending),
          ("h", .descending)] ∧
      compareBy few many (orderKeys schema filter.order) = .gt ∧
      options.arrange [last, few, many] = [many, few, last] := by
  let schema : Schema :=
    ⟨"Note", [("id", ⟨"_id", .objectId⟩), ("title", ⟨"h", .string⟩), ("views", ⟨"views", .int64⟩)]⟩
  let filter : Filter := { order := [("title", .ascending), ("h", .descending),
    ("views", .descending), ("title", .descending)] }
  let few : Document := [("h", .string "a"), ("views", .int32 1)]
  let many : Document := [("h", .string "a"), ("views", .int32 2)]
  let last : Document := [("h", .string "b")]
  obtain ⟨options, hoptions⟩ : ∃ options, filter.compileOptions schema = .ok options := ⟨_, rfl⟩
  have hsort : filter.sortSpec schema = .ok (some [("h", .int32 1), ("views", .int32 (-1))]) := rfl
  obtain ⟨-, hcompares, harranged⟩ := sortSpec_compares_as_order hsort
  exact ⟨schema, filter, options, few, many, last, rfl, rfl, rfl, rfl, hsort, hoptions,
    hcompares few last, rfl, (harranged options hoptions _).trans rfl⟩

end Filter

end DocStore
