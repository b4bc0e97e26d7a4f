import DocStore.Proofs.KeyQueries
import DocStore.Proofs.ListWrites
import DocStore.Proofs.StableSort

/-! # The document that comes first

Reading the first match sorts copies of the matching documents (`Collection.findOne_of_evaluates`),
and updating the first match sorts their positions (`Collection.first?_eq_head?_sortPositions`).
These are two sorts, so they may come to different documents where the order contradicts itself.
Where the sort specification is a preorder on the matches, they come to the same one, the earliest
of the least ones (`Collection.isFirst_of_head?_sortPositions`). -/

namespace DocStore

namespace Collection

variable {query : Document} {sort : Option Document} {docs : List Document} {position : Nat}
  {doc : Document}

variable [Runtime]

/-- **The first match** of a query by a sort specification: of the matches that come before no other
it is the one that was stored first. -/
structure IsFirst (query spec : Document) (docs : List Document) (position : Nat)
    (doc : Document) : Prop where
  /-- It is stored at the position. -/
  stored : docs[position]? = some doc
  /-- It matches. -/
  holds : Query.holds doc query = .ok true
  /-- No match comes before it. -/
  least : ∀ other ∈ docs, Query.holds other query = .ok true →
    (Sorting.compareDocuments doc other spec).isLE = true
  /-- It comes before every match that was stored earlier. -/
  earliest : ∀ (index : Nat) (other : Document), index < position → docs[index]? = some other →
    Query.holds other query = .ok true → Sorting.compareDocuments doc other spec = .lt

/-- The matches without their positions. -/
theorem map_snd_located (query : Document) (start : Nat) (docs : List Document) :
    (located query start docs).map Prod.snd = docs.filter (Query.accepts query) := by
  induction docs generalizing start with
  | nil => rfl
  | cons doc rest ih =>
    rw [located_cons, List.filter_cons]
    split
    · rw [List.map_cons, ih]
    · exact ih _

/-- **What is updated** is the first of the sorted positions; to name no order is to sort by no
fields. -/
theorem first?_eq_head?_sortPositions (h : Query.Evaluates query docs) (sort : Option Document) :
    first? query sort docs
      = .ok (Sorting.sortPositions (sort.getD []) (located query 0 docs)).head? := by
  rw [first?, locate_of_holds h.holds]
  refine congrArg Except.ok ?_
  cases sort with
  | none =>
    rw [Option.getD_none, Sorting.sortPositions_nil]
  | some spec => rfl

/-- Of a page of one document that leaves out none, the first document is seen. -/
theorem head?_present (options : QueryOptions) (found : List Document) :
    (QueryOptions.present { options with skip := none, limit := some 1 } found).head?
      = (options.arrange found).head?.map options.view := by
  have hpage : QueryOptions.present { options with skip := none, limit := some 1 } found
      = ((options.arrange found).take 1).map options.view := rfl
  rw [hpage, List.head?_map, List.head?_take, if_neg Nat.one_ne_zero]

/-- **What is read** is the first of the sorted matches. -/
theorem findOne_of_evaluates (h : Query.Evaluates query docs) (options : QueryOptions) :
    findOne query { options with skip := none } docs
      = .ok ((Sorting.sort (options.sort.getD []) (docs.filter (Query.accepts query))).head?.map
          options.view) := by
  rw [findOne, find, select_of_evaluates h]
  refine congrArg Except.ok ((head?_present options _).trans ?_)
  rw [QueryOptions.arrange]
  cases options.sort with
  | none => rw [Option.getD_none, Sorting.sort_nil]
  | some spec => rfl

/-- One of some documents comes first when they are sorted. -/
theorem exists_head?_sort (spec : Document) (hmem : doc ∈ docs) :
    ∃ first ∈ docs, (Sorting.sort spec docs).head? = some first := by
  have hperm := Sorting.sort_perm spec docs
  cases hsort : Sorting.sort spec docs with
  | nil =>
    rw [hsort] at hperm
    rw [← hperm.nil_eq] at hmem
    cases hmem
  | cons first later => exact ⟨first, hperm.mem_iff.mp (hsort ▸ List.mem_cons_self), rfl⟩

/-- The positions of the matches increase. -/
theorem pairwise_located (query : Document) (docs : List Document) :
    (located query 0 docs).Pairwise fun earlier later => earlier.1 < later.1 := by
  have hindices : (docs.zipIdx 0).Pairwise fun earlier later => earlier.2 < later.2 := by
    rw [← List.pairwise_map (f := Prod.snd), List.zipIdx_map_snd]
    exact List.pairwise_lt_range'
  rw [located, List.pairwise_map]
  exact hindices.filter _

/-- A match is one of the documents that the query accepts. -/
theorem mem_filter_of_mem_located {entry : Nat × Document} (h : entry ∈ located query 0 docs) :
    entry.2 ∈ docs.filter (Query.accepts query) :=
  map_snd_located query 0 docs ▸ List.mem_map_of_mem h

variable {spec : Document}

/-- **One document for both**: where the order of values is transitive on what the matches hold in
the fields of the sort specification, the sorted matches are those at the sorted positions. -/
theorem map_snd_sortPositions_located
    (h : ∀ field ∈ Entries.keys spec, Value.IsTransitiveOn fun value =>
      ∃ doc ∈ docs.filter (Query.accepts query), Entries.get? doc field = some value) :
    (Sorting.sortPositions spec (located query 0 docs)).map Prod.snd
      = Sorting.sort spec (docs.filter (Query.accepts query)) := by
  rw [← map_snd_located query 0] at h ⊢
  exact Sorting.map_sortPositions h

/-- **What comes first** among the matches, where the order of values is transitive on what they
hold in the fields of the sort specification. -/
theorem isFirst_of_head?_sortPositions
    (h : ∀ field ∈ Entries.keys spec, Value.IsTransitiveOn fun value =>
      ∃ doc ∈ docs.filter (Query.accepts query), Entries.get? doc field = some value)
    (hfirst : (Sorting.sortPositions spec (located query 0 docs)).head? = some (position, doc)) :
    IsFirst query spec docs position doc := by
  obtain ⟨hstored, hholds⟩ := mem_located.mp
    ((Sorting.sortPositions_perm spec _).mem_iff.mp (List.mem_of_head? hfirst))
  obtain ⟨later, hsorted⟩ := List.head?_eq_some_iff.mp hfirst
  have hpreorder : Sorting.PreorderOn
      (fun left right => Sorting.compareDocuments left.2 right.2 spec) (located query 0 docs) :=
    (Sorting.preorderOn_compareDocuments h).comap fun _ => mem_filter_of_mem_located
  have harranged := Runtime.positions.arranged _ _ hpreorder
  rw [← Sorting.sortPositions, hsorted] at harranged
  obtain ⟨front, rest, hlocated, hfront, hleast⟩ := harranged.exists_eq_append hpreorder
  refine ⟨hstored, hholds, fun other hmem hother => ?_, fun index other hlt hother hother' => ?_⟩
  · obtain ⟨index, hindex⟩ := List.mem_iff_getElem?.mp hmem
    exact hleast (index, other) (mem_located.mpr ⟨hindex, hother⟩)
  · -- positions increase, so what is stored earlier is found earlier
    have hincreasing := pairwise_located query docs
    have hentry : (index, other) ∈ located query 0 docs := mem_located.mpr ⟨hother, hother'⟩
    rw [hlocated] at hincreasing hentry
    rcases List.mem_append.mp hentry with hmem | hmem
    · exact hfront _ hmem
    · have hle : position ≤ index := by
        rcases List.mem_cons.mp hmem with heq | hlater
        · exact Nat.le_of_eq (congrArg Prod.fst heq).symm
        · exact Nat.le_of_lt (List.rel_of_pairwise_cons (List.pairwise_append.mp hincreasing).2.1
            hlater)
      omega

end Collection

namespace Store

open Collection (IsFirst)

/-- **An update of the first match follows the reading of it**, where the order is one. A query is
evaluated without a fault; its first match is read by some options, none left out, and updated by
the same options without storing a document otherwise. Both give nothing if no document matches. If
one does, one match is read, and any update that can be made of one match replaces it and no other.
Where the order of values is transitive on what the matches hold in the fields of the sort
specification, as it is without one, what is updated is what is read: the earliest of the matches
that no match comes before. -/
theorem findOneAndUpdate_follows_findOne [Runtime] {store : Store} {collection : String}
    {query : Document} {docs : List Document} (hdocs : store.documents collection = docs)
    (hquery : Query.Evaluates query docs) (now : DateTime) (update : Document)
    (options : QueryOptions) :
    ((∀ doc ∈ docs, Query.holds doc query = .ok false) ∧
      Gives store now (.findOne collection query { options with skip := none }) collection
        none docs ∧
      Gives store now (.findOneAndUpdate collection query update options false) collection
        none docs) ∨
    ∃ shown position doc, shown ∈ docs ∧ Query.holds shown query = .ok true ∧
      docs[position]? = some doc ∧ Query.holds doc query = .ok true ∧
      Gives store now (.findOne collection query { options with skip := none }) collection
        (some (options.view shown)) docs ∧
      (∀ doc', Collection.updated now update doc = .ok doc' →
        Gives store now (.findOneAndUpdate collection query update options false) collection
          (some (options.view doc')) (docs.set position doc')) ∧
      ((∀ field ∈ Entries.keys (options.sort.getD []), Value.IsTransitiveOn fun value =>
          ∃ doc ∈ docs.filter (Query.accepts query), Entries.get? doc field = some value) →
        doc = shown ∧ IsFirst query (options.sort.getD []) docs position shown) := by
  subst hdocs
  have hread := Collection.findOne_of_evaluates hquery options
  have hfirst := Collection.first?_eq_head?_sortPositions hquery options.sort
  cases hhead : (Sorting.sortPositions (options.sort.getD [])
      (Collection.located query 0 (store.documents collection))).head? with
  | none =>
    rw [hhead] at hfirst
    have hnone : ∀ doc ∈ store.documents collection, Query.accepts query doc = false := by
      intro doc hmem
      rw [Bool.eq_false_iff, ne_eq, Query.accepts_iff]
      exact Collection.not_holds_of_first?_eq_none hfirst hmem
    have hmatches : (store.documents collection).filter (Query.accepts query) = [] :=
      List.filter_eq_nil_iff.mpr fun doc hmem => Bool.eq_false_iff.mp (hnone doc hmem)
    rw [hmatches, (Sorting.sort_perm _ []).eq_nil] at hread
    refine Or.inl ⟨fun doc hmem => ?_, gives_of_kept ?_, gives_of_kept ?_⟩
    · rw [hquery.holds doc hmem, hnone doc hmem]
    · rw [Call.run, hread]
      rfl
    · rw [Call.run, findOneAndUpdate, hfirst]
      rfl
  | some found =>
    obtain ⟨position, doc⟩ := found
    rw [hhead] at hfirst
    obtain ⟨hstored, hholds⟩ := Collection.first?_eq_some hfirst
    have hmatch : doc ∈ (store.documents collection).filter (Query.accepts query) :=
      List.mem_filter.mpr ⟨List.mem_of_getElem? hstored, Query.accepts_iff.mpr hholds⟩
    obtain ⟨shown, hshown, hsorted⟩ :=
      Collection.exists_head?_sort (options.sort.getD []) hmatch
    rw [hsorted] at hread
    obtain ⟨hmem, haccepts⟩ := List.mem_filter.mp hshown
    refine Or.inr ⟨shown, position, doc, hmem, Query.accepts_iff.mp haccepts, hstored, hholds,
      gives_of_kept ?_, fun doc' hupdate => gives_of_written ?_, fun htransitive => ?_⟩
    · rw [Call.run, hread]
      rfl
    · rw [Call.run, findOneAndUpdate, hfirst]
      dsimp only
      rw [hupdate]
    · -- the first of the sorted matches stands at the first of the sorted positions
      have hsame := congrArg List.head? (Collection.map_snd_sortPositions_located htransitive)
      rw [List.head?_map, hhead, hsorted] at hsame
      obtain rfl : doc = shown := Option.some.inj hsame
      exact ⟨rfl, Collection.isFirst_of_head?_sortPositions htransitive hhead⟩

/-- Twenty-one items that are sorted by numbers, one of which is a NaN and ties with all others.
What is read is the item of number 3, and what is updated is the one of number 1. -/
theorem findOneAndUpdate_departs_from_findOne :
    ∃ (store : Store) (nan : Double) (update : Document) (options : QueryOptions)
      (docs : List Document), nan.isNaN = true ∧ options.sort = some [("v", .int32 1)] ∧
      docs.map (Entries.get? · "v")
        = [.int32 9, .int32 3, .int32 6, .int32 10, .int32 7, .double nan, .int32 21, .int32 1,
            .int32 17, .int32 19, .int32 18, .int32 16, .int32 5, .int32 11, .int32 13, .int32 4,
            .int32 12, .int32 20, .int32 8, .int32 15, .int32 14].map some ∧
      Gives store ⟨1000⟩ (.findOne "items" [] options) "items"
        (some [("_id", .int32 1), ("v", .int32 3)]) docs ∧
      Gives store ⟨1000⟩ (.findOneAndUpdate "items" [] update options false) "items"
        (some [("_id", .int32 7), ("v", .int32 1), ("seen", .bool true)])
        (docs.set 7 [("_id", .int32 7), ("v", .int32 1), ("seen", .bool true)]) := by
  let nan : Double := ⟨9221120237041090560⟩
  let values : List Value := [.int32 9, .int32 3, .int32 6, .int32 10, .int32 7, .double nan,
    .int32 21, .int32 1, .int32 17, .int32 19, .int32 18, .int32 16, .int32 5, .int32 11, .int32 13,
    .int32 4, .int32 12, .int32 20, .int32 8, .int32 15, .int32 14]
  let docs : List Document :=
    values.zipIdx.map fun (value, index) => [("_id", .int32 (.ofNat index)), ("v", value)]
  let store : Store := ⟨[("items", docs)], .ofSource ⟨0, 0, 0⟩⟩
  let update : Document := [("$set", .document [("seen", .bool true)])]
  let options : QueryOptions := { sort := some [("v", .int32 1)] }
  have hread : Collection.findOne [] options docs
      = .ok (some [("_id", .int32 1), ("v", .int32 3)]) := by
    simp only [docs, values, nan, options]
    set_option maxRecDepth 4000 in rfl
  have hfirst : Collection.first? [] options.sort docs
      = .ok (some (7, [("_id", .int32 7), ("v", .int32 1)])) := by
    simp only [docs, values, nan, options]
    set_option maxRecDepth 4000 in rfl
  have hupdate : Collection.updated ⟨1000⟩ update [("_id", .int32 7), ("v", .int32 1)]
      = .ok [("_id", .int32 7), ("v", .int32 1), ("seen", .bool true)] := rfl
  have hdocs : store.documents "items" = docs := rfl
  refine ⟨store, nan, update, options, docs, by decide, rfl, rfl, ?_, gives_of_written ?_⟩
  · rw [← hdocs]
    refine gives_of_kept ?_
    rw [Call.run, hdocs, hread]
    rfl
  · rw [Call.run, findOneAndUpdate, hdocs, hfirst]
    dsimp only
    rw [hupdate]
    rfl

/-- Four notes, of which the last three are open. The titles of the last two come first and are the
same, so the one of them that was stored earlier is read and updated. -/
theorem findOneAndUpdate_follows_findOne_notes :
    ∃ (store : Store) (query update : Document) (options : QueryOptions),
      store.documents "notes" = [[("_id", .int32 1), ("title", .string "a")],
        [("_id", .int32 2), ("open", .bool true), ("title", .string "c")],
        [("_id", .int32 3), ("open", .bool true), ("title", .string "b")],
        [("_id", .int32 4), ("open", .bool true), ("title", .string "b")]] ∧
      options.sort = some [("title", .int32 1)] ∧
      Gives store ⟨1000⟩ (.findOne "notes" query options) "notes"
        (some [("_id", .int32 3), ("open", .bool true), ("title", .string "b")])
        (store.documents "notes") ∧
      Gives store ⟨1000⟩ (.findOneAndUpdate "notes" query update options false) "notes"
        (some [("_id", .int32 3), ("open", .bool false), ("title", .string "b")])
        [[("_id", .int32 1), ("title", .string "a")],
          [("_id", .int32 2), ("open", .bool true), ("title", .string "c")],
          [("_id", .int32 3), ("open", .bool false), ("title", .string "b")],
          [("_id", .int32 4), ("open", .bool true), ("title", .string "b")]] ∧
      IsFirst query [("title", .int32 1)] (store.documents "notes") 2
        [("_id", .int32 3), ("open", .bool true), ("title", .string "b")] := by
  let docs : List Document := [[("_id", .int32 1), ("title", .string "a")],
    [("_id", .int32 2), ("open", .bool true), ("title", .string "c")],
    [("_id", .int32 3), ("open", .bool true), ("title", .string "b")],
    [("_id", .int32 4), ("open", .bool true), ("title", .string "b")]]
  let store : Store := ⟨[("notes", docs)], .ofSource ⟨0, 0, 0⟩⟩
  let query : Document := [("open", .bool true)]
  let update : Document := [("$set", .document [("open", .bool false)])]
  let options : QueryOptions := { sort := some [("title", .int32 1)] }
  have hquery : Query.Evaluates query docs := by
    intro doc hmem
    simp only [docs, List.mem_cons, List.not_mem_nil, or_false] at hmem
    rcases hmem with rfl | rfl | rfl | rfl
    · exact ⟨false, rfl⟩
    · exact ⟨true, rfl⟩
    · exact ⟨true, rfl⟩
    · exact ⟨true, rfl⟩
  have htitles : ∀ field ∈ Entries.keys (options.sort.getD []), Value.IsTransitiveOn fun value =>
      ∃ doc ∈ docs.filter (Query.accepts query), Entries.get? doc field = some value := by
    intro field hfield
    refine Value.isTransitiveOn_of_strings ?_
    rintro value ⟨doc, hmem, hvalue⟩
    rw [List.mem_singleton.mp hfield] at hvalue
    have hdoc := List.mem_of_mem_filter hmem
    simp only [docs, List.mem_cons, List.not_mem_nil, or_false] at hdoc
    rcases hdoc with rfl | rfl | rfl | rfl <;> cases hvalue <;> exact ⟨_, rfl⟩
  have hdocs : store.documents "notes" = docs := rfl
  rcases findOneAndUpdate_follows_findOne hdocs hquery ⟨1000⟩ update options with
    ⟨hnone, -⟩ | ⟨shown, position, doc, -, -, hstored, -, hread, hwrite, hfirst⟩
  · cases hnone _ (List.mem_of_getElem? (i := 1) rfl)
  · -- what is read shows which document it is, and that stands at one position only
    obtain ⟨rfl, hfirst⟩ := hfirst htitles
    have hdoc : doc = [("_id", .int32 3), ("open", .bool true), ("title", .string "b")] :=
      Option.some.inj (Except.ok.inj (hread.replies.symm.trans rfl))
    subst hdoc
    have hposition : position = 2 := by
      rcases position with _ | _ | _ | _ | position <;> simp [docs] at hstored ⊢
    subst hposition
    exact ⟨store, query, update, options, rfl, rfl, hread, hwrite _ rfl, hfirst⟩

end Store

end DocStore
