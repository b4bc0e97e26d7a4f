import DocStore.Proofs.InPlace
import DocStore.Proofs.Requests

/-! # Writes as functions on lists

Where a query is not at fault on any document of a collection, every write is a function on the list
of documents. An update of all matches maps the list, an update of the first match modifies it at
one place, and a deletion filters it or erases one element; the replies count the matches. Positions
and marks are only how this is carried out: `Store.Gives` says what a call comes to both as a whole
and in place, and `Store.writes_are_list_functions` says what each call gives. -/

namespace DocStore

/-- Whether a query is evaluated **without a fault** on all of some documents. -/
def Query.Evaluates [Runtime] (query : Document) (docs : List Document) : Prop :=
  ∀ doc ∈ docs, ∃ matched, Query.holds doc query = .ok matched

theorem Query.Evaluates.holds [Runtime] {query : Document} {docs : List Document}
    (h : Query.Evaluates query docs) :
    ∀ doc ∈ docs, Query.holds doc query = .ok (Query.accepts query doc) := by
  intro doc hmem
  obtain ⟨matched, hmatched⟩ := h doc hmem
  rw [hmatched, Query.accepts_of_holds hmatched]

namespace Collection

/-- The update of a document, or the document itself where the update is refused. -/
def revised (now : DateTime) (update doc : Document) : Document :=
  (updated now update doc).toOption.getD doc

/-- Whether an update is made of all of some documents **without a fault**. -/
def Applies (now : DateTime) (update : Document) (docs : List Document) : Prop :=
  ∀ doc ∈ docs, ∃ doc', updated now update doc = .ok doc'

theorem Applies.updated_eq {now : DateTime} {update : Document} {docs : List Document}
    (h : Applies now update docs) {doc : Document} (hmem : doc ∈ docs) :
    updated now update doc = .ok (revised now update doc) := by
  obtain ⟨doc', hdoc'⟩ := h doc hmem
  rw [revised, hdoc']
  rfl

variable {now : DateTime} {query update : Document} {docs : List Document}

/-! ## What is found -/

variable [Runtime]

/-- The documents that a query selects. -/
theorem select_of_evaluates (h : Query.Evaluates query docs) :
    Query.select query docs = .ok (docs.filter (Query.accepts query)) := by
  induction docs with
  | nil => rfl
  | cons doc rest ih =>
    rw [Query.select, h.holds doc List.mem_cons_self]
    dsimp only
    rw [ih fun later hmem => h later (List.mem_cons_of_mem _ hmem), List.filter_cons]
    rfl

/-- The first of the matches with their positions. -/
theorem head?_located (query : Document) (start : Nat) (docs : List Document) :
    (located query start docs).head?
      = (docs.find? (Query.accepts query)).map fun doc =>
          (start + docs.findIdx (Query.accepts query), doc) := by
  induction docs generalizing start with
  | nil => rfl
  | cons doc rest ih =>
    rw [located_cons, List.find?_cons, List.findIdx_cons]
    cases Query.accepts query doc with
    | true => rfl
    | false =>
      rw [if_neg Bool.false_ne_true, ih]
      dsimp only [cond_false]
      cases rest.find? (Query.accepts query) with
      | none => rfl
      | some found => rw [Option.map_some, Option.map_some, Nat.add_assoc, Nat.add_comm 1]

/-- The first match in stored order. -/
theorem first?_of_evaluates (h : Query.Evaluates query docs) :
    first? query none docs
      = .ok ((docs.find? (Query.accepts query)).map fun doc =>
          (docs.findIdx (Query.accepts query), doc)) := by
  rw [first?, locate_of_holds h.holds, Except.map]
  dsimp only
  rw [head?_located]
  simp only [Nat.zero_add]

/-- Every document with its replacement. -/
theorem replacements_of_evaluates (h : Query.Evaluates query docs)
    (happlies : Applies now update (docs.filter (Query.accepts query))) :
    replacements now query update docs
      = .ok (docs.map fun doc =>
          (doc, if Query.accepts query doc then some (revised now update doc) else none)) := by
  induction docs with
  | nil => rfl
  | cons doc rest ih =>
    have hrest := fun later hmem => h later (List.mem_cons_of_mem _ hmem)
    rw [replacements, h.holds doc List.mem_cons_self, List.map_cons]
    rw [List.filter_cons] at happlies
    cases haccepts : Query.accepts query doc with
    | false =>
      rw [haccepts, if_neg Bool.false_ne_true] at happlies
      dsimp only
      rw [ih hrest happlies, if_neg Bool.false_ne_true]
      rfl
    | true =>
      rw [haccepts, if_pos rfl] at happlies
      dsimp only
      rw [happlies.updated_eq List.mem_cons_self, if_pos rfl]
      dsimp only
      rw [ih hrest fun later hmem => happlies later (List.mem_cons_of_mem _ hmem)]
      rfl

/-- The documents that remain. -/
theorem remaining_of_evaluates (h : Query.Evaluates query docs) :
    remaining query docs = .ok (docs.filter fun doc => !Query.accepts query doc) := by
  induction docs with
  | nil => rfl
  | cons doc rest ih =>
    rw [remaining, h.holds doc List.mem_cons_self]
    dsimp only
    rw [ih fun later hmem => h later (List.mem_cons_of_mem _ hmem), List.filter_cons]
    cases Query.accepts query doc <;> rfl

/-! ## What the list becomes -/

/-- The replaced documents are the matches, each with its update. -/
theorem replaced_eq_map (now : DateTime) (query update : Document) (docs : List Document) :
    replaced (docs.map fun doc =>
        (doc, if Query.accepts query doc then some (revised now update doc) else none))
      = (docs.filter (Query.accepts query)).map fun doc => (doc, revised now update doc) := by
  induction docs with
  | nil => rfl
  | cons doc rest ih =>
    rw [replaced] at ih ⊢
    rw [List.map_cons, List.filterMap_cons, ih, List.filter_cons]
    cases Query.accepts query doc <;> rfl

/-- An update of all matches maps the documents and counts the matches, and those that become
different. -/
theorem updateMany_of_evaluates (h : Query.Evaluates query docs)
    (happlies : Applies now update (docs.filter (Query.accepts query))) :
    updateMany now query update docs
      = .ok ({ matched := docs.countP (Query.accepts query)
               modified := docs.countP fun doc =>
                 Query.accepts query doc && !doc.equal (revised now update doc) },
          docs.map fun doc => if Query.accepts query doc then revised now update doc else doc) := by
  have hmatched : (replaced (docs.map fun doc => (doc,
      if Query.accepts query doc then some (revised now update doc) else none))).length
        = docs.countP (Query.accepts query) := by
    rw [replaced_eq_map, List.length_map, List.countP_eq_length_filter]
  have hmodified : ((replaced (docs.map fun doc => (doc,
      if Query.accepts query doc then some (revised now update doc) else none))).filter
        fun pair => !pair.1.equal pair.2).length
        = docs.countP fun doc =>
            Query.accepts query doc && !doc.equal (revised now update doc) := by
    rw [replaced_eq_map, List.filter_map, List.length_map, List.filter_filter,
      ← List.countP_eq_length_filter]
    exact List.countP_congr fun doc _ => by rw [Bool.and_comm]; rfl
  have hdocs : (docs.map fun doc => (doc,
      if Query.accepts query doc then some (revised now update doc) else none)).map
        (fun pair => pair.2.getD pair.1)
        = docs.map fun doc => if Query.accepts query doc then revised now update doc else doc := by
    rw [List.map_map]
    refine List.map_congr_left fun doc _ => ?_
    dsimp only [Function.comp_apply]
    split <;> rfl
  rw [updateMany, replacements_of_evaluates h happlies, Except.map, ← hmatched, ← hmodified,
    ← hdocs, replaced]

/-- A deletion of the first match erases it. -/
theorem deleteOne_of_evaluates (h : Query.Evaluates query docs) :
    deleteOne query docs
      = .ok ((docs.any (Query.accepts query)).toNat, docs.eraseP (Query.accepts query)) := by
  rw [deleteOne, first?_of_evaluates h, Except.map, ← List.isSome_find?]
  cases hfind : docs.find? (Query.accepts query) with
  | none =>
    rw [List.eraseP_of_forall_not (List.find?_eq_none.mp hfind)]
    rfl
  | some doc =>
    have hidx : docs.findIdx? (Query.accepts query)
        = some (docs.findIdx (Query.accepts query)) := by
      rw [List.findIdx?_eq_some_iff_findIdx_eq]
      exact ⟨List.findIdx_lt_length_of_exists
        ⟨doc, List.mem_of_find?_eq_some hfind, List.find?_some hfind⟩, rfl⟩
    rw [List.eraseP_eq_eraseIdx, hidx]
    rfl

/-- A deletion of all matches keeps the other documents. -/
theorem deleteMany_of_evaluates (h : Query.Evaluates query docs) :
    deleteMany query docs
      = .ok (docs.countP (Query.accepts query),
          docs.filter fun doc => !Query.accepts query doc) := by
  have hsum : docs.length = docs.countP (Query.accepts query)
      + (docs.filter fun doc => !Query.accepts query doc).length := by
    rw [List.countP_eq_length_filter]
    exact List.length_eq_length_filter_add (Query.accepts query)
  rw [deleteMany, remaining_of_evaluates h, Except.map, hsum, Nat.add_sub_cancel_right]

/-- Replacing the first match by its update modifies the documents at one place. -/
theorem set_findIdx (h : Query.Evaluates query docs) {doc : Document}
    (hfind : docs.find? (Query.accepts query) = some doc) (f : Document → Document) :
    docs.set (docs.findIdx (Query.accepts query)) (f doc)
      = docs.modify (docs.findIdx (Query.accepts query)) f := by
  have hfirst := first?_of_evaluates h
  rw [hfind, Option.map_some] at hfirst
  rw [List.modify_eq_set, (first?_eq_some hfirst).1, Option.getD_some]

/-- Without a match nothing is modified. -/
theorem modify_findIdx_of_none (hfind : docs.find? (Query.accepts query) = none)
    (f : Document → Document) : docs.modify (docs.findIdx (Query.accepts query)) f = docs := by
  refine List.modify_eq_self (Nat.le_of_eq (List.findIdx_eq_length.mpr fun doc hmem => ?_).symm)
  exact Bool.eq_false_iff.mpr (List.find?_eq_none.mp hfind doc hmem)

end Collection

namespace Store

open Collection (revised Applies UpdateOutcome)

/-! ## What calls come to -/

section

variable [Runtime]

/-- **What a call gives** at a time: a reply, and the documents of its collection, while every
other collection holds what it held. The call gives the same as a whole and in place. -/
structure Gives {kind : ReplyKind} (store : Store) (now : DateTime) (call : Call kind)
    (collection : String) (reply : kind.Reply) (docs : List Document) : Prop where
  /-- The reply. -/
  replies : (store.answer now call).1 = .ok reply
  /-- The documents afterwards. -/
  documents : ∀ name, (store.answer now call).2.documents name
    = if name = collection then docs else store.documents name
  /-- The reply in place. -/
  repliesInPlace : (call.inPlace now store).1 = .ok reply
  /-- The documents afterwards in place. -/
  documentsInPlace : ∀ name, (call.inPlace now store).2.documents name
    = if name = collection then docs else store.documents name

variable {store : Store} {now : DateTime} {collection : String} {query update : Document}

/-- A call gives what it comes to as a whole. -/
theorem gives_of_run {kind : ReplyKind} {call : Call kind} {reply : kind.Reply} {after : Store}
    {docs : List Document} (hrun : call.run now store = .ok (reply, after))
    (hdocs : ∀ name, after.documents name
      = if name = collection then docs else store.documents name) :
    Gives store now call collection reply docs := by
  have hcarries := store.carriesOut_inPlace now call
  rw [hrun] at hcarries
  obtain ⟨hreply, hdocuments⟩ := hcarries
  have hanswer : store.answer now call = (.ok reply, after) := by rw [answer, hrun]
  refine ⟨by rw [hanswer], ?_, hreply, fun name => (hdocuments name).trans (hdocs name)⟩
  rw [hanswer]
  exact hdocs

/-- A call that writes its collection. -/
theorem gives_of_written {kind : ReplyKind} {call : Call kind} {reply : kind.Reply}
    {docs : List Document}
    (hrun : call.run now store = .ok (reply, store.withDocuments collection docs)) :
    Gives store now call collection reply docs :=
  gives_of_run hrun (store.documents_withDocuments collection docs)

/-- A call that keeps the store. -/
theorem gives_of_kept {kind : ReplyKind} {call : Call kind} {reply : kind.Reply}
    (hrun : call.run now store = .ok (reply, store)) :
    Gives store now call collection reply (store.documents collection) :=
  gives_of_run hrun fun name => by
    split
    · rename_i hname
      rw [hname]
    · rfl

theorem gives_count (h : Query.Evaluates query (store.documents collection)) :
    Gives store now (.count collection query) collection
      ((store.documents collection).countP (Query.accepts query))
      (store.documents collection) := by
  refine gives_of_kept ?_
  rw [Call.run, Collection.count, Collection.select_of_evaluates h, List.countP_eq_length_filter]
  rfl

theorem gives_updateMany (h : Query.Evaluates query (store.documents collection))
    (happlies : Applies now update
      ((store.documents collection).filter (Query.accepts query))) :
    Gives store now (.updateMany collection query update) collection
      { matched := (store.documents collection).countP (Query.accepts query)
        modified := (store.documents collection).countP fun doc =>
          Query.accepts query doc && !doc.equal (revised now update doc) }
      ((store.documents collection).map fun doc =>
        if Query.accepts query doc then revised now update doc else doc) := by
  refine gives_of_written ?_
  rw [Call.run, updateMany, Collection.updateMany_of_evaluates h happlies]
  rfl

theorem gives_updateOne (h : Query.Evaluates query (store.documents collection))
    (happlies : Applies now update
      ((store.documents collection).find? (Query.accepts query)).toList)
    {upsert : Bool}
    (hupsert : upsert = true → (store.documents collection).any (Query.accepts query) = true) :
    Gives store now (.updateOne collection query update upsert) collection
      { matched := ((store.documents collection).any (Query.accepts query)).toNat
        modified := (((store.documents collection).find? (Query.accepts query)).any fun doc =>
          !doc.equal (revised now update doc)).toNat }
      ((store.documents collection).modify
        ((store.documents collection).findIdx (Query.accepts query)) (revised now update)) := by
  have hfirst := Collection.first?_of_evaluates h
  rw [← List.isSome_find?] at hupsert ⊢
  cases hfind : (store.documents collection).find? (Query.accepts query) with
  | none =>
    rw [hfind] at hfirst hupsert
    rw [Collection.modify_findIdx_of_none hfind]
    refine gives_of_kept ?_
    have hnot : upsert = false := Bool.eq_false_iff.mpr fun hasked => by cases hupsert hasked
    rw [Call.run, updateOne, hfirst, hnot]
    rfl
  | some doc =>
    rw [hfind] at hfirst happlies
    rw [← Collection.set_findIdx h hfind]
    refine gives_of_written ?_
    rw [Call.run, updateOne, hfirst]
    dsimp only [Option.map_some]
    rw [happlies.updated_eq List.mem_cons_self]
    dsimp only [Option.isSome_some, Option.any_some]
    cases doc.equal (revised now update doc) <;> rfl

theorem gives_findOneAndUpdate (h : Query.Evaluates query (store.documents collection))
    (happlies : Applies now update
      ((store.documents collection).find? (Query.accepts query)).toList)
    {options : QueryOptions} (hsort : options.sort = none) {upsert : Bool}
    (hupsert : upsert = true → (store.documents collection).any (Query.accepts query) = true) :
    Gives store now (.findOneAndUpdate collection query update options upsert) collection
      (((store.documents collection).find? (Query.accepts query)).map fun doc =>
        options.view (revised now update doc))
      ((store.documents collection).modify
        ((store.documents collection).findIdx (Query.accepts query)) (revised now update)) := by
  have hfirst := Collection.first?_of_evaluates h
  rw [← List.isSome_find?] at hupsert
  cases hfind : (store.documents collection).find? (Query.accepts query) with
  | none =>
    rw [hfind] at hfirst hupsert
    rw [Collection.modify_findIdx_of_none hfind]
    refine gives_of_kept ?_
    have hnot : upsert = false := Bool.eq_false_iff.mpr fun hasked => by cases hupsert hasked
    rw [Call.run, findOneAndUpdate, hsort, hfirst, hnot]
    rfl
  | some doc =>
    rw [hfind] at hfirst happlies
    rw [← Collection.set_findIdx h hfind]
    refine gives_of_written ?_
    rw [Call.run, findOneAndUpdate, hsort, hfirst]
    dsimp only [Option.map_some]
    rw [happlies.updated_eq List.mem_cons_self]

theorem gives_deleteOne (h : Query.Evaluates query (store.documents collection)) :
    Gives store now (.deleteOne collection query) collection
      ((store.documents collection).any (Query.accepts query)).toNat
      ((store.documents collection).eraseP (Query.accepts query)) := by
  refine gives_of_written ?_
  rw [Call.run, deleteOne, Collection.deleteOne_of_evaluates h]
  rfl

theorem gives_deleteMany (h : Query.Evaluates query (store.documents collection)) :
    Gives store now (.deleteMany collection query) collection
      ((store.documents collection).countP (Query.accepts query))
      ((store.documents collection).filter fun doc => !Query.accepts query doc) := by
  refine gives_of_written ?_
  rw [Call.run, deleteMany, Collection.deleteMany_of_evaluates h]
  rfl

/-- A call touches no collection but its own. -/
theorem documents_of_ne {call : AnyCall} {other : String} (h : other ≠ call.collection) :
    (store.answer now call.2).2.documents other = store.documents other ∧
      (call.2.inPlace now store).2.documents other = store.documents other := by
  have hown : other ≠ (Request.make call).collection := h
  have hwhole := documents_serve_of_ne store now hown
  exact ⟨hwhole, (store.documents_inPlace now call.2 other).trans hwhole⟩

/-- **Writes are functions on lists.** Where the query is not at fault on any document of the
collection, and the update on none of the documents concerned:

* an update of all matches replaces exactly the matching documents, each by its own update, and
  replies with their number, which is what a count replies, and with the number of those that become
  different;
* an update of the first match, also one that reads it, replaces exactly the first matching
  document, and replies with it or with whether it becomes different;
* a deletion erases exactly the first, or all, of the matching documents and replies with their
  number.

And no call at all, whether it is refused or not, changes a collection other than its own. -/
theorem writes_are_list_functions {store : Store} {now : DateTime} {collection : String}
    {query : Document} {docs : List Document} (hdocs : store.documents collection = docs)
    (hquery : Query.Evaluates query docs) (update : Document) :
    Gives store now (.count collection query) collection
      (docs.countP (Query.accepts query)) docs ∧
    (Applies now update (docs.filter (Query.accepts query)) →
      Gives store now (.updateMany collection query update) collection
        { matched := docs.countP (Query.accepts query)
          modified := docs.countP fun doc =>
            Query.accepts query doc && !doc.equal (revised now update doc) }
        (docs.map fun doc => if Query.accepts query doc then revised now update doc else doc)) ∧
    (∀ upsert, Applies now update (docs.find? (Query.accepts query)).toList →
      (upsert = true → docs.any (Query.accepts query) = true) →
      Gives store now (.updateOne collection query update upsert) collection
        { matched := (docs.any (Query.accepts query)).toNat
          modified := ((docs.find? (Query.accepts query)).any fun doc =>
            !doc.equal (revised now update doc)).toNat }
        (docs.modify (docs.findIdx (Query.accepts query)) (revised now update))) ∧
    (∀ options upsert, options.sort = none →
      Applies now update (docs.find? (Query.accepts query)).toList →
      (upsert = true → docs.any (Query.accepts query) = true) →
      Gives store now (.findOneAndUpdate collection query update options upsert) collection
        ((docs.find? (Query.accepts query)).map fun doc => options.view (revised now update doc))
        (docs.modify (docs.findIdx (Query.accepts query)) (revised now update))) ∧
    Gives store now (.deleteOne collection query) collection
      (docs.any (Query.accepts query)).toNat (docs.eraseP (Query.accepts query)) ∧
    Gives store now (.deleteMany collection query) collection
      (docs.countP (Query.accepts query)) (docs.filter fun doc => !Query.accepts query doc) ∧
    ∀ (call : AnyCall) (other : String), other ≠ call.collection →
      (store.answer now call.2).2.documents other = store.documents other ∧
      (call.2.inPlace now store).2.documents other = store.documents other := by
  subst hdocs
  exact ⟨gives_count hquery, fun happlies => gives_updateMany hquery happlies,
    fun _ happlies hupsert => gives_updateOne hquery happlies hupsert,
    fun _ _ hsort happlies hupsert => gives_findOneAndUpdate hquery happlies hsort hupsert,
    gives_deleteOne hquery, gives_deleteMany hquery, fun _ _ hother => documents_of_ne hother⟩

end

/-- Four notes, the second and the last of which match; the last has the title already that the
update writes. -/
theorem writes_are_list_functions_notes :
    ∃ (store : Store) (query update : Document),
      store.documents "notes" = [[("_id", .int32 1)],
        [("_id", .int32 2), ("open", .bool true)], [("_id", .int32 3)],
        [("_id", .int32 4), ("open", .bool true), ("title", .string "a")]] ∧
      Gives store ⟨1000⟩ (.count "notes" query) "notes" 2 (store.documents "notes") ∧
      Gives store ⟨1000⟩ (.updateMany "notes" query update) "notes"
        { matched := 2, modified := 1 }
        [[("_id", .int32 1)], [("_id", .int32 2), ("open", .bool true), ("title", .string "a")],
          [("_id", .int32 3)], [("_id", .int32 4), ("open", .bool true), ("title", .string "a")]] ∧
      Gives store ⟨1000⟩ (.findOneAndUpdate "notes" query update {} true) "notes"
        (some [("_id", .int32 2), ("open", .bool true), ("title", .string "a")])
        [[("_id", .int32 1)], [("_id", .int32 2), ("open", .bool true), ("title", .string "a")],
          [("_id", .int32 3)], [("_id", .int32 4), ("open", .bool true), ("title", .string "a")]] ∧
      Gives store ⟨1000⟩ (.deleteOne "notes" query) "notes" 1
        [[("_id", .int32 1)], [("_id", .int32 3)],
          [("_id", .int32 4), ("open", .bool true), ("title", .string "a")]] ∧
      Gives store ⟨1000⟩ (.deleteMany "notes" query) "notes" 2
        [[("_id", .int32 1)], [("_id", .int32 3)]] := by
  let docs : List Document :=
    [[("_id", .int32 1)], [("_id", .int32 2), ("open", .bool true)], [("_id", .int32 3)],
      [("_id", .int32 4), ("open", .bool true), ("title", .string "a")]]
  let store : Store := ⟨[("notes", docs)], .ofSource ⟨0, 0, 0⟩⟩
  let query : Document := [("open", .bool true)]
  let update : Document := [("$set", .document [("title", .string "a")])]
  have hquery : Query.Evaluates query docs := by
    intro doc hmem
    simp only [docs, List.mem_cons, List.not_mem_nil, or_false] at hmem
    rcases hmem with rfl | rfl | rfl | rfl
    · exact ⟨false, rfl⟩
    · exact ⟨true, rfl⟩
    · exact ⟨false, rfl⟩
    · exact ⟨true, rfl⟩
  have happlies : ∀ concerned, Applies ⟨1000⟩ update concerned := fun _ _ _ => ⟨_, rfl⟩
  have hdocs : store.documents "notes" = docs := rfl
  obtain ⟨hcount, hmany, -, hread, herase, hall, -⟩ :=
    writes_are_list_functions hdocs hquery update
  exact ⟨store, query, update, rfl, hcount, hmany (happlies _),
    hread {} true rfl (happlies _) fun _ => rfl, herase, hall⟩

end Store

end DocStore
