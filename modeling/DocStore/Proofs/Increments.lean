import DocStore.Proofs.Matches
import DocStore.Proofs.Requests
import DocStore.Proofs.UpdateOrder
import DocStore.Proofs.Writes
import Mathlib.Algebra.Ring.Int.Defs

/-! # Adding whole numbers

Integers of two widths are added exactly: a sum is narrow if both summands are and it fits, wide
otherwise, and refused if it fits neither width (`Update.increment_whole`). So what a field holds
after many additions is the sum of all amounts that were taken (`Update.IsSum`), and it is narrow
just if the start, every amount and every partial sum were. Requests that add to one field of one
document keep that (`Store.holdsSum_incremented`), whatever widths they mix and whichever of them
are refused. -/

namespace DocStore

/-! ## Whole numbers -/

/-- **A whole number** of a document, in one of two widths. -/
inductive Whole where
  /-- In 32 bits. -/
  | narrow (n : Int32)
  /-- In 64 bits. -/
  | wide (n : Int64)

namespace Whole

/-- The value that a document holds. -/
def toValue : Whole → Value
  | .narrow n => .int32 n
  | .wide n => .int64 n

/-- The number itself. -/
def toInt : Whole → Int
  | .narrow n => n.toInt
  | .wide n => n.toInt

/-- Whether the number is kept in 32 bits. -/
def isNarrow : Whole → Bool
  | .narrow _ => true
  | .wide _ => false

/-- Whether a number **fits 32 bits**. -/
def Fits32 (n : Int) : Prop := -2 ^ 31 ≤ n ∧ n < 2 ^ 31

/-- Whether a number **fits 64 bits**. -/
def Fits64 (n : Int) : Prop := -2 ^ 63 ≤ n ∧ n < 2 ^ 63

instance (n : Int) : Decidable (Fits32 n) := inferInstanceAs (Decidable (_ ∧ _))

instance (n : Int) : Decidable (Fits64 n) := inferInstanceAs (Decidable (_ ∧ _))

theorem Fits32.fits64 {n : Int} (h : Fits32 n) : Fits64 n := by
  obtain ⟨hlow, hhigh⟩ := h
  constructor <;> omega

/-- A narrow number fits 32 bits. -/
theorem fits32_of_isNarrow {whole : Whole} (h : whole.isNarrow = true) : Fits32 whole.toInt := by
  cases whole with
  | narrow n => exact ⟨n.le_toInt, n.toInt_lt⟩
  | wide n => cases h

/-- Every number fits 64 bits. -/
theorem fits64_toInt (whole : Whole) : Fits64 whole.toInt := by
  cases whole with
  | narrow n => exact Fits32.fits64 (fits32_of_isNarrow rfl)
  | wide n => exact ⟨n.le_toInt, n.toInt_lt⟩

/-- **A sum as a whole number**: narrow if the summands are and it fits, wide otherwise. -/
def ofSum (narrow : Bool) (n : Int) : Whole :=
  if narrow = true ∧ Fits32 n then .narrow (Int32.ofInt n) else .wide (Int64.ofInt n)

/-- No sum that fits 64 bits wraps around. -/
theorem toInt_ofSum (narrow : Bool) {n : Int} (h : Fits64 n) : (ofSum narrow n).toInt = n := by
  rw [ofSum]
  split
  · rename_i hnarrow
    exact Int32.toInt_ofInt_of_le hnarrow.2.1 hnarrow.2.2
  · exact Int64.toInt_ofInt_of_le h.1 h.2

theorem isNarrow_ofSum (narrow : Bool) (n : Int) :
    (ofSum narrow n).isNarrow = true ↔ narrow = true ∧ Fits32 n := by
  rw [ofSum]
  split
  · rename_i hnarrow
    exact ⟨fun _ => hnarrow, fun _ => rfl⟩
  · rename_i hwide
    exact ⟨fun h => (by cases h), fun h => absurd h hwide⟩

/-- A whole number is the sum of itself. -/
theorem ofSum_toInt (whole : Whole) : ofSum whole.isNarrow whole.toInt = whole := by
  cases whole with
  | narrow n =>
    have hfits : Fits32 n.toInt := @fits32_of_isNarrow (.narrow n) rfl
    rw [ofSum, isNarrow, toInt, if_pos ⟨rfl, hfits⟩, Int32.ofInt_toInt]
  | wide n =>
    rw [ofSum, isNarrow, toInt, if_neg (fun h => by cases h.1), Int64.ofInt_toInt]

/-- What a field stands for in a sum: nothing counts as zero. -/
def orZero (held : Option Whole) : Int := held.elim 0 toInt

/-- Whether what a field holds lets a sum be narrow; nothing does. -/
def allowsNarrow (held : Option Whole) : Bool := held.all isNarrow

end Whole

open Whole (Fits32 Fits64 orZero allowsNarrow)

namespace Update

/-! ## One addition -/

theorem fitsInt32_iff (n : Int) : fitsInt32 n = true ↔ Fits32 n := by
  have hmin : Int32.minValue.toInt = -2 ^ 31 := by decide
  have hmax : Int32.maxValue.toInt = 2 ^ 31 - 1 := by decide
  rw [fitsInt32, Bool.and_eq_true, decide_eq_true_iff, decide_eq_true_iff, hmin, hmax, Fits32]
  omega

theorem fitsInt64_iff (n : Int) : fitsInt64 n = true ↔ Fits64 n := by
  have hmin : Int64.minValue.toInt = -2 ^ 63 := by decide
  have hmax : Int64.maxValue.toInt = 2 ^ 63 - 1 := by decide
  rw [fitsInt64, Bool.and_eq_true, decide_eq_true_iff, decide_eq_true_iff, hmin, hmax, Fits64]
  omega

/-- A sum in 64 bits. -/
theorem wideSum_eq (field : String) (n : Int) :
    wideSum field n
      = if Fits64 n then .ok (Whole.ofSum false n).toValue
        else .error (.incrementOverflow field) := by
  have hwide : Whole.ofSum false n = .wide (Int64.ofInt n) :=
    if_neg fun h => Bool.false_ne_true h.1
  rw [wideSum, hwide]
  simp only [fitsInt64_iff]
  rfl

/-- A sum in 32 bits where it fits. -/
theorem narrowSum_eq (field : String) (n : Int) :
    narrowSum field n
      = if Fits64 n then .ok (Whole.ofSum true n).toValue
        else .error (.incrementOverflow field) := by
  rw [narrowSum]
  by_cases h : Fits32 n
  · have hnarrow : Whole.ofSum true n = .narrow (Int32.ofInt n) := if_pos ⟨rfl, h⟩
    rw [if_pos ((fitsInt32_iff n).mpr h), if_pos h.fits64, hnarrow]
    rfl
  · -- a sum that is too large for 32 bits is made as if a summand were wide
    have hwide : Whole.ofSum true n = Whole.ofSum false n :=
      (if_neg fun hboth => h hboth.2).trans (if_neg fun hboth => h hboth.2).symm
    rw [if_neg (mt (fitsInt32_iff n).mp h), wideSum_eq, hwide]

/-- **One addition of whole numbers** is exact: it gives the sum where the sum fits 64 bits, in the
width that the summands call for, and is refused elsewhere. -/
theorem increment_whole (field : String) (held : Option Whole) (amount : Whole) :
    increment field (held.map Whole.toValue) amount.toValue
      = if Fits64 (orZero held + amount.toInt) then
          .ok (Whole.ofSum (allowsNarrow held && amount.isNarrow)
            (orZero held + amount.toInt)).toValue
        else .error (.incrementOverflow field) := by
  cases held with
  | none =>
    have hself : orZero none + amount.toInt = amount.toInt := Int.zero_add _
    have hnumber : amount.toValue.number?.isSome = true := by cases amount <;> rfl
    have hnarrow : (allowsNarrow none && amount.isNarrow) = amount.isNarrow := Bool.true_and _
    rw [hself, if_pos amount.fits64_toInt, hnarrow, amount.ofSum_toInt]
    exact if_pos hnumber
  | some held =>
    cases held with
    | narrow a =>
      cases amount with
      | narrow b => exact narrowSum_eq field (a.toInt + b.toInt)
      | wide b => exact wideSum_eq field (a.toInt + b.toInt)
    | wide a => cases amount <;> exact wideSum_eq field _

/-! ## Sums of many amounts -/

/-- The **exact sum** of what a field holds and amounts. -/
def total (start : Option Whole) (amounts : List Whole) : Int :=
  orZero start + (amounts.map Whole.toInt).sum

/-- Whether every **partial sum**, from the start alone to the whole sum, has a property. -/
def PartialSums (holds : Int → Prop) (start : Option Whole) (amounts : List Whole) : Prop :=
  ∀ first, first <+: amounts → holds (total start first)

/-- Whether a sum is **narrow throughout**: the start and all amounts are in 32 bits, and every
partial sum fits. -/
structure NarrowThroughout (start : Option Whole) (amounts : List Whole) : Prop where
  /-- What the field holds at first, if anything, is narrow. -/
  first : ∀ whole ∈ start, whole.isNarrow = true
  /-- The amounts are narrow. -/
  added : ∀ amount ∈ amounts, amount.isNarrow = true
  /-- The partial sums fit 32 bits. -/
  sums : PartialSums Fits32 start amounts

variable {start held : Option Whole} {amounts : List Whole} {amount : Whole}

theorem total_nil (start : Option Whole) : total start [] = orZero start := Int.add_zero _

theorem total_concat (start : Option Whole) (amounts : List Whole) (amount : Whole) :
    total start (amounts ++ [amount]) = total start amounts + amount.toInt := by
  rw [total, total, List.map_append, List.sum_append, List.map_singleton, List.sum_singleton,
    Int.add_assoc]

theorem partialSums_nil {holds : Int → Prop} :
    PartialSums holds start [] ↔ holds (orZero start) := by
  rw [← total_nil]
  exact ⟨fun h => h [] List.prefix_rfl, fun h first hfirst => List.prefix_nil.mp hfirst ▸ h⟩

/-- The partial sums of the first amounts are among those of all. -/
theorem PartialSums.of_prefix {holds : Int → Prop} {first : List Whole}
    (h : PartialSums holds start amounts) (hfirst : first <+: amounts) :
    PartialSums holds start first :=
  fun other hother => h other (hother.trans hfirst)

/-- One more amount makes one more partial sum. -/
theorem partialSums_concat {holds : Int → Prop} :
    PartialSums holds start (amounts ++ [amount])
      ↔ PartialSums holds start amounts ∧ holds (total start (amounts ++ [amount])) := by
  constructor
  · intro h
    exact ⟨h.of_prefix (List.prefix_append _ _), h _ List.prefix_rfl⟩
  · rintro ⟨hbefore, hlast⟩ first hfirst
    rcases List.prefix_concat_iff.mp hfirst with rfl | hfirst
    · exact hlast
    · exact hbefore first hfirst

theorem narrowThroughout_nil : NarrowThroughout start [] ↔ allowsNarrow start = true := by
  rw [allowsNarrow, Option.all_eq_true]
  constructor
  · intro h whole hwhole
    exact h.first whole (Option.mem_def.mpr hwhole)
  · intro h
    refine ⟨fun whole hwhole => h whole hwhole, fun _ hmem => absurd hmem List.not_mem_nil, ?_⟩
    rw [partialSums_nil]
    cases start with
    | none => exact ⟨by decide, by decide⟩
    | some whole => exact Whole.fits32_of_isNarrow (h whole rfl)

theorem narrowThroughout_concat :
    NarrowThroughout start (amounts ++ [amount])
      ↔ NarrowThroughout start amounts ∧ amount.isNarrow = true ∧
        Fits32 (total start (amounts ++ [amount])) := by
  constructor
  · intro h
    obtain ⟨hbefore, hlast⟩ := partialSums_concat.mp h.sums
    exact ⟨⟨h.first, fun other hmem => h.added other (List.mem_append_left _ hmem), hbefore⟩,
      h.added amount (List.mem_append_right _ List.mem_cons_self), hlast⟩
  · rintro ⟨hbefore, hamount, hlast⟩
    refine ⟨hbefore.first, fun other hmem => ?_, partialSums_concat.mpr ⟨hbefore.sums, hlast⟩⟩
    rcases List.mem_append.mp hmem with hother | hother
    · exact hbefore.added other hother
    · rw [List.mem_singleton.mp hother]
      exact hamount

/-- **What a field holds is a sum**: it is the exact sum, and narrow just if the sum is narrow
throughout. -/
structure IsSum (start : Option Whole) (amounts : List Whole) (held : Option Whole) : Prop where
  /-- The number is the exact sum. -/
  exact : orZero held = total start amounts
  /-- Its width is that of the sum. -/
  width : allowsNarrow held = true ↔ NarrowThroughout start amounts
  /-- Nothing is added by no amounts. -/
  unchanged : amounts = [] → held = start
  /-- An amount leaves something behind. -/
  present : amounts ≠ [] → held.isSome = true

/-- What the field holds at first is the sum of no amounts. -/
theorem isSum_nil (start : Option Whole) : IsSum start [] start :=
  ⟨(total_nil start).symm, narrowThroughout_nil.symm, fun _ => rfl, fun h => absurd rfl h⟩

/-- One more addition to a sum gives the next sum, if that fits 64 bits. -/
theorem increment_of_isSum (field : String) (h : IsSum start amounts held)
    (hfits : Fits64 (total start (amounts ++ [amount]))) :
    ∃ sum : Whole, increment field (held.map Whole.toValue) amount.toValue = .ok sum.toValue ∧
      IsSum start (amounts ++ [amount]) (some sum) := by
  have hsum : orZero held + amount.toInt = total start (amounts ++ [amount]) := by
    rw [total_concat, h.exact]
  rw [increment_whole, hsum, if_pos hfits]
  refine ⟨_, rfl, Whole.toInt_ofSum _ hfits, ?_, fun hnil => ?_, fun _ => rfl⟩
  · rw [narrowThroughout_concat, ← h.width, ← and_assoc, ← Bool.and_eq_true]
    exact Whole.isNarrow_ofSum _ _
  · exact absurd hnil (List.append_ne_nil_of_right_ne_nil _ (List.cons_ne_nil _ _))

/-- An addition that leaves the 64-bit integers is refused. -/
theorem increment_refused (field : String) (h : IsSum start amounts held)
    (hfits : ¬ Fits64 (total start (amounts ++ [amount]))) :
    increment field (held.map Whole.toValue) amount.toValue
      = .error (.incrementOverflow field) := by
  rw [increment_whole, h.exact, ← total_concat, if_neg hfits]

/-- The amounts that are **taken**, one after the other: those that keep the sum in 64 bits. -/
def taken (start : Option Whole) (amounts : List Whole) : List Whole :=
  amounts.foldl
    (fun before amount =>
      if Fits64 (total start (before ++ [amount])) then before ++ [amount] else before)
    []

theorem taken_concat (start : Option Whole) (amounts : List Whole) (amount : Whole) :
    taken start (amounts ++ [amount])
      = if Fits64 (total start (taken start amounts ++ [amount])) then
          taken start amounts ++ [amount]
        else taken start amounts := by
  rw [taken, List.foldl_append]
  rfl

/-- Where every partial sum fits 64 bits, all amounts are taken. -/
theorem taken_eq_self (h : PartialSums Fits64 start amounts) : taken start amounts = amounts := by
  induction amounts using List.reverseRecOn with
  | nil => rfl
  | append_singleton before amount ih =>
    obtain ⟨hbefore, hlast⟩ := partialSums_concat.mp h
    rw [taken_concat, ih hbefore, if_pos hlast]

/-- There every amount fits when its turn comes. -/
theorem fits_of_partialSums {later : List Whole}
    (h : PartialSums Fits64 start (amounts ++ amount :: later)) :
    Fits64 (total start (taken start amounts ++ [amount])) := by
  rw [← List.singleton_append, ← List.append_assoc] at h
  obtain ⟨hbefore, hlast⟩ := partialSums_concat.mp (h.of_prefix (List.prefix_append _ _))
  rw [taken_eq_self hbefore]
  exact hlast

end Update

open Update (total taken PartialSums NarrowThroughout IsSum)

/-! ## Requests that add -/

/-- **A request to add** a whole number to a field of the first match. -/
structure Increment where
  /-- When the request is made. -/
  now : DateTime
  /-- What selects the document. -/
  query : Document
  /-- What is added. -/
  amount : Whole
  /-- Whether a document is stored where none matches. -/
  upsert : Bool

/-- The call to a store. -/
def Increment.call (increment : Increment) (collection field : String) : Call .outcome :=
  .updateOne collection increment.query
    [("$inc", .document [(field, increment.amount.toValue)])] increment.upsert

namespace Store

variable {store : Store} {collection field : String} {position : Nat} {doc : Document}
  {start held : Option Whole} {increments before after : List Increment} {next : Increment}

/-- One addition to the field of a document, from what the field holds. -/
theorem updated_increment (now : DateTime) (doc : Document) (field : String) (amount : Whole) :
    Collection.updated now [("$inc", .document [(field, amount.toValue)])] doc
      = (Update.increment field (Entries.get? doc field) amount.toValue).map
          (Entries.insert doc field) := by
  rw [← Update.Change.incrementAll_singleton]
  exact Update.apply_singleton ⟨now, false⟩ .inc [(field, amount.toValue)] doc

/-! ## Documents that hold a sum -/

/-- The document with what its field holds, written if there is something. -/
def withHeld (doc : Document) (field : String) (held : Option Whole) : Document :=
  held.elim doc fun sum => Entries.insert doc field sum.toValue

/-- What is written later stands. -/
theorem insert_withHeld (doc : Document) (field : String) (held : Option Whole) (value : Value) :
    Entries.insert (withHeld doc field held) field value = Entries.insert doc field value := by
  cases held with
  | none => rfl
  | some sum => exact Entries.insert_insert doc field sum.toValue value

/-- **A document holds a sum**: the documents are as before but for one field of the one at a
position, and that holds the sum of what it held at first and of amounts. -/
structure HoldsSum (docs docs' : List Document) (position : Nat) (doc : Document) (field : String)
    (start : Option Whole) (amounts : List Whole) (held : Option Whole) : Prop where
  /-- What the field holds is the sum. -/
  sum : IsSum start amounts held
  /-- The field holds it. -/
  get?_eq : Entries.get? (withHeld doc field held) field = held.map Whole.toValue
  /-- Nothing else is written. -/
  docs_eq : docs' = docs.set position (withHeld doc field held)

section

variable {docs : List Document} {amounts : List Whole}

/-- Writing what the document holds changes nothing. -/
theorem set_withHeld_of_get? (hdoc : docs[position]? = some doc)
    (hfield : Entries.get? doc field = start.map Whole.toValue) :
    withHeld doc field start = doc ∧ docs.set position (withHeld doc field start) = docs := by
  have hsame : withHeld doc field start = doc := by
    cases start with
    | none => rfl
    | some whole => exact Entries.insert_of_get? hfield
  obtain ⟨hposition, hget⟩ := List.getElem?_eq_some_iff.mp hdoc
  refine ⟨hsame, ?_⟩
  rw [hsame, ← hget, List.set_getElem_self]

/-- Before any addition the field holds the sum of no amounts. -/
theorem holdsSum_nil (hdoc : docs[position]? = some doc)
    (hfield : Entries.get? doc field = start.map Whole.toValue) :
    HoldsSum docs docs position doc field start [] start := by
  obtain ⟨hsame, hdocs⟩ := set_withHeld_of_get? hdoc hfield
  exact ⟨Update.isSum_nil start, hsame.symm ▸ hfield, hdocs.symm⟩

/-- The document at the position is the one with the sum. -/
theorem HoldsSum.getElem? {docs' : List Document} (hdoc : docs[position]? = some doc)
    (h : HoldsSum docs docs' position doc field start amounts held) :
    docs'[position]? = some (withHeld doc field held) := by
  obtain ⟨hposition, -⟩ := List.getElem?_eq_some_iff.mp hdoc
  rw [h.docs_eq, List.getElem?_set_self hposition]

end

/-- Whether only the field of the document at a position is written, with the **exact sum** of what
it held at first and of amounts, in 32 bits just if the sum is narrow throughout. -/
def StoresTotal (docs docs' : List Document) (position : Nat) (doc : Document) (field : String)
    (start : Option Whole) (amounts : List Whole) : Prop :=
  ∃ sum : Whole, sum.toInt = total start amounts ∧
    (sum.isNarrow = true ↔ NarrowThroughout start amounts) ∧
    docs' = docs.set position (Entries.insert doc field sum.toValue)

/-- What holds a sum of some amounts stores their total. -/
theorem HoldsSum.storesTotal {docs docs' : List Document} {amounts : List Whole}
    (h : HoldsSum docs docs' position doc field start amounts held) (hne : amounts ≠ []) :
    StoresTotal docs docs' position doc field start amounts := by
  obtain ⟨sum, rfl⟩ := Option.isSome_iff_exists.mp (h.sum.present hne)
  exact ⟨sum, h.sum.exact, h.sum.width, h.docs_eq⟩

section

variable [Runtime]

/-! ## Runs -/

/-- The store after requests that add to one field, one after the other. -/
def incremented (store : Store) (collection field : String) (increments : List Increment) :
    Store :=
  store.serveAll (increments.map fun increment =>
    (increment.now, .make ⟨.outcome, increment.call collection field⟩))

theorem incremented_concat (store : Store) (collection field : String) (before : List Increment)
    (next : Increment) :
    store.incremented collection field (before ++ [next])
      = ((store.incremented collection field before).answer next.now
          (next.call collection field)).2 := by
  rw [incremented, List.map_append, List.map_singleton, serveAll_concat]
  rfl

/-- **The reply to an addition** and the store after it: the document at the position is rewritten
with the sum, or nothing is changed. -/
theorem answer_increment (field : String) {current : Document}
    (hfound : Collection.firstPosition next.query none (store.documents collection) = [position])
    (hcurrent : (store.documents collection)[position]? = some current) :
    match Update.increment field (Entries.get? current field) next.amount.toValue with
    | .ok sum =>
      ∃ outcome, outcome.matched = 1 ∧
        store.answer next.now (next.call collection field)
          = (.ok outcome, store.withDocuments collection
              ((store.documents collection).set position (Entries.insert current field sum)))
    | .error fault =>
      store.answer next.now (next.call collection field) = (.error (.store fault), store) := by
  obtain ⟨found, hfirst⟩ : ∃ found, Collection.first? next.query none (store.documents collection)
      = .ok (some (position, found)) := by
    rw [Collection.firstPosition] at hfound
    split at hfound
    · rename_i found hfirst
      cases hfound
      exact ⟨_, hfirst⟩
    · cases hfound
  have hsame : found = current :=
    Option.some.inj ((Collection.first?_eq_some hfirst).1.symm.trans hcurrent)
  subst hsame
  rw [answer, Increment.call, Call.run, updateOne, hfirst]
  dsimp only
  rw [updated_increment]
  cases Update.increment field (Entries.get? found field) next.amount.toValue with
  | error fault => rfl
  | ok sum => exact ⟨_, rfl, rfl⟩

/-- Whether the query of every request **finds the document** at a position when its turn comes. -/
def FindsAt (store : Store) (collection field : String) (position : Nat)
    (increments : List Increment) : Prop :=
  ∀ before next after, increments = before ++ next :: after →
    Collection.firstPosition next.query none
      ((store.incremented collection field before).documents collection) = [position]

theorem findsAt_nil : FindsAt store collection field position [] :=
  fun _ _ _ hsplit =>
    absurd hsplit.symm (List.append_ne_nil_of_right_ne_nil _ (List.cons_ne_nil _ _))

/-- The first requests of a run find the document if all do. -/
theorem FindsAt.left
    (h : FindsAt store collection field position (before ++ after)) :
    FindsAt store collection field position before :=
  fun first other rest hsplit =>
    h first other (rest ++ after) (by rw [hsplit, List.append_assoc, List.cons_append])

/-- A run finds the document if the first request does, and the others do afterwards. -/
theorem findsAt_cons
    (hfirst : Collection.firstPosition next.query none (store.documents collection) = [position])
    (hrest : FindsAt (store.answer next.now (next.call collection field)).2 collection field
      position increments) :
    FindsAt store collection field position (next :: increments) := by
  intro before other after hsplit
  cases before with
  | nil =>
    cases hsplit
    exact hfirst
  | cons first before =>
    cases hsplit
    exact hrest before other after rfl

section

variable {docs : List Document} {amounts : List Whole} (hdoc : docs[position]? = some doc)
  (h : HoldsSum docs (store.documents collection) position doc field start amounts held)
  (hfound : Collection.firstPosition next.query none (store.documents collection) = [position])

include hdoc h hfound

/-- **One addition that fits** succeeds, and the field holds the next sum. -/
theorem answer_of_fits (hfits : Fits64 (total start (amounts ++ [next.amount]))) :
    ∃ outcome sum, outcome.matched = 1 ∧
      (store.answer next.now (next.call collection field)).1 = .ok outcome ∧
      HoldsSum docs
        ((store.answer next.now (next.call collection field)).2.documents collection)
        position doc field start (amounts ++ [next.amount]) (some sum) := by
  obtain ⟨sum, hincrement, hsum⟩ := Update.increment_of_isSum field h.sum hfits
  have hanswer := answer_increment field hfound (h.getElem? hdoc)
  rw [h.get?_eq, hincrement] at hanswer
  obtain ⟨outcome, hmatched, hanswer⟩ := hanswer
  refine ⟨outcome, sum, hmatched, by rw [hanswer], hsum, Entries.get?_insert_self doc field _, ?_⟩
  rw [hanswer, documents_withDocuments_self, insert_withHeld, h.docs_eq, List.set_set]
  rfl

/-- **One addition that does not fit** is refused and changes nothing. -/
theorem answer_of_not_fits (hfits : ¬ Fits64 (total start (amounts ++ [next.amount]))) :
    store.answer next.now (next.call collection field)
      = (.error (.store (.incrementOverflow field)), store) := by
  have hanswer := answer_increment field hfound (h.getElem? hdoc)
  rw [h.get?_eq, Update.increment_refused field h.sum hfits] at hanswer
  exact hanswer

end

/-- **A run of additions** keeps that the field holds the sum of the amounts that were taken, by
induction on the last request. -/
theorem holdsSum_incremented (hdoc : (store.documents collection)[position]? = some doc)
    (hfield : Entries.get? doc field = start.map Whole.toValue)
    (hfound : FindsAt store collection field position increments) :
    ∃ held, HoldsSum (store.documents collection)
      ((store.incremented collection field increments).documents collection) position doc field
      start (taken start (increments.map Increment.amount)) held := by
  induction increments using List.reverseRecOn with
  | nil => exact ⟨start, holdsSum_nil hdoc hfield⟩
  | append_singleton before next ih =>
    obtain ⟨held, hheld⟩ := ih hfound.left
    have hnext := hfound before next [] rfl
    rw [incremented_concat, List.map_append, List.map_singleton, Update.taken_concat]
    split
    · rename_i hfits
      obtain ⟨-, sum, -, -, hsum⟩ := answer_of_fits hdoc hheld hnext hfits
      exact ⟨some sum, hsum⟩
    · rename_i hfits
      rw [answer_of_not_fits hdoc hheld hnext hfits]
      exact ⟨held, hheld⟩

/-- Whether a request is answered with one match. -/
def Succeeds (store : Store) (collection field : String) (next : Increment) : Prop :=
  ∃ outcome, outcome.matched = 1 ∧
    (store.answer next.now (next.call collection field)).1 = .ok outcome

/-- **Additions are exact** over a run of requests: what each one answers and what is stored in the
end. -/
structure AddsExactly (store : Store) (collection field : String) (position : Nat)
    (doc : Document) (start : Option Whole) (increments : List Increment) : Prop where
  /-- Where every partial sum fits 64 bits, every request succeeds. -/
  all_succeed : PartialSums Fits64 start (increments.map Increment.amount) →
    ∀ before next after, increments = before ++ next :: after →
      Succeeds (store.incremented collection field before) collection field next
  /-- There the sum of all amounts is stored. -/
  all_stored : PartialSums Fits64 start (increments.map Increment.amount) → increments ≠ [] →
    StoresTotal (store.documents collection)
      ((store.incremented collection field increments).documents collection)
      position doc field start (increments.map Increment.amount)
  /-- In any run, a request succeeds if its own sum fits, that of what was taken before and its
  amount. -/
  succeeds : ∀ before next after, increments = before ++ next :: after →
    Fits64 (total start (taken start (before.map Increment.amount) ++ [next.amount])) →
    Succeeds (store.incremented collection field before) collection field next
  /-- Any other request is refused by the store and changes nothing. -/
  refused : ∀ before next after, increments = before ++ next :: after →
    ¬ Fits64 (total start (taken start (before.map Increment.amount) ++ [next.amount])) →
    (store.incremented collection field before).answer next.now (next.call collection field)
      = (.error (.store (.incrementOverflow field)), store.incremented collection field before)
  /-- The sum of what was taken is stored. -/
  stored : taken start (increments.map Increment.amount) ≠ [] →
    StoresTotal (store.documents collection)
      ((store.incremented collection field increments).documents collection)
      position doc field start (taken start (increments.map Increment.amount))
  /-- Where nothing was taken, all is as it was. -/
  kept : taken start (increments.map Increment.amount) = [] →
    (store.incremented collection field increments).documents collection
      = store.documents collection

/-- **Adding whole numbers to a field is exact integer addition** over every run of requests that
find the document: sums that fit 64 bits are stored exactly and in the width that the history calls
for, and requests whose sum does not fit are refused and change nothing. -/
theorem increments_add_exactly (store : Store) (collection field : String) {position : Nat}
    {doc : Document} (start : Option Whole) (increments : List Increment)
    (hdoc : (store.documents collection)[position]? = some doc)
    (hfield : Entries.get? doc field = start.map Whole.toValue)
    (hfound : FindsAt store collection field position increments) :
    AddsExactly store collection field position doc start increments := by
  have hrun : ∀ before after, increments = before ++ after → ∃ held,
      HoldsSum (store.documents collection)
        ((store.incremented collection field before).documents collection) position doc field
        start (taken start (before.map Increment.amount)) held := by
    rintro before after rfl
    exact holdsSum_incremented hdoc hfield hfound.left
  have hsucceeds : ∀ before next after, increments = before ++ next :: after →
      Fits64 (total start (taken start (before.map Increment.amount) ++ [next.amount])) →
      Succeeds (store.incremented collection field before) collection field next := by
    intro before next after hsplit hfits
    obtain ⟨held, hheld⟩ := hrun before (next :: after) hsplit
    obtain ⟨outcome, -, hmatched, hanswer, -⟩ :=
      answer_of_fits hdoc hheld (hfound before next after hsplit) hfits
    exact ⟨outcome, hmatched, hanswer⟩
  obtain ⟨held, hheld⟩ := hrun increments [] (List.append_nil _).symm
  refine ⟨fun hall before next after hsplit => ?_, fun hall hne => ?_, hsucceeds,
    fun before next after hsplit hfits => ?_, hheld.storesTotal, fun hnone => ?_⟩
  · refine hsucceeds before next after hsplit ?_
    rw [hsplit, List.map_append, List.map_cons] at hall
    exact Update.fits_of_partialSums hall
  · rw [← Update.taken_eq_self hall]
    refine hheld.storesTotal ?_
    rw [Update.taken_eq_self hall]
    exact fun hnil => hne (List.map_eq_nil_iff.mp hnil)
  · obtain ⟨held, hheld⟩ := hrun before (next :: after) hsplit
    exact answer_of_not_fits hdoc hheld (hfound before next after hsplit) hfits
  · rw [hheld.docs_eq, hheld.sum.unchanged hnone]
    exact (set_withHeld_of_get? hdoc hfield).2

end

/-- The largest narrow number and one more is wide and stays so when the one is taken away again; an
amount that would leave the 64-bit integers is not taken. -/
theorem increments_add_exactly_widened :
    let doc : Document := [("n", .int32 2147483647)]
    let store : Store := ⟨[("counters", [doc])], .ofSource ⟨0, 0, 0⟩⟩
    let increments : List Increment :=
      [⟨⟨0⟩, [], .narrow 1, false⟩, ⟨⟨1⟩, [], .narrow (-1), false⟩,
        ⟨⟨2⟩, [], .wide 9223372036854775807, false⟩]
    (store.documents "counters")[0]? = some doc ∧
    Entries.get? doc "n" = (some (Whole.narrow 2147483647)).map Whole.toValue ∧
    FindsAt store "counters" "n" 0 increments ∧
    AddsExactly store "counters" "n" 0 doc (some (.narrow 2147483647)) increments ∧
    (store.incremented "counters" "n" increments).documents "counters"
      = [[("n", .int64 2147483647)]] := by
  intro doc store increments
  have hfound : FindsAt store "counters" "n" 0 increments :=
    findsAt_cons rfl (findsAt_cons rfl (findsAt_cons rfl findsAt_nil))
  exact ⟨rfl, rfl, hfound, increments_add_exactly store "counters" "n" _ increments rfl rfl hfound,
    rfl⟩

end Store

end DocStore
