import DocStore.Proofs.ShownCalls
import DocStore.Proofs.StoreEffect

/-! # Actions that simulate each other

An action on a store simulates an action on a store that holds what is shown of it, if both give
related values or the same error, and the stores still correspond afterwards. Simulations compose
along sequencing, so it is enough to look at what an action consists of: outcomes, which touch no
store, and calls. A stream is the same on both sides if its pages are, although the two stores hold
different numbers of documents. -/

namespace DocStore

open Outcome (Alike alike_refl)

namespace Action

variable {β γ δ ε : Type} {collection : String}

/-- **Simulation**: related values or the same error, and stores that correspond. -/
def Simulates (collection : String) (related : β → γ → Prop) (whole : Action β)
    (shown : Action γ) : Prop :=
  ∀ (moment : Moment) (first second : Session),
    Store.Shows collection first.store second.store →
    Alike related (whole moment first).1 (shown moment second).1 ∧
      Store.Shows collection (whole moment first).2.store (shown moment second).2.store

/-- Simulations compose along sequencing. -/
theorem Simulates.bind {related : β → γ → Prop} {related' : δ → ε → Prop} {whole : Action β}
    {shown : Action γ} {next : β → Action δ} {next' : γ → Action ε}
    (h : Simulates collection related whole shown)
    (hnext : ∀ a b, related a b → Simulates collection related' (next a) (next' b)) :
    Simulates collection related' (whole >>= next) (shown >>= next') := by
  intro moment first second hshows
  rw [bind_apply, bind_apply]
  obtain ⟨halike, hafter⟩ := h moment first second hshows
  rcases hwhole : whole moment first with ⟨outcome, first'⟩
  rcases hshown : shown moment second with ⟨outcome', second'⟩
  rw [hwhole, hshown] at halike hafter
  cases halike with
  | ok hrelated => exact hnext _ _ hrelated moment first' second' hafter
  | error error => exact ⟨Alike.error error, hafter⟩

theorem simulates_ofExcept {related : β → γ → Prop} {outcome : Except Error β}
    {outcome' : Except Error γ} (h : Alike related outcome outcome') :
    Simulates collection related (ofExcept outcome) (ofExcept outcome') :=
  fun _ _ _ hshows => ⟨h, hshows⟩

/-- An outcome simulates itself. -/
theorem simulates_ofExcept_self (outcome : Except Error β) :
    Simulates collection Eq (ofExcept outcome) (ofExcept outcome) :=
  simulates_ofExcept (alike_refl outcome)

theorem simulates_pure {related : β → γ → Prop} {first : β} {second : γ}
    (h : related first second) : Simulates collection related (pure first) (pure second) :=
  fun _ _ _ hshows => ⟨Alike.ok h, hshows⟩

/-- A value that is made of the first one only. -/
theorem Simulates.returning {related : β → γ → Prop} {related' : δ → γ → Prop} {whole : Action β}
    {shown : Action γ} {f : β → δ} (h : Simulates collection related whole shown)
    (hf : ∀ a b, related a b → related' (f a) b) :
    Simulates collection related' (whole >>= fun a => pure (f a)) shown := by
  have hshown : shown = shown >>= pure := (bind_pure shown).symm
  rw [hshown]
  exact h.bind fun a b hab => simulates_pure (hf a b hab)

theorem Simulates.map {whole shown : Action β} (h : Simulates collection Eq whole shown)
    (f : β → γ) : Simulates collection Eq (f <$> whole) (f <$> shown) := by
  intro moment first second hshows
  rw [map_apply, map_apply]
  obtain ⟨halike, hafter⟩ := h moment first second hshows
  exact ⟨halike.map fun a b hab => congrArg f hab, hafter⟩

variable [Runtime]

/-- **Calls** that are alike on corresponding stores simulate each other, also if they take too
long. -/
theorem simulates_call {kind kind' : ReplyKind} {call : Call kind} {call' : Call kind'}
    {related : kind.Reply → kind'.Reply → Prop} (limit : Duration)
    (h : ∀ (now : DateTime) (whole shown : Store), Store.Shows collection whole shown →
      Alike (Carried collection related) (call.run now whole) (call'.run now shown)) :
    Simulates collection related (Action.call limit call) (Action.call limit call') := by
  intro moment first second hshows
  rw [Action.call, Action.call]
  by_cases hlate : moment.latency.exceeds limit = true
  · simp only [if_pos hlate]
    exact ⟨Alike.error _, hshows⟩
  · simp only [if_neg hlate, Store.answer]
    rcases (h moment.now first.store second.store hshows).values_or_fault with
      ⟨⟨reply, whole⟩, ⟨reply', shown⟩, hcall, hcall', hcarried⟩ | ⟨fault, hcall, hcall'⟩
    · rw [hcall, hcall']
      exact ⟨Alike.ok hcarried.1, hcarried.2⟩
    · rw [hcall, hcall']
      exact ⟨Alike.error _, hshows⟩

end Action

namespace Repository

variable {α : Type}

/-! ## Streams -/

/-- **A stream is the same for two readers** that give the same pages, each with its own bound, if a
full page is only given where documents are left within both bounds. -/
theorem streamPages_eq {readPage readPage' : Nat → Nat → Action (Page α)} {moment : Moment}
    (whole shown : Store) {stored stored' : Nat}
    (hkeeps : ∀ skip size, Action.KeepsStore (readPage skip size))
    (hkeeps' : ∀ skip size, Action.KeepsStore (readPage' skip size))
    (hpages : ∀ (skip size : Nat) (first second : Session), first.store = whole →
      second.store = shown → (readPage skip size moment first).1 = (readPage' skip size moment second).1)
    (hfull : ∀ (skip size : Nat) (first : Session) (page : Page α), size ≠ 0 → first.store = whole →
      (readPage skip size moment first).1 = .ok page → page.full = true →
      0 < page.read ∧ skip < stored ∧ skip < stored')
    (skip : Nat) (remaining : Option Nat) (first second : Session) (hfirst : first.store = whole)
    (hsecond : second.store = shown) :
    (streamPages readPage stored moment skip remaining first).1
      = (streamPages readPage' stored' moment skip remaining second).1 := by
  rw [streamPages, streamPages]
  split
  · rfl
  · rename_i hsize
    have hpage := hpages skip (nextPage remaining) first second hfirst hsecond
    dsimp only
    rw [← hpage]
    cases houtcome : (readPage skip (nextPage remaining) moment first).1 with
    | error error => rfl
    | ok page =>
      dsimp only
      split
      · rename_i hpagefull
        -- both sides read on, since the page was given within both bounds
        obtain ⟨hread, hstored, hstored'⟩ :=
          hfull skip (nextPage remaining) first page hsize hfirst houtcome hpagefull
        rw [dif_pos ⟨hread, hstored⟩, dif_pos ⟨hread, hstored'⟩]
        have hrest := streamPages_eq whole shown hkeeps hkeeps' hpages hfull (skip + page.read)
          (remaining.map (· - page.read)) (readPage skip (nextPage remaining) moment first).2
          (readPage' skip (nextPage remaining) moment second).2
          ((hkeeps skip (nextPage remaining) moment first).trans hfirst)
          ((hkeeps' skip (nextPage remaining) moment second).trans hsecond)
        dsimp only
        rw [hrest]
      · rfl
termination_by stored - skip
decreasing_by exact sub_add_lt ⟨hread, hstored⟩

/-- The page that the documents of a call make, or the error of the call. -/
def pageOf (model : Model α) (size : Nat) : Except Error (List Document) → Page α
  | .error error => ⟨[], some error, 0, false⟩
  | .ok docs =>
    ⟨(model.decodeWhile docs).1, (model.decodeWhile docs).2, docs.length,
      (model.decodeWhile docs).2.isNone && decide (size ≤ docs.length)⟩

/-- A page is what the call of the page gives. -/
theorem readPage_fst [Runtime] (repository : Repository α) (compiled : CompiledFilter)
    (skip size : Nat) (moment : Moment) (session : Session) :
    (repository.readPage compiled skip size moment session).1
      = .ok (pageOf repository.model size
          (repository.call (.find repository.collection compiled.query
            (pageOptions compiled.options skip size)) moment session).1) := by
  rw [readPage]
  simp only [Action.perform]
  rcases repository.call (.find repository.collection compiled.query
    (pageOptions compiled.options skip size)) moment session with ⟨outcome, after⟩
  cases outcome <;> rfl

/-- A full page comes from a call that gave documents. -/
theorem exists_of_full {model : Model α} {size : Nat} (hsize : size ≠ 0)
    {outcome : Except Error (List Document)} (h : (pageOf model size outcome).full = true) :
    ∃ docs, outcome = .ok docs ∧ docs ≠ [] ∧ (pageOf model size outcome).read = docs.length := by
  cases outcome with
  | error error => cases h
  | ok docs =>
    rw [pageOf, Bool.and_eq_true, decide_eq_true_eq] at h
    refine ⟨docs, rfl, ?_, rfl⟩
    rintro rfl
    exact hsize (Nat.le_zero.mp h.2)

/-- The documents of a call that reads are those that the collection gives. -/
theorem find_of_call [Runtime] (repository : Repository α) {query : Document}
    {options : QueryOptions} {moment : Moment} {session : Session} {docs : List Document}
    (h : (repository.call (.find repository.collection query options) moment session).1
      = .ok docs) :
    Collection.find query options (session.store.documents repository.collection) = .ok docs := by
  rw [Repository.call, Action.call] at h
  split at h
  · cases h
  · rw [Store.answer, Call.run] at h
    cases hfind : Collection.find query options
        (session.store.documents repository.collection) with
    | error fault => rw [hfind] at h; cases h
    | ok found =>
      rw [hfind] at h
      cases h
      rfl

end Repository

namespace Collection

variable [Runtime]

/-- What a query selects is no more than there is. -/
theorem length_le_of_select {query : Document} {docs found : List Document}
    (h : Query.select query docs = .ok found) : found.length ≤ docs.length := by
  induction docs generalizing found with
  | nil => cases h; exact Nat.le_refl _
  | cons doc rest ih =>
    rw [Query.select] at h
    split at h
    · cases h
    · obtain ⟨later, hlater, rfl⟩ := Outcome.map_eq_ok_iff.mp h
      have hlength := ih hlater
      split
      · rw [List.length_cons, List.length_cons]
        exact Nat.succ_le_succ hlength
      · rw [List.length_cons]
        exact Nat.le_succ_of_le hlength

/-- Sorting keeps the number of documents. -/
theorem length_arrange (options : QueryOptions) (docs : List Document) :
    (options.arrange docs).length = docs.length := by
  rw [QueryOptions.arrange]
  split
  · exact (Sorting.sort_perm _ _).length_eq
  · rfl

/-- A page that has documents starts within the collection. -/
theorem lt_of_find_page {query : Document} {options : QueryOptions} {skip size : Nat}
    {docs found : List Document}
    (h : find query (Repository.pageOptions options skip size) docs = .ok found)
    (hfound : found ≠ []) : skip < docs.length := by
  obtain ⟨selected, hselect, rfl⟩ := Outcome.map_eq_ok_iff.mp h
  have hselected := length_le_of_select hselect
  have harranged := length_arrange (Repository.pageOptions options skip size) selected
  -- beyond the end nothing is left to take, whatever the sort specification is
  by_contra hbeyond
  refine hfound ?_
  have hdrop : ((Repository.pageOptions options skip size).arrange selected).drop skip = [] :=
    List.drop_eq_nil_of_le (by omega)
  rw [QueryOptions.present, QueryOptions.page]
  simp only [Repository.pageOptions] at hdrop ⊢
  rw [Option.getD_some, hdrop, List.take_nil, ite_self]
  rfl

end Collection

end DocStore
