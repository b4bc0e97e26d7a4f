import Mathlib.Logic.Basic

/-! # Outcomes

A value or the reason why there is none. What is made of a value is only made if there is one, so a
value in the end goes back to a value at the start. -/

namespace DocStore

namespace Outcome

universe u v w

variable {ε : Type u} {α : Type v} {β : Type w}

/-- A value in the end was made of a value. -/
theorem map_eq_ok_iff {f : α → β} {outcome : Except ε α} {result : β} :
    outcome.map f = .ok result ↔ ∃ value, outcome = .ok value ∧ f value = result := by
  cases outcome with
  | error fault => simp [Except.map]
  | ok value => simp [Except.map]

/-- A value in the end was made of a value, in one more step that gave one. -/
theorem bind_eq_ok_iff {f : α → Except ε β} {outcome : Except ε α} {result : β} :
    outcome.bind f = .ok result ↔ ∃ value, outcome = .ok value ∧ f value = .ok result := by
  cases outcome with
  | error fault => simp [Except.bind]
  | ok value => simp [Except.bind]

/-- An outcome that is all right has a value. -/
theorem exists_of_isOk {outcome : Except ε α} (h : outcome.isOk = true) :
    ∃ value, outcome = .ok value := by
  cases outcome with
  | error fault => cases h
  | ok value => exact ⟨value, rfl⟩

/-- What stands in one of several lists was made of one of several values. -/
theorem mem_flatten_of_mapM {f : α → Except ε (List β)} {values : List α}
    {results : List (List β)} (h : values.mapM f = .ok results) {item : β} :
    item ∈ results.flatten ↔ ∃ value ∈ values, ∃ items, f value = .ok items ∧ item ∈ items := by
  induction values generalizing results with
  | nil =>
    cases h
    simp
  | cons value rest ih =>
    rw [List.mapM_cons] at h
    obtain ⟨items, hitems, hrest⟩ := bind_eq_ok_iff.mp h
    obtain ⟨others, hothers, hpure⟩ := bind_eq_ok_iff.mp hrest
    cases hpure
    rw [List.flatten_cons, List.mem_append, ih hothers]
    simp [hitems]

/-! ## The first of several faults -/

/-- **An outcome reports faults** if it is the first of them, or a value if there are none. -/
def Reports (outcome : Except ε α) (faults : List ε) : Prop :=
  match outcome with
  | .ok _ => faults = []
  | .error fault => faults.head? = some fault

section

variable {outcome : Except ε α} {faults later : List ε}

/-- There is a value just where there are no faults. -/
theorem Reports.exists_ok_iff (h : Reports outcome faults) :
    (∃ value, outcome = .ok value) ↔ faults = [] := by
  cases outcome with
  | ok value => exact ⟨fun _ => h, fun _ => ⟨value, rfl⟩⟩
  | error fault =>
    have hhead : faults.head? = some fault := h
    constructor
    · rintro ⟨value, hvalue⟩
      cases hvalue
    · rintro rfl
      cases hhead

/-- The error is the first fault. -/
theorem Reports.eq_error_iff (h : Reports outcome faults) {fault : ε} :
    outcome = .error fault ↔ faults.head? = some fault := by
  cases outcome with
  | ok value =>
    have hnone : faults = [] := h
    simp [hnone]
  | error first =>
    have hhead : faults.head? = some first := h
    simp [hhead]

/-- What is made of a value has no faults of its own. -/
theorem Reports.map (h : Reports outcome faults) (f : α → β) :
    Reports (outcome.map f) faults := by
  cases outcome <;> exact h

/-- The faults of a step come before those of the next one. -/
theorem Reports.bind (h : Reports outcome faults) {next : α → Except ε β}
    (hnext : ∀ value, outcome = .ok value → Reports (next value) later) :
    Reports (outcome.bind next) (faults ++ later) := by
  cases outcome with
  | ok value =>
    have hnone : faults = [] := h
    rw [hnone, List.nil_append]
    exact hnext value rfl
  | error fault =>
    have hhead : faults.head? = some fault := h
    show (faults ++ later).head? = some fault
    simp [List.head?_append, hhead]

end

end Outcome

end DocStore
