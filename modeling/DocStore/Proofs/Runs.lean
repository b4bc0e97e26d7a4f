import DocStore.Repository.Operation

/-! # Runs of operations

A run carries out operations one after the other, each at its own moment. An operation that fails
is answered with its error, and the run goes on with what the session is by then. -/

namespace DocStore

namespace Repository

variable {α : Type} (repository : Repository α)

/-- The documents of the repository's collection, in stored order. -/
def stored (session : Session) : List Document :=
  session.store.documents repository.collection

variable [Runtime]

/-- Carry out operations one after the other: the answers, and the session afterwards. -/
def performAll : List (Moment × Operation α) → Session →
    List (Except Error (Answer α)) × Session
  | [], session => ([], session)
  | (moment, operation) :: rest, session =>
    let first := repository.perform operation moment session
    let later := performAll rest first.2
    (first.1 :: later.1, later.2)

/-- The session after a run. -/
def sessionAfter (steps : List (Moment × Operation α)) (session : Session) : Session :=
  (repository.performAll steps session).2

@[simp] theorem sessionAfter_nil (session : Session) :
    repository.sessionAfter [] session = session := rfl

theorem sessionAfter_cons (step : Moment × Operation α) (rest : List (Moment × Operation α))
    (session : Session) :
    repository.sessionAfter (step :: rest) session
      = repository.sessionAfter rest (repository.perform step.2 step.1 session).2 := rfl

/-- A run in two parts goes on from the session after the first. -/
theorem sessionAfter_append (first second : List (Moment × Operation α)) (session : Session) :
    repository.sessionAfter (first ++ second) session
      = repository.sessionAfter second (repository.sessionAfter first session) := by
  induction first generalizing session with
  | nil => rfl
  | cons step rest ih => rw [List.cons_append, sessionAfter_cons, sessionAfter_cons, ih]

/-- The last operation of a run. -/
theorem sessionAfter_concat (before : List (Moment × Operation α)) (step : Moment × Operation α)
    (session : Session) :
    repository.sessionAfter (before ++ [step]) session
      = (repository.perform step.2 step.1 (repository.sessionAfter before session)).2 := by
  rw [sessionAfter_append]
  rfl

end Repository

end DocStore
