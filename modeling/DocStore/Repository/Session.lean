import DocStore.Lifecycle.UpdateSpec
import DocStore.Store.Call

/-! # Sessions

What a repository does is a function of the moment at which it is done and of a session: the store,
and the calls and warnings so far. A call takes as long as the moment says; one that takes longer
than it may is given up before the store does anything. -/

namespace DocStore

/-- A call of any kind. -/
abbrev AnyCall : Type := (kind : ReplyKind) × Call kind

/-- A **session** with a store. -/
structure Session where
  /-- The store. -/
  store : Store
  /-- The calls that were made, in order. -/
  calls : List AnyCall := []
  /-- The warnings that were given, in order. -/
  warnings : List UpdateWarning := []

/-- The **moment** at which something is done. The clock is read once, and stands still until it is
done. -/
structure Moment where
  /-- The time. -/
  now : DateTime
  /-- How long each call to the store takes. -/
  latency : Duration := ⟨0, 0⟩

/-- What can be **done** with a store: it gives a value or an error, and changes the session. -/
abbrev Action (α : Type) : Type := ReaderT Moment (ExceptT Error (StateM Session)) α

namespace Action

variable [Runtime] {α : Type}

/-- Carry out an action. -/
def perform (action : Action α) (moment : Moment) (session : Session) :
    Except Error α × Session :=
  action moment session

/-- A value or an error, without touching the session. -/
def ofExcept (outcome : Except Error α) : Action α := fun _ session => (outcome, session)

/-- The time. -/
def now : Action DateTime := fun moment session => (.ok moment.now, session)

/-- Give warnings. -/
def warn (warnings : List UpdateWarning) : Action Unit := fun _ session =>
  (.ok (), { session with warnings := session.warnings ++ warnings })

/-- Make a call that may take as long as `limit`. -/
def call {kind : ReplyKind} (limit : Duration) (call : Call kind) : Action kind.Reply :=
  fun moment session =>
    let session := { session with calls := session.calls ++ [⟨kind, call⟩] }
    if moment.latency.exceeds limit then (.error (.timeout limit), session)
    else
      let (reply, store) := session.store.answer moment.now call
      (reply, { session with store := store })

end Action

end DocStore
