import DocStore.Error

/-! # Verdicts

A test of a document holds, does not hold, or is at fault. Connectives read from left to right and
stop as soon as the outcome is settled, so a fault counts only if the reading reaches it. -/

namespace DocStore

/-- A **verdict**: whether a test holds, or why it makes no sense. -/
abbrev Verdict : Type := Except Fault Bool

namespace Verdict

/-- Conjunction: the second verdict counts only if the first holds. -/
@[macro_inline] def both (first second : Verdict) : Verdict :=
  match first with
  | .ok true => second
  | settled => settled

/-- Disjunction: the second verdict counts only if the first does not hold. -/
@[macro_inline] def either (first second : Verdict) : Verdict :=
  match first with
  | .ok false => second
  | settled => settled

/-- Negation; a fault stays a fault. -/
def negate : Verdict → Verdict
  | .ok holds => .ok (!holds)
  | .error fault => .error fault

@[simp] theorem both_ok_true (second : Verdict) : both (.ok true) second = second := rfl

@[simp] theorem both_ok_false (second : Verdict) : both (.ok false) second = .ok false := rfl

@[simp] theorem both_error (fault : Fault) (second : Verdict) :
    both (.error fault) second = .error fault := rfl

@[simp] theorem either_ok_true (second : Verdict) : either (.ok true) second = .ok true := rfl

@[simp] theorem either_ok_false (second : Verdict) : either (.ok false) second = second := rfl

@[simp] theorem either_error (fault : Fault) (second : Verdict) :
    either (.error fault) second = .error fault := rfl

@[simp] theorem negate_ok (holds : Bool) : negate (.ok holds) = .ok (!holds) := rfl

@[simp] theorem negate_error (fault : Fault) : negate (.error fault) = .error fault := rfl

/-- A conjunction holds if and only if both of its sides do. -/
theorem both_eq_ok_true {first second : Verdict} :
    both first second = .ok true ↔ first = .ok true ∧ second = .ok true := by
  match first with
  | .ok true => simp
  | .ok false => simp
  | .error _ => simp

end Verdict

end DocStore
