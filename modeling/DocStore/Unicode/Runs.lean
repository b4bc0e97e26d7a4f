/-! # Runs of code points

A set of characters as the ascending list of the code points where membership changes: the first
entry starts a run of members, the second ends it, and so on. -/

namespace DocStore

namespace Unicode

/-- Whether `n` lies in a run: an odd number of changes is at or before it. -/
def inRuns (changes : List Nat) (n : Nat) : Bool :=
  (changes.takeWhile fun change => decide (change ≤ n)).length % 2 == 1

end Unicode

end DocStore
