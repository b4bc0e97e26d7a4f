import DocStore.Pattern.Matcher
import DocStore.Pattern.Parser
import DocStore.Sorting.Small
import DocStore.Value.Basic

/-! # What a store runs on

Which patterns are well formed and which texts they match is up to a pattern engine, and two stable
sorts put documents and positions in order. Of all three nothing more is assumed than is said
here. -/

namespace DocStore

/-- **What a store runs on.** -/
class Runtime where
  /-- The texts that a pattern matches under some flags, if it is well formed. -/
  compile? : Pattern.Flags → String → Option (String → Bool)
  /-- The sort of documents. -/
  documents : Sorting.StableSort Document
  /-- The sort of positions, each with the document that it names. -/
  positions : Sorting.StableSort (Nat × Document)

/-- Patterns are read and matched here. Of what is sorted, documents are wide and positions are
narrow. -/
instance : Runtime where
  compile? flags text := (Pattern.parse? flags text).map Pattern.isMatch
  documents := Sorting.smallSort false
  positions := Sorting.smallSort true

end DocStore
