import DocStore.Proofs.Doubles
import DocStore.Proofs.Entries
import DocStore.Query.FieldTest
import Mathlib.Data.List.Perm.Subperm
import Mathlib.Data.List.Nodup

/-! # Two notions of equality

Values are equal by type and content where the store compares keys, and the same where a query
compares a field. The first is contained in the second (`FieldTest.same_of_equal`), and all that the
second adds is numbers: values of different types, or integers beyond what a double tells apart, that
are one and the same number (`FieldTest.same_iff`, `Value.SameNumber.confusable`). -/

namespace DocStore

namespace Value

mutual

/-- **A well-formed value**: no document inside it repeats a field. -/
def WellFormed : Value → Prop
  | .array items => WellFormedItems items
  | .document fields => (Entries.keys fields).Nodup ∧ WellFormedFields fields
  | .scopedCode _ scope => (Entries.keys scope).Nodup ∧ WellFormedFields scope
  | _ => True
termination_by structural value => value

/-- Well-formed items. -/
def WellFormedItems : List Value → Prop
  | [] => True
  | item :: rest => WellFormed item ∧ WellFormedItems rest
termination_by structural items => items

/-- Fields with well-formed values. -/
def WellFormedFields : List (String × Value) → Prop
  | [] => True
  | (_, value) :: rest => WellFormed value ∧ WellFormedFields rest
termination_by structural fields => fields

end

/-! ## Equality does not depend on the order -/

/-- Every value of well-formed fields is well formed. -/
theorem wellFormed_of_mem {fields : List (String × Value)} (h : WellFormedFields fields)
    {key : String} {value : Value} (hmem : (key, value) ∈ fields) : WellFormed value := by
  induction fields with
  | nil => cases hmem
  | cons entry rest ih =>
    obtain ⟨name, first⟩ := entry
    rw [WellFormedFields] at h
    rcases List.mem_cons.mp hmem with heq | hlater
    · cases heq
      exact h.1
    · exact ih h.2 hlater

/-- What it means that every field on the left has an equal field on the right. -/
theorem containedIn_iff {fields other : List (String × Value)} :
    containedIn fields other = true ↔ ∀ key value, (key, value) ∈ fields →
      ∃ found, Entries.get? other key = some found ∧ equal value found = true := by
  induction fields with
  | nil => simp [containedIn]
  | cons entry rest ih =>
    obtain ⟨name, first⟩ := entry
    rw [containedIn, Bool.and_eq_true, ih]
    constructor
    · rintro ⟨hfirst, hrest⟩ key value hmem
      rcases List.mem_cons.mp hmem with heq | hlater
      · cases heq
        cases hget : Entries.get? other name with
        | none => rw [hget] at hfirst; cases hfirst
        | some found => rw [hget] at hfirst; exact ⟨found, rfl, hfirst⟩
      · exact hrest key value hlater
    · intro h
      refine ⟨?_, fun key value hmem => h key value (List.mem_cons_of_mem _ hmem)⟩
      obtain ⟨found, hget, hequal⟩ := h name first List.mem_cons_self
      rw [hget]
      exact hequal

/-- Documents of one length that contain each other's fields one way do so the other way. -/
theorem containedIn_symm {fields other : List (String × Value)}
    (hlength : fields.length = other.length) (hfields : (Entries.keys fields).Nodup)
    (hother : (Entries.keys other).Nodup)
    (hsymm : ∀ key value, (key, value) ∈ fields → ∀ found, (key, found) ∈ other →
      equal value found = true → equal found value = true)
    (h : containedIn fields other = true) : containedIn other fields = true := by
  rw [containedIn_iff] at h ⊢
  -- no key is left over on the right, because both sides have as many
  have hsub : Entries.keys fields ⊆ Entries.keys other := by
    intro key hmem
    obtain ⟨⟨name, value⟩, hentry, rfl⟩ := List.mem_map.mp hmem
    obtain ⟨found, hget, -⟩ := h name value hentry
    exact List.mem_map.mpr ⟨_, Entries.mem_of_get? hget, rfl⟩
  have hperm : (Entries.keys fields).Perm (Entries.keys other) := by
    refine (List.subperm_of_subset hfields hsub).perm_of_length_le ?_
    rw [Entries.keys, Entries.keys, List.length_map, List.length_map, hlength]
  intro key value hmem
  have hkey : key ∈ Entries.keys fields :=
    hperm.mem_iff.mpr (List.mem_map.mpr ⟨_, hmem, rfl⟩)
  cases hget : Entries.get? fields key with
  | none => exact absurd hkey ((Entries.get?_eq_none_iff _ _).mp hget)
  | some found =>
    have hfound := Entries.mem_of_get? hget
    obtain ⟨value', hget', hequal⟩ := h key found hfound
    rw [Entries.get?_of_mem hother hmem, Option.some.injEq] at hget'
    subst hget'
    exact ⟨found, rfl, hsymm key found hfound value hmem hequal⟩

mutual

/-- Equality does not depend on the order of two well-formed values. -/
theorem equal_symm : ∀ (first second : Value), first.WellFormed → second.WellFormed →
    equal first second = true → equal second first = true
  | .array items, second, hfirst, hsecond, h => by
    cases second with
    | array items' => exact equalItems_symm items items' hfirst hsecond h
    | _ => cases h
  | .document fields, second, hfirst, hsecond, h => by
    cases second with
    | document other =>
      rw [equal, Bool.and_eq_true, beq_iff_eq] at h ⊢
      refine ⟨h.1.symm, containedIn_symm h.1 hfirst.1 hsecond.1 ?_ h.2⟩
      exact fun key value hmem found hfound => equal_symm_of_mem fields hfirst.2 key value hmem found
        (wellFormed_of_mem hsecond.2 hfound)
    | _ => cases h
  | .scopedCode source scope, second, hfirst, hsecond, h => by
    cases second with
    | scopedCode source' other =>
      rw [equal, Bool.and_eq_true, Bool.and_eq_true, beq_iff_eq, beq_iff_eq] at h ⊢
      refine ⟨h.1.symm, h.2.1.symm, containedIn_symm h.2.1 hfirst.1 hsecond.1 ?_ h.2.2⟩
      exact fun key value hmem found hfound => equal_symm_of_mem scope hfirst.2 key value hmem found
        (wellFormed_of_mem hsecond.2 hfound)
    | _ => cases h
  | .double x, second, _, _, h => by
    cases second with
    | double y => exact (Double.equals_comm y x).trans h
    | _ => cases h
  | .null, second, _, _, h | .undefined, second, _, _, h | .minKey, second, _, _, h
  | .maxKey, second, _, _, h => by cases second <;> exact h
  | .bool _, second, _, _, h | .int32 _, second, _, _, h | .int64 _, second, _, _, h
  | .string _, second, _, _, h | .symbol _, second, _, _, h | .dateTime _, second, _, _, h
  | .objectId _, second, _, _, h | .binary _ _, second, _, _, h | .regex _ _, second, _, _, h
  | .timestamp _ _, second, _, _, h | .code _, second, _, _, h => by
    cases second <;> simp_all [equal]
termination_by structural first => first

theorem equalItems_symm : ∀ (items items' : List Value), WellFormedItems items →
    WellFormedItems items' → equalItems items items' = true → equalItems items' items = true
  | [], items', _, _, h => by
    cases items' with
    | nil => rfl
    | cons item rest => cases h
  | item :: rest, items', hitems, hitems', h => by
    cases items' with
    | nil => cases h
    | cons item' rest' =>
      rw [equalItems, Bool.and_eq_true] at h ⊢
      exact ⟨equal_symm item item' hitems.1 hitems'.1 h.1,
        equalItems_symm rest rest' hitems.2 hitems'.2 h.2⟩
termination_by structural items => items

theorem equal_symm_of_mem : ∀ (fields : List (String × Value)), WellFormedFields fields →
    ∀ key value, (key, value) ∈ fields → ∀ found, WellFormed found →
      equal value found = true → equal found value = true
  | [], _, _, _, hmem, _, _, _ => by cases hmem
  | (name, first) :: rest, hfields, key, value, hmem, found, hfound, h => by
    rcases List.mem_cons.mp hmem with heq | hlater
    · cases heq
      exact equal_symm first found hfields.1 hfound h
    · exact equal_symm_of_mem rest hfields.2 key value hlater found hfound h
termination_by structural fields => fields

end

/-- Equality of two well-formed values in either order. -/
theorem equal_comm {first second : Value} (hfirst : first.WellFormed) (hsecond : second.WellFormed) :
    equal first second = equal second first :=
  Bool.eq_iff_iff.mpr ⟨equal_symm first second hfirst hsecond,
    equal_symm second first hsecond hfirst⟩

/-! ## Numbers -/

/-- **The same number**: both values are numbers, and as doubles they are equal. -/
def SameNumber (first second : Value) : Prop :=
  ∃ x y, first.number? = some x ∧ second.number? = some y ∧ x.equals y = true

/-- **Numbers that may be confused**: they have different types, or they are 64-bit integers of which
one is too large to be a double for certain. -/
def Confusable : Value → Value → Prop
  | .int32 _, .int32 _ | .double _, .double _ => False
  | .int64 m, .int64 n =>
    Double.exactBound < m.toInt.natAbs ∨ Double.exactBound < n.toInt.natAbs
  | first, second => first.number?.isSome = true ∧ second.number?.isSome = true

/-- A value that is the same number as itself is equal to itself. -/
theorem SameNumber.equal_self {value : Value} (h : SameNumber value value) :
    equal value value = true := by
  obtain ⟨x, y, hx, hy, hequals⟩ := h
  cases value with
  | int32 n => exact beq_self_eq_true n
  | int64 n => exact beq_self_eq_true n
  | double z =>
    cases hx
    cases hy
    exact hequals
  | _ => cases hx

theorem exact_int32 (n : Int32) : n.toInt.natAbs ≤ Double.exactBound := by
  have hlow := n.minValue_le_toInt
  have hhigh := n.toInt_lt
  rw [Double.exactBound, Nat.pow_eq]
  simp at hlow
  omega

/-- Values that are not equal are the same number only if they may be confused. -/
theorem SameNumber.confusable {first second : Value} (h : SameNumber first second)
    (hne : equal first second = false) : Confusable first second := by
  obtain ⟨x, y, hx, hy, hequals⟩ := h
  have hsome : first.number?.isSome = true ∧ second.number?.isSome = true := by
    rw [hx, hy]
    exact ⟨rfl, rfl⟩
  cases first with
  | int32 m =>
    cases second with
    | int32 n =>
      cases hx
      cases hy
      have heq := Double.eq_of_equals_ofInt (exact_int32 m) (exact_int32 n) hequals
      rw [Int32.toInt_inj] at heq
      simp [equal, heq] at hne
    | _ => exact hsome
  | int64 m =>
    cases second with
    | int64 n =>
      cases hx
      cases hy
      by_contra hexact
      rw [Confusable, not_or, Nat.not_lt, Nat.not_lt] at hexact
      have heq := Double.eq_of_equals_ofInt hexact.1 hexact.2 hequals
      rw [Int64.toInt_inj] at heq
      simp [equal, heq] at hne
    | _ => exact hsome
  | double x' =>
    cases second with
    | double y' =>
      cases hx
      cases hy
      rw [equal, hequals] at hne
      cases hne
    | _ => exact hsome
  | _ => cases hx

end Value

namespace FieldTest

/-! ## The equality of queries -/

/-- Equal values are the same to a query: an integer is a number like itself. -/
theorem same_of_equal {first second : Value} (h : first.equal second = true) :
    same first second = true := by
  have hnumbers : ∀ x y, first.number? = some x → second.number? = some y →
      x.equals y = true := by
    intro x y hx hy
    cases first with
    | int32 m =>
      cases second with
      | int32 n =>
        cases hx
        cases hy
        rw [Value.equal, beq_iff_eq] at h
        rw [h]
        exact Double.equals_ofInt_self n.toInt
      | _ => cases h
    | int64 m =>
      cases second with
      | int64 n =>
        cases hx
        cases hy
        rw [Value.equal, beq_iff_eq] at h
        rw [h]
        exact Double.equals_ofInt_self n.toInt
      | _ => cases h
    | double x' =>
      cases second with
      | double y' =>
        cases hx
        cases hy
        exact h
      | _ => cases h
    | _ => cases hx
  rw [same]
  split
  · rename_i x y hx hy
    exact hnumbers x y hx hy
  · exact h

/-- **Two values are the same to a query** if and only if they are equal or the same number. -/
theorem same_iff {first second : Value} :
    same first second = true ↔ first.equal second = true ∨ first.SameNumber second := by
  constructor
  · intro h
    rw [same] at h
    split at h
    · rename_i x y hx hy
      exact Or.inr ⟨x, y, hx, hy, h⟩
    · exact Or.inl h
  · rintro (h | ⟨x, y, hx, hy, h⟩)
    · exact same_of_equal h
    · rw [same, hx, hy]
      exact h

end FieldTest

end DocStore
