import DocStore.Value.Double
import Mathlib.Algebra.Group.Nat.Defs
import Mathlib.Data.Nat.Log

/-! # Integers as doubles

An integer becomes the nearest double. As long as it fits 64 bits, that is again an integer
(`Double.nearest`), and doubles of integers compare as these do (`Double.compare_position_ofInt`).
Up to `2 ^ 53` in magnitude nothing is lost, so different integers stay different
(`Double.eq_of_equals_ofInt`); beyond it close ones may become the same number
(`Double.Confused`). -/

namespace DocStore

namespace Double

/-- The largest magnitude up to which every integer is a double. -/
def exactBound : Nat := Nat.pow 2 53

/-! ## Reading what was built -/

theorem toNat_bits_ofParts {magnitude : Nat} (h : magnitude < signPlace) (negative : Bool) :
    (ofParts negative magnitude).bits.toNat
      = if negative then signPlace + magnitude else magnitude := by
  rw [signPlace, Nat.pow_eq] at h
  cases negative <;> simp [ofParts, signPlace] <;> omega

theorem isNegative_ofParts {magnitude : Nat} (h : magnitude < signPlace) (negative : Bool) :
    (ofParts negative magnitude).isNegative = negative := by
  rw [isNegative, toNat_bits_ofParts h]
  cases negative with
  | false => simpa using h
  | true => simp

theorem magnitude_ofParts {magnitude : Nat} (h : magnitude < signPlace) (negative : Bool) :
    (ofParts negative magnitude).magnitude = magnitude := by
  rw [Double.magnitude, toNat_bits_ofParts h]
  cases negative with
  | false => exact Nat.mod_eq_of_lt h
  | true => rw [if_pos rfl, Nat.add_mod_left, Nat.mod_eq_of_lt h]

/-- The magnitude of an integer is that of a number. -/
theorem magnitudeOfNat_le (n : Nat) : magnitudeOfNat n ≤ infinityMagnitude := by
  rw [magnitudeOfNat]
  split
  · exact Nat.zero_le _
  · exact Nat.min_le_left _ _

theorem magnitudeOfNat_lt (n : Nat) : magnitudeOfNat n < signPlace :=
  Nat.lt_of_le_of_lt (magnitudeOfNat_le n) (by decide)

/-- An integer is never a NaN. -/
theorem isNaN_ofInt (n : Int) : (ofInt n).isNaN = false := by
  rw [isNaN, ofInt, magnitude_ofParts (magnitudeOfNat_lt _)]
  simpa using magnitudeOfNat_le n.natAbs

theorem position_ofInt (n : Int) :
    (ofInt n).position
      = if n < 0 then -(magnitudeOfNat n.natAbs : Int) else magnitudeOfNat n.natAbs := by
  rw [position, ofInt, isNegative_ofParts (magnitudeOfNat_lt _),
    magnitude_ofParts (magnitudeOfNat_lt _)]
  simp

/-- An integer is the same number as itself. -/
theorem equals_ofInt_self (n : Int) : (ofInt n).equals (ofInt n) = true := by
  simp [equals, isNaN_ofInt]

/-! ## Rounding -/

/-- The leading bits of an integer, moved to the weight of a significand. -/
def scaled (n : Nat) : Nat :=
  if n.log2 ≤ 52 then n * 2 ^ (52 - n.log2) else roundShift n (n.log2 - 52)

/-- The natural number that the nearest double is, ties to even. -/
def nearestNat (n : Nat) : Nat :=
  if n.log2 ≤ 52 then n else roundShift n (n.log2 - 52) * 2 ^ (n.log2 - 52)

/-- **The integer that the nearest double is**, ties to even. -/
def nearest (n : Int) : Int :=
  if n < 0 then -(nearestNat n.natAbs : Int) else nearestNat n.natAbs

/-- Whether a number is a significand, or the power of two behind all significands. -/
def IsSignificand (n : Nat) : Prop := fractionSize ≤ n ∧ n ≤ 2 * fractionSize

/-- Rounding does not fall below what is reached without it. -/
theorem le_roundShift {n shift low : Nat} (h : low * 2 ^ shift ≤ n) : low ≤ roundShift n shift := by
  have hquotient : low ≤ n / 2 ^ shift := (Nat.le_div_iff_mul_le (Nat.two_pow_pos shift)).mpr h
  rw [roundShift]
  dsimp only [Nat.pow_eq]
  split <;> omega

/-- Rounding reaches the next number at most. -/
theorem roundShift_le {n shift high : Nat} (h : n < high * 2 ^ shift) :
    roundShift n shift ≤ high := by
  have hquotient : n / 2 ^ shift < high := (Nat.div_lt_iff_lt_mul (Nat.two_pow_pos shift)).mpr h
  rw [roundShift]
  dsimp only [Nat.pow_eq]
  split <;> omega

/-- Rounding is off by half of what is cut off at most. -/
theorem roundShift_error (n shift : Nat) :
    2 * (roundShift n shift * 2 ^ shift) ≤ 2 * n + 2 ^ shift ∧
      2 * n ≤ 2 * (roundShift n shift * 2 ^ shift) + 2 ^ shift := by
  have hsplit := Nat.div_add_mod' n (2 ^ shift)
  have hrest := Nat.mod_lt n (Nat.two_pow_pos shift)
  rw [roundShift]
  dsimp only [Nat.pow_eq]
  split
  · rw [Nat.add_mul]
    omega
  · omega

/-- The moved bits are a significand. -/
theorem isSignificand_scaled {n : Nat} (hpos : n ≠ 0) : IsSignificand (scaled n) := by
  have hlow : 2 ^ n.log2 ≤ n := Nat.log2_self_le hpos
  have hhigh : n < 2 ^ (n.log2 + 1) := Nat.lt_log2_self
  rw [scaled]
  split
  · rename_i htop
    -- the integer is moved up by as many bits as the fraction has left
    have hsize : 2 ^ n.log2 * 2 ^ (52 - n.log2) = fractionSize := by
      rw [← Nat.pow_add, Nat.add_sub_cancel' htop]
      rfl
    refine ⟨hsize ▸ Nat.mul_le_mul_right _ hlow, ?_⟩
    rw [← hsize, ← Nat.mul_assoc, Nat.mul_comm 2, ← Nat.pow_succ]
    exact Nat.mul_le_mul_right _ (Nat.le_of_lt hhigh)
  · rename_i htop
    -- the integer is moved down by as many bits as the fraction has too few
    have hsize : fractionSize * 2 ^ (n.log2 - 52) = 2 ^ n.log2 := by
      rw [fractionSize, Nat.pow_eq, ← Nat.pow_add, Nat.add_sub_cancel' (by omega)]
    refine ⟨le_roundShift (by rwa [hsize]), roundShift_le ?_⟩
    rwa [Nat.mul_assoc, hsize, Nat.mul_comm, ← Nat.pow_succ]

/-- The nearest double is its significand at its power of two. -/
theorem nearestNat_mul_fractionSize (n : Nat) :
    nearestNat n * fractionSize = scaled n * 2 ^ n.log2 := by
  rw [nearestNat, scaled]
  split
  · rename_i htop
    rw [Nat.mul_assoc, ← Nat.pow_add, Nat.sub_add_cancel htop]
    rfl
  · rename_i htop
    rw [Nat.mul_assoc, fractionSize, Nat.pow_eq, ← Nat.pow_add, Nat.sub_add_cancel (by omega)]

/-- **The magnitude of an integer** that fits 64 bits: its leading bit decides the exponent, and the
leading bits are the rest. -/
theorem magnitudeOfNat_eq {n : Nat} (hpos : n ≠ 0) (h : n ≤ signPlace) :
    magnitudeOfNat n = (n.log2 + 1022) * fractionSize + scaled n := by
  have htop : n.log2 ≤ 63 := by
    have hlt : n.log2 < 64 := (Nat.log2_lt hpos).mpr (Nat.lt_of_le_of_lt h (by decide))
    omega
  have hscaled := (isSignificand_scaled hpos).2
  have hfits : (n.log2 + 1022) * fractionSize + scaled n ≤ infinityMagnitude := by
    rw [infinityMagnitude, Nat.add_mul]
    have := Nat.mul_le_mul_right fractionSize htop
    omega
  rw [magnitudeOfNat, if_neg hpos]
  exact Nat.min_eq_right hfits

/-- A higher exponent makes up for any significand; at one exponent the significands decide. -/
theorem scaled_lt_of_lt {top top' low high : Nat} (hlow : IsSignificand low)
    (hhigh : IsSignificand high) (h : top * fractionSize + low < top' * fractionSize + high) :
    low * 2 ^ top < high * 2 ^ top' := by
  obtain ⟨hlowGe, hlowLe⟩ := hlow
  obtain ⟨hhighGe, hhighLe⟩ := hhigh
  have hsize : 0 < fractionSize := by decide
  rcases Nat.lt_trichotomy top top' with hlt | rfl | hgt
  · obtain ⟨gap, rfl⟩ := Nat.exists_eq_add_of_lt hlt
    have hless : low < high * 2 ^ (gap + 1) := by
      cases gap with
      | zero =>
        rw [Nat.add_zero, Nat.succ_mul] at h
        omega
      | succ gap =>
        have hpow := Nat.mul_le_mul_left high (Nat.one_le_two_pow (n := gap))
        rw [Nat.pow_succ, Nat.pow_succ, ← Nat.mul_assoc, ← Nat.mul_assoc]
        omega
    calc low * 2 ^ top < high * 2 ^ (gap + 1) * 2 ^ top :=
          Nat.mul_lt_mul_of_pos_right hless (Nat.two_pow_pos top)
      _ = high * 2 ^ (top + gap + 1) := by
          rw [Nat.mul_assoc, ← Nat.pow_add, Nat.add_comm (gap + 1), Nat.add_assoc]
  · exact Nat.mul_lt_mul_of_pos_right (Nat.lt_of_add_lt_add_left h) (Nat.two_pow_pos top)
  · have := Nat.mul_le_mul_right fractionSize (Nat.succ_le_of_lt hgt)
    rw [Nat.succ_mul] at this
    omega

/-- Two ways to write one magnitude write one number. -/
theorem scaled_eq_of_eq {top top' low high : Nat} (hlow : IsSignificand low)
    (hhigh : IsSignificand high) (h : top * fractionSize + low = top' * fractionSize + high)
    (hle : top ≤ top') : low * 2 ^ top = high * 2 ^ top' := by
  obtain ⟨hlowGe, hlowLe⟩ := hlow
  obtain ⟨hhighGe, hhighLe⟩ := hhigh
  have hsize : 0 < fractionSize := by decide
  rcases Nat.lt_or_eq_of_le hle with hlt | rfl
  · obtain ⟨gap, rfl⟩ := Nat.exists_eq_add_of_lt hlt
    cases gap with
    | zero =>
      -- the power of two behind all significands is the first one at the next exponent
      rw [Nat.add_zero, Nat.succ_mul] at h
      have hlowEq : low = fractionSize * 2 := by omega
      have hhighEq : high = fractionSize := by omega
      rw [hlowEq, hhighEq, Nat.mul_assoc, ← Nat.pow_succ']
    | succ gap =>
      rw [Nat.add_mul, Nat.add_mul, Nat.add_mul] at h
      omega
  · rw [Nat.add_left_cancel h]

/-- Magnitudes are in the order of the numbers that their significands and exponents make. -/
theorem scaled_lt_iff {top top' low high : Nat} (hlow : IsSignificand low)
    (hhigh : IsSignificand high) :
    top * fractionSize + low < top' * fractionSize + high ↔ low * 2 ^ top < high * 2 ^ top' := by
  refine ⟨scaled_lt_of_lt hlow hhigh, fun hlt => Nat.lt_of_not_le fun hle => ?_⟩
  rcases Nat.lt_or_eq_of_le hle with hgt | heq
  · exact Nat.lt_asymm hlt (scaled_lt_of_lt hhigh hlow hgt)
  · have hsame : low * 2 ^ top = high * 2 ^ top' := by
      rcases Nat.le_total top top' with htops | htops
      · exact scaled_eq_of_eq hlow hhigh heq.symm htops
      · exact (scaled_eq_of_eq hhigh hlow heq htops).symm
    exact Nat.ne_of_lt hlt hsame

theorem nearestNat_pos {n : Nat} (hpos : n ≠ 0) : 0 < nearestNat n := by
  have hscaled : 0 < scaled n := Nat.lt_of_lt_of_le (by decide) (isSignificand_scaled hpos).1
  have hmul : 0 < nearestNat n * fractionSize := by
    rw [nearestNat_mul_fractionSize]
    exact Nat.mul_pos hscaled (Nat.two_pow_pos _)
  exact Nat.pos_of_mul_pos_right hmul

theorem magnitudeOfNat_pos {n : Nat} (hpos : n ≠ 0) (h : n ≤ signPlace) : 0 < magnitudeOfNat n := by
  rw [magnitudeOfNat_eq hpos h]
  exact Nat.add_pos_right _ (Nat.lt_of_lt_of_le (by decide) (isSignificand_scaled hpos).1)

/-- Magnitudes of integers that fit 64 bits are in the order of the nearest doubles. -/
theorem magnitudeOfNat_lt_iff {m n : Nat} (hm : m ≤ signPlace) (hn : n ≤ signPlace) :
    magnitudeOfNat m < magnitudeOfNat n ↔ nearestNat m < nearestNat n := by
  have hzero : magnitudeOfNat 0 = 0 ∧ nearestNat 0 = 0 := ⟨by decide, by decide⟩
  by_cases hm' : m = 0
  · by_cases hn' : n = 0
    · simp [hm', hn', hzero]
    · simp [hm', hzero, magnitudeOfNat_pos hn' hn, nearestNat_pos hn']
  · by_cases hn' : n = 0
    · simp [hn', hzero]
    · have hsize : 0 < fractionSize := by decide
      rw [magnitudeOfNat_eq hm' hm, magnitudeOfNat_eq hn' hn,
        scaled_lt_iff (isSignificand_scaled hm') (isSignificand_scaled hn'), Nat.pow_add,
        Nat.pow_add, ← Nat.mul_assoc, ← Nat.mul_assoc, ← nearestNat_mul_fractionSize,
        ← nearestNat_mul_fractionSize, Nat.mul_lt_mul_right (Nat.two_pow_pos 1022),
        Nat.mul_lt_mul_right hsize]

/-- Doubles of integers that fit 64 bits are in the order of the integers that they are. -/
theorem position_ofInt_lt_iff {m n : Int} (hm : m.natAbs ≤ signPlace) (hn : n.natAbs ≤ signPlace) :
    (ofInt m).position < (ofInt n).position ↔ nearest m < nearest n := by
  have hlt := magnitudeOfNat_lt_iff hm hn
  have hgt := magnitudeOfNat_lt_iff hn hm
  have hmpos : m.natAbs ≠ 0 → 0 < magnitudeOfNat m.natAbs ∧ 0 < nearestNat m.natAbs :=
    fun hpos => ⟨magnitudeOfNat_pos hpos hm, nearestNat_pos hpos⟩
  have hnpos : n.natAbs ≠ 0 → 0 < magnitudeOfNat n.natAbs ∧ 0 < nearestNat n.natAbs :=
    fun hpos => ⟨magnitudeOfNat_pos hpos hn, nearestNat_pos hpos⟩
  rw [position_ofInt, position_ofInt, nearest, nearest]
  split <;> split <;> omega

/-- **Doubles of integers** that fit 64 bits compare as the integers that they are. -/
theorem compare_position_ofInt {m n : Int} (hm : m.natAbs ≤ signPlace) (hn : n.natAbs ≤ signPlace) :
    compare (ofInt m).position (ofInt n).position = compare (nearest m) (nearest n) := by
  have hlt := position_ofInt_lt_iff hm hn
  have hgt := position_ofInt_lt_iff hn hm
  rcases Int.lt_trichotomy (nearest m) (nearest n) with h | h | h
  · rw [compare_lt_iff_lt.mpr h, compare_lt_iff_lt.mpr (hlt.mpr h)]
  · have heq : (ofInt m).position = (ofInt n).position := by omega
    rw [h, heq, compare_eq_iff_eq.mpr rfl, compare_eq_iff_eq.mpr rfl]
  · rw [compare_gt_iff_gt.mpr h, compare_gt_iff_gt.mpr (hgt.mpr h)]

/-! ## Rounding keeps the order -/

/-- Of two numbers that lose equally many bits the greater one is not rounded below the other. -/
theorem roundShift_mono {m n : Nat} (h : m ≤ n) (shift : Nat) :
    roundShift m shift ≤ roundShift n shift := by
  have hm := Nat.div_add_mod m (2 ^ shift)
  have hn := Nat.div_add_mod n (2 ^ shift)
  have hquotient : m / 2 ^ shift ≤ n / 2 ^ shift := Nat.div_le_div_right h
  rw [roundShift, roundShift]
  dsimp only [Nat.pow_eq]
  rcases Nat.lt_or_eq_of_le hquotient with hlt | heq
  · split <;> split <;> omega
  · -- with one quotient the rests decide
    have hrest : m % 2 ^ shift ≤ n % 2 ^ shift := by
      rw [heq] at hm
      omega
    split <;> split <;> omega

theorem nearestNat_mono {m n : Nat} (h : m ≤ n) : nearestNat m ≤ nearestNat n := by
  by_cases hm : m = 0
  · rw [hm]
    exact Nat.zero_le _
  · have hn : n ≠ 0 := fun hzero => hm (Nat.le_zero.mp (hzero ▸ h))
    have htops : m.log2 ≤ n.log2 := by
      rw [Nat.log2_eq_log_two, Nat.log2_eq_log_two]
      exact Nat.log_mono_right h
    rcases Nat.lt_or_eq_of_le htops with hlt | heq
    · refine Nat.le_of_mul_le_mul_right ?_ (show 0 < fractionSize by decide)
      calc nearestNat m * fractionSize = scaled m * 2 ^ m.log2 := nearestNat_mul_fractionSize m
        _ ≤ 2 * fractionSize * 2 ^ m.log2 := Nat.mul_le_mul_right _ (isSignificand_scaled hm).2
        _ = fractionSize * 2 ^ (m.log2 + 1) := by
          rw [Nat.mul_comm 2, Nat.mul_assoc, ← Nat.pow_succ']
        _ ≤ fractionSize * 2 ^ n.log2 :=
          Nat.mul_le_mul_left _ (Nat.pow_le_pow_right (by decide) hlt)
        _ ≤ scaled n * 2 ^ n.log2 := Nat.mul_le_mul_right _ (isSignificand_scaled hn).1
        _ = nearestNat n * fractionSize := (nearestNat_mul_fractionSize n).symm
    · rw [nearestNat, nearestNat, heq]
      split
      · exact h
      · exact Nat.mul_le_mul_right _ (roundShift_mono h _)

/-- **Rounding keeps the order** of integers. -/
theorem nearest_mono {m n : Int} (h : m ≤ n) : nearest m ≤ nearest n := by
  have hbelow : n < 0 → nearestNat n.natAbs ≤ nearestNat m.natAbs :=
    fun hn => nearestNat_mono (by omega)
  have habove : 0 ≤ m → nearestNat m.natAbs ≤ nearestNat n.natAbs :=
    fun hm => nearestNat_mono (by omega)
  rw [nearest, nearest]
  split <;> split <;> omega

/-! ## Exact integers -/

/-- Exact natural numbers are doubles. -/
theorem nearestNat_of_le {n : Nat} (h : n ≤ exactBound) : nearestNat n = n := by
  by_cases htop : n.log2 ≤ 52
  · rw [nearestNat, if_pos htop]
  · have hpos : n ≠ 0 := by
      rintro rfl
      exact htop (by decide)
    have hge : exactBound ≤ n := Nat.le_of_not_lt fun hlt =>
      htop (Nat.le_of_lt_succ ((Nat.log2_lt hpos).mpr hlt))
    rw [Nat.le_antisymm h hge]
    decide

/-- Up to `2 ^ 53` in magnitude every integer is a double. -/
theorem nearest_of_le {n : Int} (h : n.natAbs ≤ exactBound) : nearest n = n := by
  rw [nearest, nearestNat_of_le h]
  split <;> omega

/-- What is not below `2 ^ 53` is not rounded below it. -/
theorem exactBound_le_nearestNat {n : Nat} (h : exactBound ≤ n) : exactBound ≤ nearestNat n := by
  have hpos : n ≠ 0 := Nat.ne_of_gt (Nat.lt_of_lt_of_le (by decide) h)
  have htop : 53 ≤ n.log2 := (Nat.le_log2 hpos).mpr h
  refine Nat.le_of_mul_le_mul_right ?_ (show 0 < fractionSize by decide)
  calc exactBound * fractionSize = fractionSize * 2 ^ 53 := Nat.mul_comm _ _
    _ ≤ scaled n * 2 ^ n.log2 :=
      Nat.mul_le_mul (isSignificand_scaled hpos).1 (Nat.pow_le_pow_right (by decide) htop)
    _ = nearestNat n * fractionSize := (nearestNat_mul_fractionSize n).symm

/-- **Confused integers** are different, but their nearest double is the same. -/
def Confused (m n : Int) : Prop := m ≠ n ∧ nearest m = nearest n

instance (m n : Int) : Decidable (Confused m n) :=
  inferInstanceAs (Decidable (m ≠ n ∧ nearest m = nearest n))

theorem Confused.symm {m n : Int} (h : Confused m n) : Confused n m := ⟨h.1.symm, h.2.symm⟩

/-- Integers that are not confused are in the order of the nearest doubles. -/
theorem nearest_lt_iff {m n : Int} (h : ¬ Confused m n) : nearest m < nearest n ↔ m < n := by
  refine ⟨fun hlt => Int.lt_of_not_ge fun hle => ?_, fun hlt => ?_⟩
  · exact absurd hlt (Int.not_lt.mpr (nearest_mono hle))
  · have hle := nearest_mono (Int.le_of_lt hlt)
    have hne : nearest m ≠ nearest n := fun heq => h ⟨Int.ne_of_lt hlt, heq⟩
    omega

theorem nearest_le_iff {m n : Int} (h : ¬ Confused m n) : nearest m ≤ nearest n ↔ m ≤ n := by
  rw [← Int.not_lt, ← Int.not_lt, nearest_lt_iff fun hconfused => h hconfused.symm]

/-- Integers below `2 ^ 53` are confused with none. -/
theorem Confused.exactBound_le_left {m n : Int} (h : Confused m n) : exactBound ≤ m.natAbs := by
  obtain ⟨hne, hsame⟩ := h
  by_contra hlt
  rw [nearest_of_le (Nat.le_of_not_le hlt)] at hsame
  by_cases hn : n.natAbs ≤ exactBound
  · exact hne (hsame.trans (nearest_of_le hn))
  · have hnearest := exactBound_le_nearestNat (Nat.le_of_not_le hn)
    rw [nearest] at hsame
    split at hsame <;> omega

/-- Rounding an integer that fits 64 bits moves it by `512` at most. -/
theorem nearestNat_error {n : Nat} (h : n ≤ signPlace) :
    nearestNat n ≤ n + 512 ∧ n ≤ nearestNat n + 512 := by
  by_cases hlast : n = signPlace
  · subst hlast
    decide
  · rw [nearestNat]
    split
    · omega
    · rename_i hcutOff
      have hpos : n ≠ 0 := by
        rintro rfl
        exact hcutOff (by decide)
      have htop : n.log2 ≤ 62 :=
        Nat.le_of_lt_succ ((Nat.log2_lt hpos).mpr (Nat.lt_of_le_of_ne h hlast))
      have hcut : 2 ^ (n.log2 - 52) ≤ 2 ^ 10 := Nat.pow_le_pow_right (by decide) (by omega)
      have herror := roundShift_error n (n.log2 - 52)
      omega

/-- Confused integers that fit 64 bits are close to each other. -/
theorem Confused.close {m n : Int} (h : Confused m n) (hm : m.natAbs ≤ signPlace)
    (hn : n.natAbs ≤ signPlace) : (m - n).natAbs ≤ 1024 := by
  have hsame := h.2
  have hmerror := nearestNat_error hm
  have hnerror := nearestNat_error hn
  rw [nearest, nearest] at hsame
  split at hsame <;> split at hsame <;> omega

/-- **Exact integers stay different**: they are the same double only if they are the same. -/
theorem eq_of_equals_ofInt {m n : Int} (hm : m.natAbs ≤ exactBound) (hn : n.natAbs ≤ exactBound)
    (h : (ofInt m).equals (ofInt n) = true) : m = n := by
  have hposition : (ofInt m).position = (ofInt n).position := by
    simpa [equals, isNaN_ofInt] using h
  have hbound : exactBound ≤ signPlace := by decide
  have hcompare := compare_position_ofInt (Nat.le_trans hm hbound) (Nat.le_trans hn hbound)
  rw [nearest_of_le hm, nearest_of_le hn, compare_eq_iff_eq.mpr hposition] at hcompare
  exact compare_eq_iff_eq.mp hcompare.symm

end Double

end DocStore
