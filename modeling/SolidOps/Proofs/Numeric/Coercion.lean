import Mathlib
import SolidOps.Proofs.Numeric.Truncation
import SolidOps.Proofs.Text.Number

/-!
# Numbers as integers of a bounded range

Some settings are integers of 32 bits, and any number may be given for them.  What becomes of the
number is said here by its exact value:

* `towardZero` is a rational without its fraction.
* `Binary64.extended` places a number that is not a NaN among the reals and the two infinities, and
  `Binary64.isLess_iff` says that numbers are compared by their places there.
* `Binary64.CoercesTo` says which integer between two bounds a number becomes: the value without its
  fraction, held between the bounds; the near bound for an infinity; zero for a NaN.

`Binary64.coercesTo_clamp` is the link to the definition, which goes by sign and magnitude, and
`Binary64.CoercesTo.mono` says that a greater number never becomes a lesser integer.

A level is tested for being negative after its fraction is dropped.  The test is passed by the
numbers from `-1` downwards (`Binary64.isLess_zero_trunc_iff`), since a magnitude loses all its bits
with its fraction when its biased exponent is below that of one, and that is when its value is below
one (`Magnitude.one_le_value_iff`).
-/

namespace SolidOps

/-! ## Rationals without their fractions -/

/-- A rational with its fraction dropped. -/
def towardZero (q : ℚ) : ℤ := if 0 ≤ q then ⌊q⌋ else ⌈q⌉

lemma towardZero_neg {q : ℚ} (hq : 0 ≤ q) : towardZero (-q) = -⌊q⌋ := by
  rw [towardZero]
  split_ifs with h
  · have hzero : q = 0 := by linarith
    simp [hzero]
  · exact Int.ceil_neg

lemma towardZero_mono : Monotone towardZero := by
  intro p q hpq
  rw [towardZero, towardZero]
  split_ifs with hp hq hq
  · exact Int.floor_mono hpq
  · exact absurd (hp.trans hpq) hq
  · have hceil : ⌈p⌉ ≤ 0 := Int.ceil_le.mpr (by push_cast; linarith)
    exact hceil.trans (Int.floor_nonneg.mpr hq)
  · exact Int.ceil_mono hpq

lemma towardZero_neg_iff {q : ℚ} : towardZero q < 0 ↔ q ≤ -1 := by
  rw [towardZero]
  split_ifs with h
  · have hfloor : 0 ≤ ⌊q⌋ := Int.floor_nonneg.mpr h
    constructor
    · intro hneg
      omega
    · intro hle
      linarith
  · rw [Int.ceil_lt_iff]
    push_cast
    norm_num

lemma towardZero_eq_zero {q : ℚ} (hlow : -1 < q) (hhigh : q < 1) : towardZero q = 0 := by
  rw [towardZero]
  split_ifs with h
  · exact Int.floor_eq_zero_iff.mpr ⟨h, hhigh⟩
  · exact Int.ceil_eq_zero_iff.mpr ⟨hlow, (not_le.mp h).le⟩

namespace Magnitude

/-- A value reaches one where the biased exponent reaches that of one. -/
lemma one_le_value_iff {m : ℕ} : 1 ≤ value m ↔ 1023 ≤ biasedExponent m := by
  constructor
  · intro hvalue
    by_contra hexp
    have hfloor := floor_value_of_small (not_le.mp hexp)
    have hone : 1 ≤ ⌊value m⌋ := Int.le_floor.mpr (by exact_mod_cast hvalue)
    omega
  · intro hexp
    have hbit : hiddenBit ≤ significand m := by
      rw [significand, if_neg (by omega)]
      exact Nat.le_add_right _ _
    have hsig : (2 : ℚ) ^ (52 : ℤ) ≤ significand m := by exact_mod_cast hbit
    have hunit : -52 ≤ unitExponent m := by
      rw [unitExponent]
      omega
    calc (1 : ℚ) = 2 ^ (52 : ℤ) * 2 ^ (-52 : ℤ) := by
          rw [← zpow_add₀ two_ne_zero]
          norm_num
      _ ≤ 2 ^ (52 : ℤ) * 2 ^ unitExponent m := by
          have := zpow_le_zpow_right₀ (one_le_two (α := ℚ)) hunit
          gcongr
      _ ≤ value m := by
          rw [value]
          gcongr

/-- A magnitude up to infinity, placed among the reals that are not negative and infinity. -/
noncomputable def extended (m : ℕ) : EReal := if m = infinity then ⊤ else ((value m : ℝ) : EReal)

lemma extended_nonneg (m : ℕ) : 0 ≤ extended m := by
  rw [extended]
  split_ifs
  · exact le_top
  · exact_mod_cast value_nonneg m

lemma extended_lt_iff {m n : ℕ} (hm : m ≤ infinity) (hn : n ≤ infinity) :
    extended m < extended n ↔ m < n := by
  rw [extended, extended]
  split_ifs with hminf hninf hninf
  · simp [hminf, hninf]
  · exact iff_of_false not_top_lt (by omega)
  · exact iff_of_true (EReal.coe_lt_top _) (by omega)
  · rw [EReal.coe_lt_coe_iff, Rat.cast_lt]
    exact value_strictMono.lt_iff_lt

lemma extended_zero : extended 0 = 0 := by
  rw [extended, if_neg (by decide), value_zero]
  norm_num

lemma extended_pos_iff {m : ℕ} (hm : m ≤ infinity) : 0 < extended m ↔ 0 < m := by
  rw [← extended_lt_iff (Nat.zero_le _) hm, extended_zero]

end Magnitude

namespace Binary64

variable {x y : Binary64}

/-! ## Exact values -/

/-- The place of a number among the reals and the infinities; it means nothing for a NaN. -/
noncomputable def extended (x : Binary64) : EReal :=
  if x.isInfinite then if x.isNegative then ⊥ else ⊤ else ((x.value : ℝ) : EReal)

lemma not_isNaN_of_isInfinite (hx : x.isInfinite = true) : x.isNaN = false := by
  simp only [isInfinite, isNaN, decide_eq_true_eq, decide_eq_false_iff_not] at hx ⊢
  omega

lemma not_isFinite_of_isInfinite (hx : x.isInfinite = true) : x.isFinite = false := by
  simp only [isInfinite, isFinite, decide_eq_true_eq, decide_eq_false_iff_not] at hx ⊢
  omega

lemma not_isFinite_of_isNaN (hx : x.isNaN = true) :
    x.isFinite = false ∧ x.isInfinite = false := by
  simp only [isNaN, isFinite, isInfinite, decide_eq_true_eq, decide_eq_false_iff_not] at hx ⊢
  omega

lemma extended_of_isFinite (hx : x.isFinite = true) : x.extended = ((x.value : ℝ) : EReal) := by
  rw [extended, not_isInfinite_of_isFinite hx, if_neg Bool.false_ne_true]

lemma extended_of_isInfinite (hx : x.isInfinite = true) :
    x.extended = if x.isNegative then ⊥ else ⊤ := by
  rw [extended, if_pos hx]

/-- The whole part of a number is its value without the fraction. -/
lemma wholePart_eq_towardZero (x : Binary64) : x.wholePart = towardZero x.value := by
  have hvalue := Magnitude.value_nonneg x.magnitude
  rw [wholePart, value]
  cases x.isNegative with
  | true => exact (towardZero_neg hvalue).symm
  | false =>
      rw [if_neg Bool.false_ne_true, if_neg Bool.false_ne_true, towardZero, if_pos hvalue]
      rfl

/-! ## Comparison -/

/-- A number that is not a NaN is a magnitude with a sign, infinity the greatest. -/
lemma extended_eq_signed (hx : x.isNaN = false) : x.extended =
    if x.isNegative then -Magnitude.extended x.magnitude else Magnitude.extended x.magnitude := by
  rcases isFinite_or x with hfinite | hinf | hnan
  · have hlt : x.magnitude ≠ Magnitude.infinity := (of_decide_eq_true hfinite).ne
    rw [extended_of_isFinite hfinite, value, Magnitude.extended, if_neg hlt]
    split_ifs <;> simp
  · have hmag : x.magnitude = Magnitude.infinity := of_decide_eq_true hinf
    rw [extended_of_isInfinite hinf, Magnitude.extended, if_pos hmag]
    split_ifs <;> simp
  · simp [hx] at hnan

/-- **Numbers are ordered by their places.** -/
lemma extended_lt_iff_place_lt (hx : x.isNaN = false) (hy : y.isNaN = false) :
    x.extended < y.extended ↔ x.place < y.place := by
  have hxle : x.magnitude ≤ Magnitude.infinity := not_lt.mp (of_decide_eq_false hx)
  have hyle : y.magnitude ≤ Magnitude.infinity := not_lt.mp (of_decide_eq_false hy)
  rw [extended_eq_signed hx, extended_eq_signed hy, place, place]
  have hxpos := Magnitude.extended_nonneg x.magnitude
  have hypos := Magnitude.extended_nonneg y.magnitude
  cases x.isNegative with
  | true =>
      cases y.isNegative with
      | true =>
          simp only [if_true, EReal.neg_lt_neg_iff, Magnitude.extended_lt_iff hyle hxle]
          omega
      | false =>
          -- Only two zeros of different signs are not apart.
          simp only [if_true, Bool.false_eq_true, if_false]
          rcases Nat.eq_zero_or_pos x.magnitude with hzero | hpos
          · rw [hzero, Magnitude.extended_zero, neg_zero, Magnitude.extended_pos_iff hyle]
            omega
          · have hneg := EReal.neg_lt_zero.mpr ((Magnitude.extended_pos_iff hxle).mpr hpos)
            exact iff_of_true (hneg.trans_le hypos) (by omega)
  | false =>
      cases y.isNegative with
      | true =>
          simp only [if_true, Bool.false_eq_true, if_false]
          refine iff_of_false (not_lt.mpr ?_) (by omega)
          exact (EReal.neg_le_zero.mpr hypos).trans hxpos
      | false =>
          simp only [Bool.false_eq_true, if_false, Magnitude.extended_lt_iff hxle hyle]
          omega

/-- **`isLess` compares exact values**, and a NaN with nothing. -/
theorem isLess_iff : x.isLess y = true ↔
    x.isNaN = false ∧ y.isNaN = false ∧ x.extended < y.extended := by
  rw [isLess, Bool.and_eq_true, Bool.and_eq_true, Bool.not_eq_true', Bool.not_eq_true',
    decide_eq_true_iff, and_assoc]
  exact and_congr_right fun hx => and_congr_right fun hy => (extended_lt_iff_place_lt hx hy).symm

/-! ## Coercion -/

/-- An integer is what a number becomes between two bounds. -/
structure CoercesTo (low high : ℤ) (x : Binary64) (i : ℤ) : Prop where
  nan : x.isNaN = true → i = 0
  above : x.isInfinite = true → x.isNegative = false → i = high
  below : x.isInfinite = true → x.isNegative = true → i = low
  finite : x.isFinite = true → i = max low (min high (towardZero x.value))

lemma coercesTo_clamp (low high : ℤ) (x : Binary64) :
    x.CoercesTo low high (x.clamp low high) := by
  constructor
  · intro hnan
    rw [clamp, if_pos hnan]
  · intro hinf hsign
    rw [clamp, not_isNaN_of_isInfinite hinf, hinf, hsign]
    rfl
  · intro hinf hsign
    rw [clamp, not_isNaN_of_isInfinite hinf, hinf, hsign]
    rfl
  · intro hfinite
    rw [clamp, not_isNaN_of_isFinite hfinite, not_isInfinite_of_isFinite hfinite,
      wholePart_eq_towardZero]
    rfl

section Bounds

variable {low high i j : ℤ} (hlow : low ≤ 0) (hhigh : 0 ≤ high)
include hlow hhigh

lemma CoercesTo.mem_bounds (hi : x.CoercesTo low high i) : low ≤ i ∧ i ≤ high := by
  rcases isFinite_or x with hfinite | hinf | hnan
  · rw [hi.finite hfinite]
    exact ⟨le_max_left _ _, max_le (hlow.trans hhigh) (min_le_left _ _)⟩
  · cases hsign : x.isNegative with
    | true =>
        rw [hi.below hinf hsign]
        exact ⟨le_rfl, hlow.trans hhigh⟩
    | false =>
        rw [hi.above hinf hsign]
        exact ⟨hlow.trans hhigh, le_rfl⟩
  · rw [hi.nan hnan]
    exact ⟨hlow, hhigh⟩

/-- **A greater number becomes a greater integer**, or the same. -/
lemma CoercesTo.mono (hi : x.CoercesTo low high i) (hj : y.CoercesTo low high j)
    (hx : x.isNaN = false) (hy : y.isNaN = false) (hxy : x.extended ≤ y.extended) : i ≤ j := by
  rcases isFinite_or x with hfx | hinfx | hnan
  · rcases isFinite_or y with hfy | hinfy | hnan
    · rw [extended_of_isFinite hfx, extended_of_isFinite hfy, EReal.coe_le_coe_iff,
        Rat.cast_le] at hxy
      rw [hi.finite hfx, hj.finite hfy]
      exact max_le_max_left _ (min_le_min_left _ (towardZero_mono hxy))
    · cases hsign : y.isNegative with
      | true => simp [extended_of_isFinite hfx, extended_of_isInfinite hinfy, hsign] at hxy
      | false =>
          rw [hj.above hinfy hsign]
          exact (hi.mem_bounds hlow hhigh).2
    · simp [hy] at hnan
  · cases hsign : x.isNegative with
    | true =>
        rw [hi.below hinfx hsign]
        exact (hj.mem_bounds hlow hhigh).1
    | false =>
        -- nothing but infinity is as great as infinity
        rw [extended_of_isInfinite hinfx, hsign, if_neg Bool.false_ne_true, top_le_iff] at hxy
        rcases isFinite_or y with hfy | hinfy | hnan
        · simp [extended_of_isFinite hfy] at hxy
        · have hsigny : y.isNegative = false := by
            rw [extended_of_isInfinite hinfy] at hxy
            cases hy : y.isNegative <;> simp [hy] at hxy ⊢
          rw [hi.above hinfx hsign, hj.above hinfy hsigny]
        · simp [hy] at hnan
  · simp [hx] at hnan

end Bounds

/-- **Signed integers of 32 bits.** -/
lemma coercesTo_toInt32 (x : Binary64) :
    x.CoercesTo (-2 ^ 31) (2 ^ 31 - 1) x.toInt32.toInt := by
  have hclamp := coercesTo_clamp (-2 ^ 31) (2 ^ 31 - 1) x
  obtain ⟨hlow, hhigh⟩ := hclamp.mem_bounds (by norm_num) (by norm_num)
  have hint : x.toInt32.toInt = x.clamp (-2 ^ 31) (2 ^ 31 - 1) := by
    have hmin : Int32.minValue.toInt = -2 ^ 31 := rfl
    have hmax : Int32.maxValue.toInt = 2 ^ 31 - 1 := rfl
    rw [toInt32, hmin, hmax, Int32.toInt_ofInt_of_le hlow (by omega)]
  rwa [hint]

/-- **Unsigned integers of 32 bits.** -/
lemma coercesTo_toUInt32 (x : Binary64) :
    x.CoercesTo 0 (2 ^ 32 - 1) (x.toUInt32.toNat : ℤ) := by
  have hclamp := coercesTo_clamp 0 (2 ^ 32 - 1) x
  obtain ⟨hlow, hhigh⟩ := hclamp.mem_bounds le_rfl (by norm_num)
  have hnat : x.toUInt32.toNat = (x.clamp 0 (2 ^ 32 - 1)).toNat := by
    have hsize : (UInt32.size : ℤ) - 1 = 2 ^ 32 - 1 := rfl
    have hlt : (x.clamp 0 (2 ^ 32 - 1)).toNat < UInt32.size := by
      rw [UInt32.size]
      omega
    rw [toUInt32, hsize, UInt32.toNat_ofNat_of_lt' hlt]
  rwa [hnat, Int.toNat_of_nonneg hlow]

/-! ## Numbers below zero without their fractions -/

/-- Without its fraction the number is still less than zero. -/
def TruncatesBelowZero (x : Binary64) : Prop :=
  x.isInfinite = true ∧ x.isNegative = true ∨ x.isFinite = true ∧ towardZero x.value < 0

/-- Those are the numbers from minus one downwards. -/
lemma truncatesBelowZero_iff_le :
    x.TruncatesBelowZero ↔ x.isNaN = false ∧ x.extended ≤ -1 := by
  rcases isFinite_or x with hfinite | hinf | hnan
  · have hone : (-1 : EReal) = ((-1 : ℝ) : EReal) := by norm_num
    have hvalue : ((x.value : ℝ) : EReal) ≤ -1 ↔ x.value ≤ -1 := by
      rw [hone, EReal.coe_le_coe_iff]
      exact_mod_cast Iff.rfl
    simp [TruncatesBelowZero, hfinite, not_isNaN_of_isFinite hfinite,
      not_isInfinite_of_isFinite hfinite, extended_of_isFinite hfinite, towardZero_neg_iff, hvalue]
  · have hfinite := not_isFinite_of_isInfinite hinf
    have htop : ¬(⊤ : EReal) ≤ -1 := by
      rw [top_le_iff]
      exact EReal.coe_ne_top (-1)
    cases hsign : x.isNegative <;>
      simp [TruncatesBelowZero, hinf, hsign, hfinite, not_isNaN_of_isInfinite hinf,
        extended_of_isInfinite hinf, htop]
  · obtain ⟨hfinite, hinf⟩ := not_isFinite_of_isNaN hnan
    simp [TruncatesBelowZero, hnan, hfinite, hinf]

/-- Held at zero from below, they become zero. -/
lemma CoercesTo.eq_zero_of_truncatesBelowZero {high i : ℤ}
    (hi : x.CoercesTo 0 high i) (hx : x.TruncatesBelowZero) : i = 0 := by
  rcases hx with ⟨hinf, hsign⟩ | ⟨hfinite, hneg⟩
  · exact hi.below hinf hsign
  · rw [hi.finite hfinite]
    omega

/-- Truncation leaves a zero where the absolute value is less than one. -/
lemma isZero_trunc_iff :
    x.trunc.isZero = true ↔ Magnitude.biasedExponent x.magnitude < 1023 := by
  rw [isZero, decide_eq_true_iff]
  constructor
  · intro hzero
    have hfloor := x.magnitude_trunc.2.2
    rw [hzero, Magnitude.value_zero, Int.floor_zero] at hfloor
    by_contra hexp
    have hone : 1 ≤ ⌊Magnitude.value x.magnitude⌋ :=
      Int.le_floor.mpr (by exact_mod_cast Magnitude.one_le_value_iff.mpr (not_lt.mp hexp))
    omega
  · intro hexp
    have htrunc : x.trunc = ofMagnitude x.isNegative 0 := by
      rw [trunc]
      exact if_pos hexp
    rw [htrunc, magnitude_ofMagnitude (by decide)]

/-- **What a level is tested for**: without its fraction the number is less than zero. -/
lemma isLess_zero_trunc_iff : x.trunc.isLess zero = true ↔ x.TruncatesBelowZero := by
  have hzero : x.trunc.isZero = false ↔ 1 ≤ Magnitude.value x.magnitude := by
    rw [Bool.eq_false_iff, ne_eq, isZero_trunc_iff, not_lt, Magnitude.one_le_value_iff]
  simp only [isLess_zero, isNegative_trunc, isNaN_trunc, Bool.and_eq_true, Bool.not_eq_true', hzero]
  rcases isFinite_or x with hfinite | hinf | hnan
  · have hvalue : x.isNegative = true ∧ 1 ≤ Magnitude.value x.magnitude ↔ x.value ≤ -1 := by
      have hnonneg := Magnitude.value_nonneg x.magnitude
      cases hsign : x.isNegative with
      | true => simp [value, hsign, neg_le_neg_iff]
      | false =>
          simp only [value, hsign, Bool.false_eq_true, false_and, false_iff, if_false]
          linarith
    simp [TruncatesBelowZero, hfinite, not_isNaN_of_isFinite hfinite,
      not_isInfinite_of_isFinite hfinite, towardZero_neg_iff, hvalue]
  · have hone : 1 ≤ Magnitude.value x.magnitude := by
      have hmag : x.magnitude = Magnitude.infinity := of_decide_eq_true hinf
      rw [Magnitude.one_le_value_iff, hmag]
      decide
    simp [TruncatesBelowZero, hinf, not_isFinite_of_isInfinite hinf, not_isNaN_of_isInfinite hinf,
      hone]
  · obtain ⟨hfinite, hinf⟩ := not_isFinite_of_isNaN hnan
    simp [TruncatesBelowZero, hnan, hfinite, hinf]

end Binary64

end SolidOps
