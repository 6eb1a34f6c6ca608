import Mathlib
import SolidOps.Proofs.Numeric.Rounding

/-!
# Dropping the fraction

`Binary64.trunc` clears the bits of a magnitude that count fractions of one.  That this is rounding
toward zero is a statement about values: the whole part is the same before and after.

With `t` bits to clear, the significand counts units of `2 ^ -t`, so the whole part is its quotient
by `2 ^ t` (`Magnitude.floor_value_of_fraction`), and clearing the bits changes only the remainder
(`Magnitude.div_significand_cleared`).

**`Binary64.clamp_trunc`** draws the conclusion for conversions: whether or not the fraction is
dropped first, a number is held between the same bounds.
-/

namespace SolidOps

/-! ## The bits that count fractions -/

namespace Magnitude

/-- Infinity and the NaNs have the greatest biased exponent. -/
lemma biasedExponent_of_infinite {m : ℕ} (h : infinity ≤ m) : 2047 ≤ biasedExponent m :=
  (Nat.le_div_iff_mul_le (by decide)).mpr h

/-- Below the biased exponent of one there is no whole part. -/
lemma floor_value_of_small {m : ℕ} (h : biasedExponent m < 1023) : ⌊value m⌋ = 0 := by
  rw [Int.floor_eq_zero_iff]
  have hsig : (significand m : ℚ) < 2 ^ (53 : ℤ) := by exact_mod_cast significand_lt m
  have hunit : unitExponent m ≤ -53 := by
    rw [unitExponent]
    omega
  constructor
  · exact mul_nonneg (Nat.cast_nonneg _) (zpow_pos two_pos _).le
  · calc value m < 2 ^ (53 : ℤ) * 2 ^ unitExponent m := by
          rw [value]
          gcongr
      _ ≤ 2 ^ (53 : ℤ) * 2 ^ (-53 : ℤ) := by
          have := zpow_le_zpow_right₀ (one_le_two (α := ℚ)) hunit
          gcongr
      _ = 1 := by rw [← zpow_add₀ two_ne_zero]; norm_num

/-- Where the last `t` bits count fractions, the whole part is a quotient by `2 ^ t`. -/
lemma floor_value_of_fraction {m t : ℕ} (hpos : 0 < biasedExponent m)
    (ht : biasedExponent m + t = 1075) : ⌊value m⌋ = (significand m / 2 ^ t : ℕ) := by
  have hunit : unitExponent m = -(t : ℤ) := by
    rw [unitExponent]
    omega
  have hvalue : value m = (significand m : ℚ) / ((2 ^ t : ℕ) : ℚ) := by
    rw [value, hunit, zpow_neg, zpow_natCast, Nat.cast_pow, Nat.cast_ofNat, div_eq_mul_inv]
  rw [hvalue, ← Nat.floor_div_eq_div (K := ℚ), Int.natCast_floor_eq_floor (by positivity)]

variable {m q t : ℕ}

/-- The bits below the hidden bit split into `t` that are cleared and the others. -/
lemma sub_mod_eq_mul_div (m t : ℕ) : m - m % 2 ^ t = 2 ^ t * (m / 2 ^ t) := by
  have := Nat.div_add_mod m (2 ^ t)
  omega

/-- Clearing bits of the fraction leaves the exponent alone. -/
lemma biasedExponent_cleared (hbit : hiddenBit = 2 ^ t * q) :
    biasedExponent (m - m % 2 ^ t) = biasedExponent m := by
  rw [biasedExponent, biasedExponent, sub_mod_eq_mul_div, hbit,
    Nat.mul_div_mul_left _ _ (Nat.two_pow_pos t), Nat.div_div_eq_div_mul]

/-- Clearing bits of the fraction changes the significand only below them. -/
lemma div_significand_cleared (hbit : hiddenBit = 2 ^ t * q) (hpos : biasedExponent m ≠ 0) :
    significand (m - m % 2 ^ t) / 2 ^ t = significand m / 2 ^ t := by
  have htwo : 0 < 2 ^ t := Nat.two_pow_pos t
  rw [significand, significand, biasedExponent_cleared hbit, if_neg hpos, if_neg hpos,
    sub_mod_eq_mul_div, hbit, Nat.mul_mod_mul_left, Nat.mod_mul, Nat.mul_add_div htwo,
    Nat.mul_add_div htwo, Nat.mul_div_cancel_left _ htwo, Nat.add_mul_div_left _ _ htwo,
    Nat.div_eq_of_lt (Nat.mod_lt m htwo), Nat.zero_add]

end Magnitude

/-! ## Whole parts -/

namespace Binary64

/-- What truncation does to the magnitude. -/
lemma trunc_eq (x : Binary64) : ∃ m, m ≤ x.magnitude ∧ x.trunc = ofMagnitude x.isNegative m ∧
    (Magnitude.infinity ≤ x.magnitude → m = x.magnitude) ∧
    ⌊Magnitude.value m⌋ = ⌊Magnitude.value x.magnitude⌋ := by
  rw [trunc]
  by_cases hsmall : Magnitude.biasedExponent x.magnitude < 1023
  · refine ⟨0, Nat.zero_le _, if_pos hsmall, fun hinf => ?_, ?_⟩
    · have := Magnitude.biasedExponent_of_infinite hinf
      omega
    · rw [Magnitude.floor_value_of_small hsmall, Magnitude.value_zero, Int.floor_zero]
  · by_cases hlarge : 1075 ≤ Magnitude.biasedExponent x.magnitude
    · refine ⟨x.magnitude, le_rfl, ?_, fun _ => rfl, rfl⟩
      simp only [if_neg hsmall, if_pos hlarge, ofMagnitude_magnitude]
    · obtain ⟨t, ht⟩ : ∃ t, Magnitude.biasedExponent x.magnitude + t = 1075 :=
        ⟨1075 - Magnitude.biasedExponent x.magnitude, by omega⟩
      have hsub : 1075 - Magnitude.biasedExponent x.magnitude = t := by omega
      have hbit : Magnitude.hiddenBit = 2 ^ t * 2 ^ (52 - t) := by
        rw [← pow_add, show t + (52 - t) = 52 by omega]
        rfl
      refine ⟨x.magnitude - x.magnitude % 2 ^ t, Nat.sub_le _ _, ?_, fun hinf => ?_, ?_⟩
      · simp only [if_neg hsmall, if_neg hlarge, hsub, Nat.pow_eq]
      · have := Magnitude.biasedExponent_of_infinite hinf
        omega
      · have hexp := Magnitude.biasedExponent_cleared (m := x.magnitude) hbit
        rw [Magnitude.floor_value_of_fraction (by omega) ht,
          Magnitude.floor_value_of_fraction (by omega) (hexp.symm ▸ ht),
          Magnitude.div_significand_cleared hbit (by omega)]

@[simp] lemma isNegative_trunc (x : Binary64) : x.trunc.isNegative = x.isNegative := by
  obtain ⟨m, hm, htrunc, -⟩ := x.trunc_eq
  rw [htrunc, isNegative_ofMagnitude (hm.trans_lt x.magnitude_lt)]

lemma magnitude_trunc (x : Binary64) : x.trunc.magnitude ≤ x.magnitude ∧
    (Magnitude.infinity ≤ x.magnitude → x.trunc.magnitude = x.magnitude) ∧
    ⌊Magnitude.value x.trunc.magnitude⌋ = ⌊Magnitude.value x.magnitude⌋ := by
  obtain ⟨m, hm, htrunc, hrest⟩ := x.trunc_eq
  rw [htrunc, magnitude_ofMagnitude (hm.trans_lt x.magnitude_lt)]
  exact ⟨hm, hrest⟩

@[simp] lemma isNaN_trunc (x : Binary64) : x.trunc.isNaN = x.isNaN := by
  obtain ⟨hle, hinf, -⟩ := x.magnitude_trunc
  rw [isNaN, isNaN, decide_eq_decide]
  constructor <;> intro h
  · exact h.trans_le hle
  · rwa [hinf h.le]

@[simp] lemma isInfinite_trunc (x : Binary64) : x.trunc.isInfinite = x.isInfinite := by
  obtain ⟨hle, hinf, -⟩ := x.magnitude_trunc
  rw [isInfinite, isInfinite, decide_eq_decide]
  constructor <;> intro h
  · rw [← hinf (h ▸ hle), h]
  · rw [hinf h.ge, h]

lemma wholePart_trunc (x : Binary64) : x.trunc.wholePart = x.wholePart := by
  obtain ⟨-, -, hfloor⟩ := x.magnitude_trunc
  rw [wholePart, wholePart, isNegative_trunc]
  exact congrArg (fun k : ℤ => if x.isNegative then -k else k) hfloor

/-- **Dropping the fraction first makes no difference** to the whole part between two bounds. -/
lemma clamp_trunc (low high : ℤ) (x : Binary64) : x.trunc.clamp low high = x.clamp low high := by
  rw [clamp, clamp, isNaN_trunc, isInfinite_trunc, wholePart_trunc, isNegative_trunc]

end Binary64

end SolidOps
