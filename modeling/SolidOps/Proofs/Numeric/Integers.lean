import Mathlib
import SolidOps.Proofs.Numeric.Truncation

/-!
# Integers as numbers

An integer below `2 ^ 53` in absolute value is a number exactly, so it is its own whole part:

* `Magnitude.exists_value_eq_natCast`: with the leading bit moved up to the hidden bit, the integer
  is a significand;
* `Binary64.wholePart_ofInt`: the number nearest to the integer has it for a whole part.

All 32-bit integers are in this range, and within the bounds of their type nothing is clamped:
**`Binary64.toInt32_ofInt`** and **`Binary64.toUInt32_ofInt`** read them back.
-/

namespace SolidOps

/-! ## Integers as magnitudes -/

namespace Magnitude

/-- **Integers below `2 ^ 53` are values of magnitudes.** -/
lemma exists_value_eq_natCast {n : ℕ} (hn : n < 2 ^ 53) :
    ∃ m < infinity, value m = (n : ℚ) := by
  rcases Nat.eq_zero_or_pos n with rfl | hpos
  · exact ⟨0, by decide, by rw [value_zero, Nat.cast_zero]⟩
  · obtain ⟨k, hk⟩ : ∃ k, n.log2 + k = 52 := by
      have := (Nat.log2_lt hpos.ne').mpr hn
      exact ⟨52 - n.log2, by omega⟩
    have hlow : 2 ^ n.log2 ≤ n := Nat.log2_self_le hpos.ne'
    have hhigh : n < 2 ^ (n.log2 + 1) := Nat.lt_log2_self
    have hbit : hiddenBit = 2 ^ n.log2 * 2 ^ k := by
      rw [← pow_add, hk]
      rfl
    have hlow' : hiddenBit ≤ n * 2 ^ k := hbit ▸ Nat.mul_le_mul_right _ hlow
    have hhigh' : n * 2 ^ k < 2 * hiddenBit := by
      calc n * 2 ^ k < 2 ^ (n.log2 + 1) * 2 ^ k :=
            Nat.mul_lt_mul_of_pos_right hhigh (Nat.two_pow_pos k)
        _ = 2 * hiddenBit := by rw [hbit, pow_succ]; ring
    refine ⟨(1022 + n.log2) * hiddenBit + n * 2 ^ k, ?_, ?_⟩
    · rw [infinity]
      calc (1022 + n.log2) * hiddenBit + n * 2 ^ k < (1022 + n.log2) * hiddenBit + 2 * hiddenBit :=
            Nat.add_lt_add_left hhigh' _
        _ = (1024 + n.log2) * hiddenBit := by ring
        _ ≤ 2047 * hiddenBit := Nat.mul_le_mul_right _ (by omega)
    · have hexp : ((1022 + n.log2 : ℕ) : ℤ) - 1074 = -(k : ℤ) := by omega
      rw [value_offset_add (Or.inr hlow') hhigh'.le, hexp, zpow_neg, zpow_natCast, Nat.cast_mul,
        Nat.cast_pow, Nat.cast_ofNat, mul_inv_cancel_right₀ (pow_ne_zero _ two_ne_zero)]

end Magnitude

/-! ## Integers as numbers -/

namespace Binary64

/-- The number of a small integer: its sign, and a finite magnitude with its absolute value. -/
lemma ofInt_spec {i : ℤ} (hi : i.natAbs < 2 ^ 53) : ∃ m < Magnitude.infinity,
    ofInt i = ofMagnitude (decide (i < 0)) m ∧ Magnitude.value m = (i.natAbs : ℚ) := by
  obtain ⟨m, hm, hvalue⟩ := Magnitude.exists_value_eq_natCast hi
  refine ⟨m, hm, ?_, hvalue⟩
  rw [ofInt, ← hvalue, nearestMagnitude_value hm]

section Small

variable {i : ℤ} (hi : i.natAbs < 2 ^ 53)
include hi

lemma isNegative_ofInt : (ofInt i).isNegative = decide (i < 0) := by
  obtain ⟨m, hm, hof, -⟩ := ofInt_spec hi
  rw [hof, isNegative_ofMagnitude (hm.trans (by decide))]

/-- **A small integer is the whole part of its number.** -/
lemma wholePart_ofInt : (ofInt i).wholePart = i := by
  obtain ⟨m, hm, hof, hvalue⟩ := ofInt_spec hi
  have hmag : (ofInt i).magnitude = m := by rw [hof, magnitude_ofMagnitude (hm.trans (by decide))]
  have hfloor : (Magnitude.value m).floor = (i.natAbs : ℤ) := by
    rw [hvalue]
    exact Rat.floor_intCast i.natAbs
  rw [wholePart, isNegative_ofInt hi, hmag, hfloor]
  by_cases h : i < 0
  · rw [decide_eq_true h, if_pos rfl]
    omega
  · rw [decide_eq_false h, if_neg Bool.false_ne_true]
    omega

lemma clamp_ofInt {low high : ℤ} (hlow : low ≤ i) (hhigh : i ≤ high) :
    (ofInt i).clamp low high = i := by
  obtain ⟨m, hm, hof, -⟩ := ofInt_spec hi
  have hmag : (ofInt i).magnitude = m := by rw [hof, magnitude_ofMagnitude (hm.trans (by decide))]
  have hnan : (ofInt i).isNaN = false := by
    rw [isNaN, hmag, decide_eq_false (by omega)]
  have hinfinite : (ofInt i).isInfinite = false := by
    rw [isInfinite, hmag, decide_eq_false (by omega)]
  rw [clamp, hnan, hinfinite, if_neg Bool.false_ne_true, if_neg Bool.false_ne_true,
    wholePart_ofInt hi, min_eq_right hhigh, max_eq_right hlow]

end Small

/-- **Signed 32-bit integers are read back.** -/
theorem toInt32_ofInt (c : Int32) : (ofInt c.toInt).toInt32 = c := by
  have hlow : Int32.minValue.toInt ≤ c.toInt := Int32.minValue_le_toInt c
  have hhigh : c.toInt ≤ Int32.maxValue.toInt := Int32.toInt_le c
  have hsmall : c.toInt.natAbs < 2 ^ 53 := by
    have hmin : Int32.minValue.toInt = -2147483648 := rfl
    have hmax : Int32.maxValue.toInt = 2147483647 := rfl
    omega
  rw [toInt32, clamp_ofInt hsmall hlow hhigh, Int32.ofInt_toInt]

/-- **Unsigned 32-bit integers are read back**, also when the fraction is dropped first. -/
theorem toUInt32_trunc_ofInt (n : UInt32) : (ofInt n.toNat).trunc.toUInt32 = n := by
  have hlt : n.toNat < UInt32.size := n.toNat_lt_size
  have hsize : UInt32.size = 4294967296 := rfl
  have hsmall : (n.toNat : ℤ).natAbs < 2 ^ 53 := by omega
  rw [toUInt32, clamp_trunc, clamp_ofInt hsmall (by omega) (by omega), Int.toNat_natCast,
    UInt32.ofNat_toNat]

/-- What is not negative is not less than zero, with or without its fraction. -/
lemma isLess_zero_trunc_ofInt (n : UInt32) : (ofInt n.toNat).trunc.isLess zero = false := by
  have hlt : n.toNat < UInt32.size := n.toNat_lt_size
  have hsize : UInt32.size = 4294967296 := rfl
  have hsmall : (n.toNat : ℤ).natAbs < 2 ^ 53 := by omega
  rw [isLess_zero, isNegative_trunc, isNegative_ofInt hsmall, decide_eq_false (by omega)]
  rfl

end Binary64

end SolidOps
