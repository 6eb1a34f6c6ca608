import Mathlib
import SolidOps.Numeric.Binary64

/-!
# Magnitudes and their values

A number is a sign and a magnitude (`Binary64.ofMagnitude_magnitude`), and a magnitude is a word
that stands for a rational.  What rounding needs of the relation between the two:

* `Magnitude.value_offset_add`: `k` steps of the biased exponent and a count `s` of units make a
  magnitude of value `s * 2 ^ (k - 1074)`, also when the count is carried to the next power of two;
* `Magnitude.value_succ`: the next magnitude is one unit in the last place farther from zero.

So **magnitudes are ordered as the values they stand for** (`Magnitude.value_strictMono`).  The word
of infinity takes its place in this order at `2 ^ 1024`, the first power of two that is out of
range.
-/

namespace SolidOps

namespace Magnitude

/-! ## Significand and unit -/

lemma significand_lt (m : ℕ) : significand m < 2 * hiddenBit := by
  have hmod := Nat.mod_lt m (by decide : 0 < hiddenBit)
  rw [significand]
  split
  · rename_i h
    have hlt : m < hiddenBit := (Nat.div_eq_zero_iff_lt (by decide)).mp h
    omega
  · omega

lemma significand_pos {m : ℕ} (hm : m ≠ 0) : 0 < significand m := by
  have hbit : 0 < hiddenBit := by decide
  rw [significand]
  split <;> omega

lemma unitExponent_ge (m : ℕ) : -1074 ≤ unitExponent m := by
  simp only [unitExponent]
  omega

/-- A magnitude counts its units after those of all smaller exponents. -/
lemma offset_add_significand (m : ℕ) :
    (unitExponent m + 1074).toNat * hiddenBit + significand m = m := by
  have hsplit : hiddenBit * biasedExponent m + m % hiddenBit = m := Nat.div_add_mod m hiddenBit
  rw [unitExponent, significand]
  by_cases h : biasedExponent m = 0
  · rw [if_pos h, h]
    simp
  · obtain ⟨k, hk⟩ := Nat.exists_eq_succ_of_ne_zero h
    have hoffset : (((max (biasedExponent m) 1 : ℕ) : ℤ) - 1075 + 1074).toNat = k := by omega
    rw [if_neg h, hoffset]
    rw [hk, Nat.succ_eq_add_one] at hsplit
    linarith

/-- Without the hidden bit, the unit is the finest there is. -/
lemma unitExponent_or_hiddenBit_le (m : ℕ) :
    unitExponent m = -1074 ∨ hiddenBit ≤ significand m := by
  by_cases h : biasedExponent m = 0
  · exact Or.inl (by simp [unitExponent, h])
  · refine Or.inr ?_
    rw [significand, if_neg h]
    omega

/-! ## Values -/

lemma value_zero : value 0 = 0 := by
  simp [value, significand, biasedExponent]

lemma value_pos {m : ℕ} (hm : m ≠ 0) : 0 < value m := by
  have hsig : (0 : ℚ) < significand m := by exact_mod_cast significand_pos hm
  exact mul_pos hsig (zpow_pos two_pos _)

lemma value_nonneg (m : ℕ) : 0 ≤ value m :=
  mul_nonneg (Nat.cast_nonneg _) (zpow_pos two_pos _).le

/-- With a biased exponent, the fraction is counted after the hidden bit. -/
lemma value_normal (e : ℕ) {r : ℕ} (hr : r < hiddenBit) :
    value ((e + 1) * hiddenBit + r) = ((hiddenBit + r : ℕ) : ℚ) * 2 ^ ((e : ℤ) - 1074) := by
  have hbit : 0 < hiddenBit := by decide
  have hexp : biasedExponent ((e + 1) * hiddenBit + r) = e + 1 := by
    rw [biasedExponent, mul_comm, Nat.mul_add_div hbit, Nat.div_eq_of_lt hr, add_zero]
  have hsig : significand ((e + 1) * hiddenBit + r) = hiddenBit + r := by
    rw [significand, hexp, if_neg (Nat.succ_ne_zero e), mul_comm, Nat.mul_add_mod,
      Nat.mod_eq_of_lt hr]
  have hunit : unitExponent ((e + 1) * hiddenBit + r) = (e : ℤ) - 1074 := by
    rw [unitExponent, hexp]
    omega
  rw [value, hsig, hunit]

/-- **An offset for the unit and a count of units make a magnitude.**  Past the first step of the
exponent, the count has to bring the hidden bit; when it is carried, it brings two. -/
lemma value_offset_add {k s : ℕ} (hlow : k = 0 ∨ hiddenBit ≤ s) (hhigh : s ≤ 2 * hiddenBit) :
    value (k * hiddenBit + s) = (s : ℚ) * 2 ^ ((k : ℤ) - 1074) := by
  rcases lt_or_ge s hiddenBit with hsmall | hlarge
  · obtain rfl : k = 0 := hlow.resolve_right (by omega)
    have hexp : biasedExponent s = 0 := Nat.div_eq_of_lt hsmall
    rw [zero_mul, zero_add, value, significand, unitExponent, hexp, if_pos rfl]
    norm_num
  · rcases hhigh.lt_or_eq with hlt | rfl
    · obtain ⟨r, rfl⟩ := Nat.exists_eq_add_of_le hlarge
      have hsplit : k * hiddenBit + (hiddenBit + r) = (k + 1) * hiddenBit + r := by ring
      rw [hsplit, value_normal k (by omega)]
    · have hsplit : k * hiddenBit + 2 * hiddenBit = (k + 1 + 1) * hiddenBit + 0 := by ring
      have hexp : ((k + 1 : ℕ) : ℤ) - 1074 = 1 + ((k : ℤ) - 1074) := by
        push_cast
        ring
      rw [hsplit, value_normal (k + 1) (by decide), hexp, zpow_add₀ two_ne_zero]
      push_cast
      ring

/-- Further units do not make the unit finer. -/
lemma le_unitExponent_offset_add {k s : ℕ} (hlow : k = 0 ∨ hiddenBit ≤ s) :
    (k : ℤ) - 1074 ≤ unitExponent (k * hiddenBit + s) := by
  rcases hlow with rfl | hlow
  · exact unitExponent_ge _
  · have hexp : k + 1 ≤ biasedExponent (k * hiddenBit + s) := by
      rw [biasedExponent, Nat.le_div_iff_mul_le (by decide), Nat.succ_mul]
      exact Nat.add_le_add_left hlow _
    rw [unitExponent]
    omega

/-! ## Order -/

/-- **The next magnitude is one unit farther from zero.** -/
lemma value_succ (m : ℕ) : value (m + 1) = value m + 2 ^ unitExponent m := by
  have hunit := unitExponent_ge m
  have hsig := significand_lt m
  have hlow : (unitExponent m + 1074).toNat = 0 ∨ hiddenBit ≤ significand m := by
    refine (unitExponent_or_hiddenBit_le m).imp_left fun h => ?_
    rw [h]
    rfl
  have hexp : ((unitExponent m + 1074).toNat : ℤ) - 1074 = unitExponent m := by omega
  have hnext := value_offset_add (s := significand m + 1) (hlow.imp_right fun h => by omega)
    (by omega)
  rw [← add_assoc, offset_add_significand, hexp] at hnext
  rw [hnext, value]
  push_cast
  ring

/-- **Magnitudes are ordered as the values they stand for.** -/
theorem value_strictMono : StrictMono value := by
  refine strictMono_nat_of_lt_succ fun m => ?_
  rw [value_succ]
  have : (0 : ℚ) < 2 ^ unitExponent m := zpow_pos two_pos _
  linarith

/-- The next magnitude has the same unit, or it is a bare hidden bit in twice the unit. -/
lemma unitExponent_succ (m : ℕ) : unitExponent (m + 1) = unitExponent m ∨
    unitExponent (m + 1) = unitExponent m + 1 ∧ significand (m + 1) = hiddenBit := by
  have hstep := Nat.succ_div (a := m) (b := hiddenBit)
  by_cases h : hiddenBit ∣ m + 1
  · have hexp : biasedExponent (m + 1) = biasedExponent m + 1 := by
      rw [biasedExponent, hstep, if_pos h, biasedExponent]
    have hsig : significand (m + 1) = hiddenBit := by
      rw [significand, hexp, if_neg (Nat.succ_ne_zero _), Nat.mod_eq_zero_of_dvd h, add_zero]
    by_cases hsmall : biasedExponent m = 0
    · left
      simp [unitExponent, hexp, hsmall]
    · right
      refine ⟨?_, hsig⟩
      rw [unitExponent, unitExponent, hexp]
      omega
  · left
    rw [unitExponent, unitExponent, biasedExponent, hstep, if_neg h, add_zero, biasedExponent]

/-- Infinity takes its place at the first power of two that is out of range. -/
lemma value_infinity : value infinity = 2 ^ (1024 : ℤ) := by
  have h := value_offset_add (k := 2045) (s := 2 * hiddenBit) (Or.inr (by decide)) le_rfl
  have hinf : 2045 * hiddenBit + 2 * hiddenBit = infinity := by decide
  rw [hinf] at h
  have hcount : ((2 * hiddenBit : ℕ) : ℚ) = 2 ^ (53 : ℤ) := by norm_num [hiddenBit]
  rw [h, hcount, ← zpow_add₀ two_ne_zero]
  norm_num

lemma value_one : value 1 = 2 ^ (-1074 : ℤ) := by
  rw [value_succ 0, value_zero, zero_add]
  rfl

end Magnitude

/-! ## Numbers by sign and magnitude -/

namespace Binary64

section Parts

variable {negative : Bool} {m : ℕ}

lemma toNat_bits_ofMagnitude (hm : m < signBit) :
    (ofMagnitude negative m).bits.toNat = if negative then signBit + m else m := by
  have hsize : (if negative then signBit + m else m) < 2 ^ 64 := by
    rw [signBit] at *
    split <;> omega
  rw [ofMagnitude, UInt64.toNat_ofNat_of_lt' hsize]

@[simp] lemma magnitude_ofMagnitude (hm : m < signBit) :
    (ofMagnitude negative m).magnitude = m := by
  rw [magnitude, toNat_bits_ofMagnitude hm]
  split
  · rw [Nat.add_mod_left, Nat.mod_eq_of_lt hm]
  · exact Nat.mod_eq_of_lt hm

@[simp] lemma isNegative_ofMagnitude (hm : m < signBit) :
    (ofMagnitude negative m).isNegative = negative := by
  rw [isNegative, toNat_bits_ofMagnitude hm]
  cases negative with
  | true => simp
  | false => simpa using hm

end Parts

lemma magnitude_lt (x : Binary64) : x.magnitude < signBit := Nat.mod_lt _ (by decide)

/-- Less than zero are the numbers with a sign but for NaN and minus zero. -/
lemma isLess_zero (x : Binary64) : x.isLess zero = (x.isNegative && !x.isNaN && !x.isZero) := by
  have hnan : zero.isNaN = false := by decide
  have hplace : zero.place = 0 := by decide
  rw [isLess, hnan, hplace, place, isZero]
  cases x.isNegative with
  | true =>
      have hneg : decide (-(x.magnitude : ℤ) < 0) = !decide (x.magnitude = 0) := by
        rw [← decide_not, decide_eq_decide]
        omega
      rw [if_pos rfl, hneg, Bool.not_false, Bool.and_true, Bool.true_and]
  | false =>
      have hneg : decide ((x.magnitude : ℤ) < 0) = false := decide_eq_false (by omega)
      rw [if_neg Bool.false_ne_true, hneg, Bool.and_false, Bool.false_and, Bool.false_and]

/-- A word is put together again from its sign and its magnitude. -/
lemma ofMagnitude_magnitude (x : Binary64) :
    ofMagnitude x.isNegative x.magnitude = x := by
  have hword : x.bits.toNat < 2 * signBit := x.bits.toNat_lt
  have htogether : (if x.isNegative then signBit + x.magnitude else x.magnitude)
      = x.bits.toNat := by
    by_cases h : signBit ≤ x.bits.toNat
    · rw [isNegative, decide_eq_true h, if_pos rfl, magnitude, Nat.mod_eq_sub_mod h,
        Nat.mod_eq_of_lt (by omega)]
      omega
    · rw [isNegative, decide_eq_false h, if_neg Bool.false_ne_true, magnitude,
        Nat.mod_eq_of_lt (by omega)]
  rw [ofMagnitude, htogether, UInt64.ofNat_toNat]

end Binary64

end SolidOps
