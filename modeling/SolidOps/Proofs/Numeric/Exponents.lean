import Mathlib
import SolidOps.Numeric.Shortest
import SolidOps.Proofs.Numeric.Digits

/-!
# Orders of magnitude

Rounding and printing both begin by finding the order of magnitude of a number: the greatest power
of two, or of ten, that it reaches.  The definitions find it from the lengths of whole numbers, each
in its own way.  All of them find the integer logarithm:

* `binaryExponent_eq_log` and `decimalExponent_eq_log`, for a positive rational;
* `Decimal.leadingExponent_eq_log`, for a decimal other than zero.

The last one says that the leading exponent is a matter of the value alone, however many zeros the
coefficient ends with.
-/

namespace SolidOps

/-- Between a power of the base and the next one there is one logarithm. -/
lemma log_eq_of_le_of_lt {b : ℕ} (hb : 1 < b) {v : ℚ} {e : ℤ} (hlow : (b : ℚ) ^ e ≤ v)
    (hhigh : v < (b : ℚ) ^ (e + 1)) : Int.log b v = e := by
  have hbase : (0 : ℚ) < b := by exact_mod_cast (by omega : 0 < b)
  have hv : 0 < v := lt_of_lt_of_le (zpow_pos hbase e) hlow
  have hle : e ≤ Int.log b v := (Int.zpow_le_iff_le_log hb hv).mp hlow
  have hlt : Int.log b v < e + 1 := (Int.lt_zpow_iff_log_lt hb hv).mp hhigh
  omega

/-! ## Powers of two -/

/-- A quotient is within a factor of two of the quotient of the leading bits, on either side. -/
lemma div_between_zpow {n d : ℚ} {a c : ℤ} (hn : (2 : ℚ) ^ a ≤ n) (hn' : n < 2 ^ (a + 1))
    (hd : (2 : ℚ) ^ c ≤ d) (hd' : d < 2 ^ (c + 1)) :
    (2 : ℚ) ^ (a - c - 1) ≤ n / d ∧ n / d < 2 ^ (a - c + 1) := by
  have hc : (0 : ℚ) < 2 ^ c := zpow_pos two_pos c
  have hnonneg : 0 ≤ n := (zpow_pos two_pos a).le.trans hn
  constructor
  · rw [sub_sub, zpow_sub₀ two_ne_zero]
    exact div_le_div₀ hnonneg hn (hc.trans_le hd) hd'.le
  · rw [sub_add_eq_add_sub, zpow_sub₀ two_ne_zero]
    exact div_lt_div₀ hn' hd (hnonneg.trans hn'.le) hc

lemma zpow_log2 {n : ℕ} (hn : n ≠ 0) :
    (2 : ℚ) ^ (n.log2 : ℤ) ≤ n ∧ (n : ℚ) < 2 ^ ((n.log2 : ℤ) + 1) := by
  have hlow : 2 ^ n.log2 ≤ n := Nat.log2_self_le hn
  have hhigh : n < 2 ^ (n.log2 + 1) := Nat.lt_log2_self
  constructor
  · rw [zpow_natCast]
    exact_mod_cast hlow
  · rw [← Nat.cast_succ, zpow_natCast]
    exact_mod_cast hhigh

/-- **`binaryExponent` is the binary logarithm.**  The leading bits leave two candidates, so one
comparison decides. -/
theorem binaryExponent_eq_log {v : ℚ} (hv : 0 < v) : binaryExponent v = Int.log 2 v := by
  have hpos : 0 < v.num := Rat.num_pos.mpr hv
  have hquot : (v.num.natAbs : ℚ) / v.den = v := by
    rw [Nat.cast_natAbs, abs_of_pos hpos, Rat.num_div_den]
  obtain ⟨hn, hn'⟩ := zpow_log2 (n := v.num.natAbs) (by omega)
  obtain ⟨hd, hd'⟩ := zpow_log2 v.den_nz
  have hbetween := div_between_zpow hn hn' hd hd'
  rw [hquot] at hbetween
  simp only [binaryExponent]
  split
  · rename_i hguess
    refine (log_eq_of_le_of_lt (b := 2) one_lt_two ?_ ?_).symm
    · exact_mod_cast hguess
    · exact_mod_cast hbetween.2
  · rename_i hguess
    refine (log_eq_of_le_of_lt (b := 2) one_lt_two ?_ ?_).symm
    · exact_mod_cast hbetween.1
    · rw [sub_add_cancel]
      exact_mod_cast not_le.mp hguess

/-! ## Powers of ten -/

lemma length_digits_eq_log {n : ℕ} (hn : 0 < n) : (digits n).length = Nat.log 10 n + 1 := by
  have hlen := length_digits_pos n
  have hlog : Nat.log 10 n = (digits n).length - 1 := by
    refine Nat.log_eq_of_pow_le_of_lt_pow (pow_pred_length_digits_le hn) ?_
    rw [Nat.sub_add_cancel hlen]
    exact lt_pow_length_digits n
  omega

/-- The number before `n` has a digit for every place that `n` needs as an upper bound. -/
lemma length_digits_pred_eq_clog {n : ℕ} (hn : 1 < n) :
    (digits (n - 1)).length = Nat.clog 10 n := by
  have hten : 1 < 10 := by decide
  have hpos : 0 < Nat.clog 10 n := Nat.clog_pos hten hn
  apply le_antisymm
  · rw [length_digits_le_iff hpos]
    have hle := Nat.le_pow_clog hten n
    omega
  · rw [Nat.clog_le_iff_le_pow hten]
    have hlt := lt_pow_length_digits (n - 1)
    omega

/-- **`decimalExponent` is the decimal logarithm.**  Below one it is read off the reciprocal. -/
theorem decimalExponent_eq_log {v : ℚ} (hv : 0 < v) : decimalExponent v = Int.log 10 v := by
  rw [decimalExponent]
  split
  · rename_i hone
    have hone' : 1 ≤ v := by exact_mod_cast hone
    have hfloor : v.floor.toNat = ⌊v⌋₊ := Int.floor_toNat v
    rw [Int.log_of_one_le_right 10 hone', hfloor,
      length_digits_eq_log (Nat.floor_pos.mpr hone')]
    push_cast
    ring
  · rename_i hone
    have hone' : v < 1 := not_le.mp hone
    have hinv : 1 < v⁻¹ := (one_lt_inv₀ hv).mpr hone'
    have hceil : ((1 / v).ceil - 1).toNat = ⌈v⁻¹⌉₊ - 1 := by
      have hsame : (1 / v).ceil = ⌈v⁻¹⌉ := by
        rw [← one_div]
        exact Rat.ceil_eq_neg_floor_neg (1 / v)
      rw [hsame, ← Int.ceil_toNat]
      omega
    have hlarge : 1 < ⌈v⁻¹⌉₊ := Nat.lt_ceil.mpr (by exact_mod_cast hinv)
    rw [Int.log_of_right_le_one 10 hone'.le, hceil, length_digits_pred_eq_clog hlarge]

namespace Decimal

lemma value_pos {d : Decimal} (hd : d.coefficient ≠ 0) : 0 < d.value := by
  have hc : (0 : ℚ) < d.coefficient := by exact_mod_cast Nat.pos_of_ne_zero hd
  exact mul_pos hc (zpow_pos (by norm_num) d.exponent)

lemma value_eq_zero_iff (d : Decimal) : d.value = 0 ↔ d.coefficient = 0 := by
  constructor
  · intro h
    by_contra hd
    exact (value_pos hd).ne' h
  · intro h
    simp [value, h]

/-- **The leading exponent of a decimal is the logarithm of its value.** -/
theorem leadingExponent_eq_log {d : Decimal} (hd : d.coefficient ≠ 0) :
    d.leadingExponent = Int.log 10 d.value := by
  have hlen := length_digits_pos d.coefficient
  have hlow : (10 : ℚ) ^ (((digits d.coefficient).length : ℤ) - 1) ≤ d.coefficient := by
    rw [← Nat.cast_pred hlen, zpow_natCast]
    exact_mod_cast pow_pred_length_digits_le (Nat.pos_of_ne_zero hd)
  have hhigh : (d.coefficient : ℚ) < 10 ^ ((digits d.coefficient).length : ℤ) := by
    rw [zpow_natCast]
    exact_mod_cast lt_pow_length_digits d.coefficient
  have hpow : (0 : ℚ) < 10 ^ d.exponent := by positivity
  refine (log_eq_of_le_of_lt (b := 10) (by decide) ?_ ?_).symm
  · calc ((10 : ℕ) : ℚ) ^ d.leadingExponent
        = 10 ^ (((digits d.coefficient).length : ℤ) - 1) * 10 ^ d.exponent := by
          rw [Nat.cast_ofNat, ← zpow_add₀ (by norm_num), leadingExponent]
          congr 1
          ring
      _ ≤ d.value := by
          rw [value]
          gcongr
  · calc d.value < 10 ^ ((digits d.coefficient).length : ℤ) * 10 ^ d.exponent := by
          rw [value]
          gcongr
      _ = ((10 : ℕ) : ℚ) ^ (d.leadingExponent + 1) := by
          rw [Nat.cast_ofNat, ← zpow_add₀ (by norm_num), leadingExponent]
          congr 1
          ring

end Decimal

end SolidOps
