import Mathlib
import SolidOps.Numeric.Shortest
import SolidOps.Proofs.Numeric.Rounding

/-!
# The shortest decimal

`shortest` searches the grids of one digit, two digits and so on for a decimal that is read as a
given magnitude.  **`isShortest_shortest`** says what the search finds: a decimal that is read as
the magnitude, that has the fewest digits of all decimals read so, and that is the nearest to the
value among those with as few digits.

* Reading keeps the order of values, so what is read as a magnitude is an interval about its value
  (`Decimal.nearestMagnitude_of_between`).
* No decimal with the digits of a grid lies between the value's two neighbours on this grid
  (`value_le_or_ge`).  So when any of these decimals is read as the magnitude, a neighbour is, and
  it is at least as near (`neighbour_of_reads`); `gridNeighbour?_spec` says which one is taken.
* On the grid of seventeen digits one neighbour is close enough (`gridNeighbour?_seventeen`): the
  middles around the magnitude are farther apart than the neighbours.  The exact decimal behind the
  grids is never needed.

Taking zeros off the end changes neither the value nor, upwards, the length.
-/

namespace SolidOps

open Magnitude

namespace Decimal

/-! ## Zeros at the end -/

lemma value_trimAtMost (count : ℕ) (d : Decimal) : (trimAtMost count d).value = d.value := by
  induction count generalizing d with
  | zero => rfl
  | succ count ih =>
      rw [trimAtMost]
      split
      · rename_i h
        have hten : (d.coefficient : ℚ) = (d.coefficient / 10 : ℕ) * 10 := by
          exact_mod_cast (Nat.div_mul_cancel (Nat.dvd_of_mod_eq_zero h.2)).symm
        rw [ih, value, value, hten, zpow_add₀ (by norm_num), zpow_one]
        ring
      · rfl

lemma coefficient_trimAtMost_le (count : ℕ) (d : Decimal) :
    (trimAtMost count d).coefficient ≤ d.coefficient := by
  induction count generalizing d with
  | zero => exact le_rfl
  | succ count ih =>
      rw [trimAtMost]
      split
      · exact (ih _).trans (Nat.div_le_self _ _)
      · exact le_rfl

@[simp] lemma value_trim (d : Decimal) : d.trim.value = d.value := value_trimAtMost _ d

/-- A power of ten is trimmed below itself, and so is whatever does not exceed it. -/
lemma coefficient_trim_lt {d : Decimal} {n : ℕ} (h : d.coefficient ≤ 10 ^ (n + 1)) :
    d.trim.coefficient < 10 ^ (n + 1) := by
  rcases h.lt_or_eq with hlt | heq
  · exact (coefficient_trimAtMost_le _ d).trans_lt hlt
  · have hten : d.coefficient = 10 * 10 ^ n := by rw [heq, pow_succ, mul_comm]
    have hpos : 0 < 10 ^ n := Nat.pow_pos (by decide)
    obtain ⟨count, hcount⟩ := Nat.exists_eq_succ_of_ne_zero (length_digits_pos d.coefficient).ne'
    rw [trim, hcount, trimAtMost, if_pos ⟨by omega, by omega⟩]
    refine (coefficient_trimAtMost_le count _).trans_lt ?_
    show d.coefficient / 10 < 10 ^ (n + 1)
    omega

/-! ## What is read as a magnitude -/

variable {m : ℕ} {d d' : Decimal}

/-- **What is read as a magnitude is an interval about its value**: whatever lies between the value
and a decimal that is read so is read so too. -/
lemma nearestMagnitude_of_between (hm : m < infinity) (hd' : d'.nearestMagnitude = m)
    (h : d.value ∈ Set.uIcc d'.value (Magnitude.value m)) : d.nearestMagnitude = m := by
  have hbetween := nearestMagnitude_mono.mapsTo_uIcc h
  rwa [← nearestMagnitude_eq, ← nearestMagnitude_eq, hd', nearestMagnitude_value hm,
    Set.uIcc_self, Set.mem_singleton_iff] at hbetween

/-- A decimal below the value and above the middle is read as the magnitude. -/
lemma nearestMagnitude_of_middle_lt (hm : m + 1 < infinity)
    (h : Magnitude.value m + Magnitude.value (m + 1) < 2 * d.value)
    (hle : d.value ≤ Magnitude.value (m + 1)) : d.nearestMagnitude = m + 1 := by
  have hnext : Magnitude.value (m + 1) < Magnitude.value (m + 2) :=
    value_strictMono (Nat.lt_succ_self _)
  rw [nearestMagnitude_eq, nearestMagnitude_eq_iff]
  refine IsNearest.of_middles hm.le (fun n hn => ?_) fun _ => ⟨by linarith, fun h => by linarith⟩
  obtain rfl : n = m := by omega
  exact ⟨h.le, fun heq => absurd heq h.ne⟩

/-- A decimal above the value and below the middle is read as the magnitude. -/
lemma nearestMagnitude_of_lt_middle (hm : m < infinity) (hge : Magnitude.value m ≤ d.value)
    (h : 2 * d.value < Magnitude.value m + Magnitude.value (m + 1)) : d.nearestMagnitude = m := by
  rw [nearestMagnitude_eq, nearestMagnitude_eq_iff]
  exact IsNearest.of_middles hm.le (reachesLowerMiddle_of_le hge) fun _ =>
    ⟨h.le, fun heq => absurd heq h.ne⟩

end Decimal

/-! ## The nearer of two neighbours -/

section Nearer

variable (tie : Tie) {v : ℚ} {low : ℕ}

lemma Tie.nearer_eq_or (v : ℚ) (low : ℕ) :
    tie.nearer v low = low ∨ tie.nearer v low = low + 1 := by
  cases tie with
  | away =>
      simp only [Tie.nearer]
      split_ifs <;> simp
  | even =>
      simp only [Tie.nearer]
      split_ifs <;> simp

/-- The neighbour taken is within half a step, and at a whole half it is the one that the rule for
ties names. -/
lemma Tie.abs_sub_nearer_le (hlow : (low : ℚ) ≤ v) (hhigh : v < low + 1) :
    |v - tie.nearer v low| ≤ 1 / 2 ∧ (|v - tie.nearer v low| = 1 / 2 →
      match tie with
      | .away => tie.nearer v low = low + 1
      | .even => Even (tie.nearer v low)) := by
  have hdown : |v - low| = v - low := abs_of_nonneg (by linarith)
  have hup : |v - (low + 1 : ℕ)| = low + 1 - v := by
    push_cast
    rw [abs_of_nonpos (by linarith)]
    ring
  by_cases hless : v - low < 1 / 2
  · have hnearer : tie.nearer v low = low := by simp only [Tie.nearer, if_pos hless]
    rw [hnearer, hdown]
    exact ⟨hless.le, fun h => absurd h hless.ne⟩
  by_cases hmore : 1 / 2 < v - low
  · have hnearer : tie.nearer v low = low + 1 := by
      simp only [Tie.nearer, if_neg hless, if_pos hmore]
    rw [hnearer, hup]
    exact ⟨by linarith, fun h => by linarith⟩
  have hhalf : v - low = 1 / 2 := le_antisymm (not_lt.mp hmore) (not_lt.mp hless)
  cases tie with
  | away =>
      have hnearer : Tie.away.nearer v low = low + 1 := by
        simp only [Tie.nearer, if_neg hless, if_neg hmore]
      rw [hnearer, hup]
      exact ⟨by linarith, fun _ => rfl⟩
  | even =>
      by_cases heven : low % 2 = 0
      · have hnearer : Tie.even.nearer v low = low := by
          simp only [Tie.nearer, if_neg hless, if_neg hmore, if_pos heven]
        rw [hnearer, hdown]
        exact ⟨hhalf.le, fun _ => Nat.even_iff.mpr heven⟩
      · have hnearer : Tie.even.nearer v low = low + 1 := by
          simp only [Tie.nearer, if_neg hless, if_neg hmore, if_neg heven]
        rw [hnearer, hup]
        exact ⟨by linarith, fun _ => Nat.even_add_one.mpr (mt Nat.even_iff.mp heven)⟩

/-- No whole number is nearer than the neighbour taken. -/
lemma Tie.abs_sub_nearer_le_abs_sub (hlow : (low : ℚ) ≤ v) (hhigh : v < low + 1) (c : ℕ) :
    |v - tie.nearer v low| ≤ |v - c| := by
  obtain ⟨hhalf, -⟩ := tie.abs_sub_nearer_le hlow hhigh
  by_cases hc : c = tie.nearer v low
  · rw [hc]
  · refine hhalf.trans ?_
    exact_mod_cast half_le_abs_sub (r := tie.nearer v low) (n := c) (by exact_mod_cast hhalf)
      (by exact_mod_cast hc)

end Nearer

/-! ## Neighbours on a grid -/

/-- The decimal in units of `10 ^ e` that the value of a magnitude reaches. -/
def lowerNeighbour (m : ℕ) (e : ℤ) : Decimal := ⟨⌊value m / 10 ^ e⌋₊, e⟩

/-- The next decimal above it. -/
def upperNeighbour (m : ℕ) (e : ℤ) : Decimal := ⟨⌊value m / 10 ^ e⌋₊ + 1, e⟩

/-- The one of them that is taken when both are read as the magnitude. -/
def nearerNeighbour (tie : Tie) (m : ℕ) (e : ℤ) : Decimal :=
  ⟨tie.nearer (value m / 10 ^ e) ⌊value m / 10 ^ e⌋₊, e⟩

section Grid

variable {tie : Tie} {m n : ℕ} {e : ℤ} {d : Decimal}

lemma value_lowerNeighbour_le (m : ℕ) (e : ℤ) : (lowerNeighbour m e).value ≤ value m := by
  have hunit : (0 : ℚ) < 10 ^ e := zpow_pos (by norm_num) e
  rw [lowerNeighbour, Decimal.value, ← le_div_iff₀ hunit]
  exact Nat.floor_le (div_nonneg (value_nonneg m) hunit.le)

lemma lt_value_upperNeighbour (m : ℕ) (e : ℤ) : value m < (upperNeighbour m e).value := by
  have hunit : (0 : ℚ) < 10 ^ e := zpow_pos (by norm_num) e
  rw [upperNeighbour, Decimal.value, ← div_lt_iff₀ hunit, Nat.cast_succ]
  exact Nat.lt_floor_add_one _

lemma nearerNeighbour_eq_or (tie : Tie) (m : ℕ) (e : ℤ) :
    nearerNeighbour tie m e = lowerNeighbour m e ∨
      nearerNeighbour tie m e = upperNeighbour m e := by
  rw [nearerNeighbour, lowerNeighbour, upperNeighbour]
  exact (tie.nearer_eq_or _ _).imp (fun h => by rw [h]) fun h => by rw [h]

/-- No decimal of the same unit is nearer to the value. -/
lemma abs_sub_nearerNeighbour_le (tie : Tie) (m c : ℕ) (e : ℤ) :
    |value m - (nearerNeighbour tie m e).value| ≤ |value m - (Decimal.mk c e).value| := by
  have hunit : (0 : ℚ) < 10 ^ e := zpow_pos (by norm_num) e
  have hscaled (c : ℕ) : |value m - (Decimal.mk c e).value| = |value m / 10 ^ e - c| * 10 ^ e := by
    rw [← abs_of_pos hunit, ← abs_mul, abs_of_pos hunit, sub_mul,
      div_mul_cancel₀ (value m) hunit.ne', Decimal.value]
  rw [nearerNeighbour, hscaled, hscaled]
  exact mul_le_mul_of_nonneg_right (tie.abs_sub_nearer_le_abs_sub
    (Nat.floor_le (div_nonneg (value_nonneg m) hunit.le)) (Nat.lt_floor_add_one _) c) hunit.le

lemma gridNeighbour?_eq (tie : Tie) (m : ℕ) (e : ℤ) : gridNeighbour? tie m e =
    match (lowerNeighbour m e).nearestMagnitude == m,
      (upperNeighbour m e).nearestMagnitude == m with
    | true, true => some (nearerNeighbour tie m e)
    | true, false => some (lowerNeighbour m e)
    | false, true => some (upperNeighbour m e)
    | false, false => none := by
  have hfloor : (value m / 10 ^ e).floor.toNat = ⌊value m / 10 ^ e⌋₊ :=
    Int.floor_toNat (value m / 10 ^ e)
  simp only [gridNeighbour?, hfloor]
  rfl

/-- A grid has nothing to offer when neither neighbour is read as the magnitude. -/
lemma gridNeighbour?_eq_none_iff : gridNeighbour? tie m e = none ↔
    (lowerNeighbour m e).nearestMagnitude ≠ m ∧ (upperNeighbour m e).nearestMagnitude ≠ m := by
  rw [gridNeighbour?_eq]
  split <;> simp_all

/-- **What a grid offers**: a neighbour that is read as the magnitude, and the nearer one when both
are. -/
lemma gridNeighbour?_spec (h : gridNeighbour? tie m e = some d) : d.nearestMagnitude = m ∧
    (d = lowerNeighbour m e ∨ d = upperNeighbour m e) ∧
    ((lowerNeighbour m e).nearestMagnitude = m →
      |value m - d.value| ≤ |value m - (lowerNeighbour m e).value|) ∧
    ((upperNeighbour m e).nearestMagnitude = m →
      |value m - d.value| ≤ |value m - (upperNeighbour m e).value|) := by
  rw [gridNeighbour?_eq] at h
  split at h
  · rename_i hlow hhigh
    simp only [beq_iff_eq] at hlow hhigh
    obtain rfl := Option.some.inj h
    have hmem := nearerNeighbour_eq_or tie m e
    refine ⟨?_, hmem, fun _ => abs_sub_nearerNeighbour_le tie m _ e,
      fun _ => abs_sub_nearerNeighbour_le tie m _ e⟩
    rcases hmem with hd | hd
    · rw [hd, hlow]
    · rw [hd, hhigh]
  · rename_i hlow hhigh
    simp only [beq_iff_eq, beq_eq_false_iff_ne] at hlow hhigh
    obtain rfl := Option.some.inj h
    exact ⟨hlow, Or.inl rfl, fun _ => le_rfl, fun hread => absurd hread hhigh⟩
  · rename_i hlow hhigh
    simp only [beq_iff_eq, beq_eq_false_iff_ne] at hlow hhigh
    obtain rfl := Option.some.inj h
    exact ⟨hhigh, Or.inr rfl, fun hread => absurd hread hlow, fun _ => le_rfl⟩
  · cases h

/-- On the grid of `n + 1` digits, the lower neighbour has just so many. -/
lemma coefficient_lowerNeighbour (hm : m ≠ 0) (n : ℕ) :
    10 ^ n ≤ (lowerNeighbour m (decimalExponent (value m) - n)).coefficient ∧
      (lowerNeighbour m (decimalExponent (value m) - n)).coefficient < 10 ^ (n + 1) := by
  have hvalue := value_pos hm
  have hunit : (0 : ℚ) < 10 ^ (Int.log 10 (value m) - n) := zpow_pos (by norm_num) _
  rw [decimalExponent_eq_log hvalue, lowerNeighbour]
  constructor
  · refine Nat.le_floor ((le_div_iff₀ hunit).mpr ?_)
    calc ((10 ^ n : ℕ) : ℚ) * 10 ^ (Int.log 10 (value m) - n)
        = ((10 : ℕ) : ℚ) ^ Int.log 10 (value m) := by
          rw [Nat.cast_pow, Nat.cast_ofNat, ← zpow_natCast, ← zpow_add₀ (by norm_num)]
          congr 1
          ring
      _ ≤ value m := Int.zpow_log_le_self (by decide) hvalue
  · refine (Nat.floor_lt (div_nonneg hvalue.le hunit.le)).mpr ((div_lt_iff₀ hunit).mpr ?_)
    calc value m < ((10 : ℕ) : ℚ) ^ (Int.log 10 (value m) + 1) :=
          Int.lt_zpow_succ_log_self (by decide) (value m)
      _ = ((10 ^ (n + 1) : ℕ) : ℚ) * 10 ^ (Int.log 10 (value m) - n) := by
          rw [Nat.cast_pow, Nat.cast_ofNat, ← zpow_natCast, ← zpow_add₀ (by norm_num)]
          congr 1
          push_cast
          ring

/-- **No decimal with the digits of a grid lies between the neighbours.**  In units of the grid or
in larger ones it is a whole number of them, and in smaller units it is too small. -/
lemma value_le_or_ge (hlow : 10 ^ n ≤ (lowerNeighbour m e).coefficient)
    (hd : d.coefficient < 10 ^ (n + 1)) :
    d.value ≤ (lowerNeighbour m e).value ∨ (upperNeighbour m e).value ≤ d.value := by
  have hunit : (0 : ℚ) < 10 ^ e := zpow_pos (by norm_num) e
  rcases le_or_gt e d.exponent with hcoarse | hfine
  · obtain ⟨k, hk⟩ : ∃ k : ℕ, d.exponent = k + e := ⟨(d.exponent - e).toNat, by omega⟩
    have hcount : d.value = ((d.coefficient * 10 ^ k : ℕ) : ℚ) * 10 ^ e := by
      rw [Decimal.value, hk, zpow_add₀ (by norm_num), zpow_natCast]
      push_cast
      ring
    rw [hcount, lowerNeighbour, upperNeighbour, Decimal.value, Decimal.value,
      mul_le_mul_iff_left₀ hunit, mul_le_mul_iff_left₀ hunit, Nat.cast_le, Nat.cast_le]
    exact (Nat.lt_or_ge _ _).symm
  · left
    have hcoefficient : (d.coefficient : ℚ) ≤ 10 ^ ((n : ℤ) + 1) := by
      exact_mod_cast hd.le
    have hlow' : (10 : ℚ) ^ (n : ℤ) ≤ (lowerNeighbour m e).coefficient := by
      exact_mod_cast hlow
    calc d.value ≤ 10 ^ ((n : ℤ) + 1) * 10 ^ d.exponent := by
          rw [Decimal.value]
          gcongr
      _ ≤ 10 ^ ((n : ℤ) + 1) * 10 ^ (e - 1) := by
          have := zpow_le_zpow_right₀ (by norm_num : (1 : ℚ) ≤ 10) (Int.le_sub_one_of_lt hfine)
          gcongr
      _ = 10 ^ (n : ℤ) * 10 ^ e := by
          rw [← zpow_add₀ (by norm_num), ← zpow_add₀ (by norm_num)]
          congr 1
          ring
      _ ≤ (lowerNeighbour m e).coefficient * 10 ^ e := by gcongr

/-- **Where a decimal with the digits of a grid is read as the magnitude, so is a neighbour**, and
this neighbour is not farther from the value. -/
lemma neighbour_of_reads (hm : m < infinity) (hlow : 10 ^ n ≤ (lowerNeighbour m e).coefficient)
    (hd : d.coefficient < 10 ^ (n + 1)) (hread : d.nearestMagnitude = m) :
    ((lowerNeighbour m e).nearestMagnitude = m ∧
        |value m - (lowerNeighbour m e).value| ≤ |value m - d.value|) ∨
      ((upperNeighbour m e).nearestMagnitude = m ∧
        |value m - (upperNeighbour m e).value| ≤ |value m - d.value|) := by
  have hbelow := value_lowerNeighbour_le m e
  have habove := (lt_value_upperNeighbour m e).le
  rcases value_le_or_ge hlow hd with h | h
  · have hbetween := Set.mem_uIcc_of_le h hbelow
    refine Or.inl ⟨Decimal.nearestMagnitude_of_between hm hread hbetween, ?_⟩
    rw [abs_of_nonneg (by linarith), abs_of_nonneg (by linarith)]
    linarith
  · have hbetween := Set.mem_uIcc_of_ge habove h
    refine Or.inr ⟨Decimal.nearestMagnitude_of_between hm hread hbetween, ?_⟩
    rw [abs_of_nonpos (by linarith), abs_of_nonpos (by linarith)]
    linarith

/-- **The magnitudes around another one are farther apart than two steps of a grid that counts its
value in `10 ^ 16` steps or more.**  They are two units apart, or a unit and a half around a bare
hidden bit, which has half as many units. -/
lemma two_mul_lt_gap {k : ℕ} {step : ℚ} (h : 10 ^ 16 * step ≤ value (k + 1)) :
    2 * step < value (k + 1 + 1) - value k := by
  have hbelow := value_succ k
  have habove := value_succ (k + 1)
  have hvalue : value (k + 1) = significand (k + 1) * 2 ^ unitExponent (k + 1) := rfl
  have hunit : (0 : ℚ) < 2 ^ unitExponent k := zpow_pos two_pos _
  rcases unitExponent_succ k with hsame | ⟨hdouble, hbare⟩
  · rw [hsame] at habove hvalue
    have hcount : (significand (k + 1) : ℚ) < 2 ^ 53 := by exact_mod_cast significand_lt (k + 1)
    have hsize := mul_lt_mul_of_pos_right hcount hunit
    linarith
  · have htwo : (2 : ℚ) ^ unitExponent (k + 1) = 2 * 2 ^ unitExponent k := by
      rw [hdouble, zpow_add_one₀ two_ne_zero, mul_comm]
    have hcount : (significand (k + 1) : ℚ) = 2 ^ 52 := by rw [hbare]; norm_num [hiddenBit]
    rw [htwo] at habove hvalue
    rw [hcount] at hvalue
    linarith

/-- **Seventeen digits are enough.**  If neither neighbour were read as the magnitude, the middles
on its two sides would both lie between the neighbours. -/
lemma gridNeighbour?_seventeen (tie : Tie) (hpos : m ≠ 0) (hm : m < infinity) :
    gridNeighbour? tie m (decimalExponent (value m) - (16 : ℕ)) ≠ none := by
  intro h
  obtain ⟨hlower, hupper⟩ := gridNeighbour?_eq_none_iff.mp h
  have hdigits := (coefficient_lowerNeighbour hpos 16).1
  set e := decimalExponent (value m) - (16 : ℕ)
  have hunit : (0 : ℚ) < 10 ^ e := zpow_pos (by norm_num) e
  obtain ⟨k, rfl⟩ := Nat.exists_eq_succ_of_ne_zero hpos
  rw [Nat.succ_eq_add_one] at *
  have hbelow := value_lowerNeighbour_le (k + 1) e
  have habove := lt_value_upperNeighbour (k + 1) e
  have hmiddle : 2 * (lowerNeighbour (k + 1) e).value ≤ value k + value (k + 1) := by
    by_contra hlt
    exact hlower (Decimal.nearestMagnitude_of_middle_lt hm (not_le.mp hlt) hbelow)
  have hmiddle' : value (k + 1) + value (k + 1 + 1) ≤ 2 * (upperNeighbour (k + 1) e).value := by
    by_contra hlt
    exact hupper (Decimal.nearestMagnitude_of_lt_middle hm habove.le (not_le.mp hlt))
  have hstep : (upperNeighbour (k + 1) e).value = (lowerNeighbour (k + 1) e).value + 10 ^ e := by
    rw [upperNeighbour, lowerNeighbour, Decimal.value, Decimal.value]
    push_cast
    ring
  have hsize : 10 ^ 16 * 10 ^ e ≤ value (k + 1) := by
    have hcount : (10 ^ 16 : ℚ) ≤ (lowerNeighbour (k + 1) e).coefficient := by
      exact_mod_cast hdigits
    exact (mul_le_mul_of_nonneg_right hcount hunit.le).trans hbelow
  have hgap := two_mul_lt_gap hsize
  linarith

/-- The decimal taken from a grid has the digits of this grid once it is trimmed. -/
lemma coefficient_trim_lt_of_grid (hpos : m ≠ 0)
    (hd : gridNeighbour? tie m (decimalExponent (value m) - n) = some d) :
    d.trim.coefficient < 10 ^ (n + 1) := by
  have hfew := (coefficient_lowerNeighbour hpos n).2
  obtain ⟨-, hmem, -⟩ := gridNeighbour?_spec hd
  refine Decimal.coefficient_trim_lt ?_
  rcases hmem with rfl | rfl
  · exact hfew.le
  · exact hfew

end Grid

/-! ## The search -/

/-- The first hit of a search through the natural numbers. -/
lemma exists_first_of_findSome?_range {α : Type} {f : ℕ → Option α} {k : ℕ} {a : α}
    (h : (List.range k).findSome? f = some a) :
    ∃ n < k, f n = some a ∧ ∀ n' < n, f n' = none := by
  induction k with
  | zero => cases h
  | succ k ih =>
      rw [List.range_succ, List.findSome?_append] at h
      cases hbefore : (List.range k).findSome? f with
      | some b =>
          rw [hbefore] at h
          obtain rfl : b = a := Option.some.inj h
          obtain ⟨n, hn, hfirst⟩ := ih hbefore
          exact ⟨n, hn.trans (Nat.lt_succ_self k), hfirst⟩
      | none =>
          rw [hbefore] at h
          refine ⟨k, Nat.lt_succ_self k, by simpa using h, fun n' hn' => ?_⟩
          exact List.findSome?_eq_none_iff.mp hbefore n' (List.mem_range.mpr hn')

/-- `d` is a shortest decimal that is read as `m`, and of the shortest ones the nearest to its
value. -/
structure IsShortest (m : ℕ) (d : Decimal) : Prop where
  reads : d.nearestMagnitude = m
  least : ∀ d' : Decimal, d'.nearestMagnitude = m →
    (digits d.coefficient).length ≤ (digits d'.coefficient).length
  nearest : ∀ d' : Decimal, d'.nearestMagnitude = m →
    (digits d'.coefficient).length = (digits d.coefficient).length →
    |value m - d.value| ≤ |value m - d'.value|

section Search

variable (tie : Tie) {m : ℕ} (hpos : m ≠ 0) (hm : m < infinity)
include hpos hm

/-- The grid that the search ends on, and the decimal it takes from it. -/
lemma exists_shortest_eq_trim : ∃ n : ℕ, n < 17 ∧ ∃ d : Decimal, shortest tie m = d.trim ∧
    gridNeighbour? tie m (decimalExponent (value m) - n) = some d ∧
    ∀ n' : ℕ, n' < n → gridNeighbour? tie m (decimalExponent (value m) - n') = none := by
  cases hgrid : (List.range 17).findSome? fun (n : Nat) =>
      gridNeighbour? tie m (decimalExponent (value m) - n) with
  | none =>
      have hlast := List.findSome?_eq_none_iff.mp hgrid 16 (by decide)
      exact absurd hlast (gridNeighbour?_seventeen tie hpos hm)
  | some d =>
      obtain ⟨n, hn, hd, hfirst⟩ := exists_first_of_findSome?_range hgrid
      refine ⟨n, hn, d, ?_, hd, hfirst⟩
      rw [shortest, hgrid, Option.getD_some]

/-- **`shortest` finds a shortest decimal**, and the nearest of them. -/
theorem isShortest_shortest : IsShortest m (shortest tie m) := by
  obtain ⟨n, -, d, hshortest, hd, hfirst⟩ := exists_shortest_eq_trim tie hpos hm
  obtain ⟨hread, -, hlower, hupper⟩ := gridNeighbour?_spec hd
  have hlength : (digits d.trim.coefficient).length ≤ n + 1 :=
    (length_digits_le_iff n.succ_pos).mpr (coefficient_trim_lt_of_grid hpos hd)
  rw [hshortest]
  refine ⟨?_, fun d' hd' => ?_, fun d' hd' hsame => ?_⟩
  · rw [Decimal.nearestMagnitude_congr d.value_trim, hread]
  · -- A shorter decimal would have been met on an earlier grid.
    by_contra hlt
    have hone := length_digits_pos d'.coefficient
    obtain ⟨j, rfl⟩ : ∃ j, n = j + 1 := ⟨n - 1, by omega⟩
    have hfew : d'.coefficient < 10 ^ (j + 1) :=
      (length_digits_le_iff j.succ_pos).mp (by omega)
    obtain ⟨hno, hno'⟩ := gridNeighbour?_eq_none_iff.mp (hfirst j (Nat.lt_succ_self j))
    rcases neighbour_of_reads hm (coefficient_lowerNeighbour hpos j).1 hfew hd' with h | h
    · exact hno h.1
    · exact hno' h.1
  · have hfew : d'.coefficient < 10 ^ (n + 1) :=
      (length_digits_le_iff n.succ_pos).mp (by omega)
    rw [Decimal.value_trim]
    rcases neighbour_of_reads hm (coefficient_lowerNeighbour hpos n).1 hfew hd' with h | h
    · exact (hlower h.1).trans h.2
    · exact (hupper h.1).trans h.2

/-- **The shortest decimal of a finite magnitude is read as this magnitude.** -/
theorem nearestMagnitude_shortest : (shortest tie m).nearestMagnitude = m :=
  (isShortest_shortest tie hpos hm).reads

/-- The shortest decimal has seventeen digits at most. -/
lemma coefficient_shortest_lt : (shortest tie m).coefficient < 10 ^ 17 := by
  obtain ⟨n, hn, d, hshortest, hd, -⟩ := exists_shortest_eq_trim tie hpos hm
  rw [hshortest]
  exact (coefficient_trim_lt_of_grid hpos hd).trans_le (Nat.pow_le_pow_right (by decide) hn)

end Search

end SolidOps
