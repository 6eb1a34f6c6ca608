import Mathlib
import SolidOps.Numeric.Nearest
import SolidOps.Proofs.Numeric.Exponents
import SolidOps.Proofs.Numeric.Magnitudes

/-!
# Rounding to the nearest

`nearestMagnitude` is defined by arithmetic: a unit in the last place and a count of units.  This
module says what it is for.  `Magnitude.IsNearest v m` states that no magnitude is nearer to `v`
than `m`, and that `m` is even when another one is just as near; infinity takes part with the value
its word would have, so that a value is out of range from the middle above the greatest finite one.

* `isNearest_nearestMagnitude`: rounding finds such a magnitude;
* `Magnitude.IsNearest.unique`: there is no other, so **`nearestMagnitude_eq_iff`** characterises
  rounding without saying how it is done;
* `Decimal.isNearest_nearestMagnitude`: the reader of decimals rounds their exact value, also where
  it settles the result by the order of magnitude alone.

Whatever rounding satisfies follows from the characterisation: it keeps the order of values
(`nearestMagnitude_mono`), it gives back a magnitude from its value (`nearestMagnitude_value`), and
it reads decimals by their value only (`Decimal.nearestMagnitude_congr`).

Nearness is a matter of midpoints: of two points the lower is the nearer one exactly when the value
does not lie above the middle between them.
-/

namespace SolidOps

/-! ## The nearer of two points -/

section Midpoint

variable {v a b : ℚ}

lemma abs_sub_le_of_lower_iff (h : a < b) : |v - a| ≤ |v - b| ↔ 2 * v ≤ a + b := by
  have hsquares : (v - b) ^ 2 - (v - a) ^ 2 = (b - a) * (a + b - 2 * v) := by ring
  rw [← sq_le_sq, ← sub_nonneg, hsquares, mul_nonneg_iff_of_pos_left (sub_pos.mpr h), sub_nonneg]

lemma abs_sub_le_of_upper_iff (h : a < b) : |v - b| ≤ |v - a| ↔ a + b ≤ 2 * v := by
  have hsquares : (v - a) ^ 2 - (v - b) ^ 2 = (b - a) * (2 * v - (a + b)) := by ring
  rw [← sq_le_sq, ← sub_nonneg, hsquares, mul_nonneg_iff_of_pos_left (sub_pos.mpr h), sub_nonneg]

end Midpoint

/-! ## Whole numbers -/

lemma roundHalfEven_eq_floor_or (v : ℚ) : roundHalfEven v = ⌊v⌋ ∨ roundHalfEven v = ⌊v⌋ + 1 := by
  have hfloor : v.floor = ⌊v⌋ := rfl
  simp only [roundHalfEven, hfloor]
  split_ifs <;> simp

/-- Rounding moves a value by half a unit at most, and by a whole half only to an even number. -/
lemma abs_sub_roundHalfEven_le (v : ℚ) : |v - roundHalfEven v| ≤ 1 / 2 ∧
    (|v - roundHalfEven v| = 1 / 2 → Even (roundHalfEven v)) := by
  have hfloor : v.floor = ⌊v⌋ := rfl
  have hlow := Int.floor_le v
  have hhigh := Int.lt_floor_add_one v
  simp only [roundHalfEven, hfloor]
  split_ifs with hless hmore heven
  · rw [abs_of_nonneg (by linarith)]
    exact ⟨hless.le, fun h => absurd h hless.ne⟩
  · push_cast
    rw [abs_of_nonpos (by linarith)]
    exact ⟨by linarith, fun h => by linarith⟩
  · rw [abs_of_nonneg (by linarith)]
    exact ⟨not_lt.mp hmore, fun _ => Int.even_iff.mpr heven⟩
  · push_cast
    rw [abs_of_nonpos (by linarith)]
    exact ⟨by linarith, fun _ => Int.even_add_one.mpr (mt Int.even_iff.mp heven)⟩

/-- Where one whole number is within half a unit, every other one is half a unit away. -/
lemma half_le_abs_sub {v : ℚ} {r n : ℤ} (hr : |v - r| ≤ 1 / 2) (hn : n ≠ r) :
    1 / 2 ≤ |v - n| := by
  have happart : (1 : ℚ) ≤ |(r : ℚ) - n| := by
    exact_mod_cast Int.one_le_abs (sub_ne_zero.mpr hn.symm)
  have htriangle := abs_sub_le (r : ℚ) v n
  rw [abs_sub_comm (r : ℚ) v] at htriangle
  linarith

/-- **`roundHalfEven` gives the nearest whole number**, and of two equally near ones the even
one. -/
theorem roundHalfEven_isNearest (v : ℚ) {n : ℤ} (hn : n ≠ roundHalfEven v) :
    |v - roundHalfEven v| < |v - n| ∨
      |v - roundHalfEven v| = |v - n| ∧ Even (roundHalfEven v) := by
  obtain ⟨hhalf, heven⟩ := abs_sub_roundHalfEven_le v
  have hother := half_le_abs_sub hhalf hn
  rcases (hhalf.trans hother).lt_or_eq with hlt | heq
  · exact Or.inl hlt
  · exact Or.inr ⟨heq, heven (le_antisymm hhalf (heq ▸ hother))⟩

/-- A value that is not negative is rounded to a natural number. -/
lemma roundHalfEven_of_nonneg {t : ℚ} (ht : 0 ≤ t) : ∃ s : ℕ, roundHalfEven t = s ∧
    (s = ⌊t⌋₊ ∨ s = ⌊t⌋₊ + 1) ∧ |t - s| ≤ 1 / 2 ∧ (|t - s| = 1 / 2 → Even s) := by
  obtain ⟨hhalf, heven⟩ := abs_sub_roundHalfEven_le t
  have hround := roundHalfEven_eq_floor_or t
  have hfloor : ⌊t⌋ = (⌊t⌋₊ : ℤ) := (Int.natCast_floor_eq_floor ht).symm
  obtain ⟨s, hs⟩ : ∃ s : ℕ, roundHalfEven t = s := ⟨(roundHalfEven t).toNat, by omega⟩
  rw [hs, Int.cast_natCast] at hhalf heven
  exact ⟨s, hs, by omega, hhalf, fun h => by exact_mod_cast heven h⟩

/-! ## The nearest magnitude -/

namespace Magnitude

/-- `m` is the nearest magnitude to `v`, and even when it is not the only one.  The magnitudes are
the finite ones and infinity, at `2 ^ 1024`. -/
structure IsNearest (v : ℚ) (m : ℕ) : Prop where
  le_infinity : m ≤ infinity
  le : ∀ n ≤ infinity, |v - value m| ≤ |v - value n|
  even_of_tie : ∀ n ≤ infinity, n ≠ m → |v - value m| = |v - value n| → Even m

/-- The middle below `m` is not above `v`, and it is not `v` itself unless `m` is even. -/
def ReachesLowerMiddle (v : ℚ) (m : ℕ) : Prop :=
  ∀ n, n + 1 = m → value n + value m ≤ 2 * v ∧ (value n + value m = 2 * v → Even m)

/-- The middle above `m` is not below `v`, and it is not `v` itself unless `m` is even. -/
def KeepsUpperMiddle (v : ℚ) (m : ℕ) : Prop :=
  2 * v ≤ value m + value (m + 1) ∧ (2 * v = value m + value (m + 1) → Even m)

variable {v v' : ℚ} {m m' n : ℕ}

/-- The middle below the nearest magnitude is not above the value. -/
lemma IsNearest.lower_le (h : IsNearest v m) (hn : n < m) : value n + value m ≤ 2 * v :=
  (abs_sub_le_of_upper_iff (value_strictMono hn)).mp (h.le n (hn.le.trans h.le_infinity))

/-- The middle above the nearest magnitude is not below the value. -/
lemma IsNearest.le_upper (h : IsNearest v m) (hn : m < n) (hinf : n ≤ infinity) :
    2 * v ≤ value m + value n :=
  (abs_sub_le_of_lower_iff (value_strictMono hn)).mp (h.le n hinf)

/-- **A greater value has no smaller nearest magnitude.**  Two magnitudes could only change places
about their own middle, with both of them even, but then a magnitude between them is nearer. -/
theorem IsNearest.le_of_le (h : IsNearest v m) (h' : IsNearest v' m') (hv : v ≤ v') : m ≤ m' := by
  by_contra hlt
  rw [not_le] at hlt
  have hlower := h.lower_le hlt
  have hupper := h'.le_upper hlt h.le_infinity
  have hmiddle : 2 * v = value m' + value m := by linarith
  have hv' : v' = v := by linarith
  subst hv'
  have htie : |v' - value m'| = |v' - value m| :=
    le_antisymm (h'.le m h.le_infinity) (h.le m' h'.le_infinity)
  have heven := h.even_of_tie m' h'.le_infinity hlt.ne htie.symm
  have heven' := h'.even_of_tie m h.le_infinity hlt.ne' htie
  have hbetween : m' + 1 < m := by
    obtain ⟨i, hi⟩ := heven
    obtain ⟨j, hj⟩ := heven'
    omega
  have hnext := h.lower_le hbetween
  have hincreasing := value_strictMono (Nat.lt_succ_self m')
  rw [Nat.succ_eq_add_one] at hincreasing
  linarith

/-- **There is only one nearest magnitude.** -/
theorem IsNearest.unique (h : IsNearest v m) (h' : IsNearest v m') : m = m' :=
  le_antisymm (h.le_of_le h' le_rfl) (h'.le_of_le h le_rfl)

/-- What reaches a magnitude reaches the middle below it. -/
lemma reachesLowerMiddle_of_le (h : value m ≤ v) : ReachesLowerMiddle v m := by
  intro n hn
  have hlt := value_strictMono (Nat.lt_of_succ_le hn.le)
  exact ⟨by linarith, fun h => by linarith⟩

/-- Only the neighbours of a magnitude can be nearer, so the middles on its two sides decide. -/
lemma IsNearest.of_middles (hinf : m ≤ infinity) (hlower : ReachesLowerMiddle v m)
    (hupper : m < infinity → KeepsUpperMiddle v m) : IsNearest v m := by
  have hbelow {n : ℕ} (hn : n < m) : value n + value m ≤ 2 * v ∧
      (value n + value m = 2 * v → Even m) := by
    obtain ⟨hle, htie⟩ := hlower (m - 1) (by omega)
    have hnear := value_strictMono.monotone (Nat.le_sub_one_of_lt hn)
    exact ⟨by linarith, fun h => htie (by linarith)⟩
  have habove {n : ℕ} (hn : m < n) (hn' : n ≤ infinity) : 2 * v ≤ value m + value n ∧
      (2 * v = value m + value n → Even m) := by
    obtain ⟨hle, htie⟩ := hupper (hn.trans_le hn')
    have hnear : value (m + 1) ≤ value n := value_strictMono.monotone hn
    exact ⟨by linarith, fun h => htie (by linarith)⟩
  refine ⟨hinf, fun n hn => ?_, fun n hn hne htie => ?_⟩
  · rcases lt_trichotomy n m with hlt | rfl | hgt
    · exact (abs_sub_le_of_upper_iff (value_strictMono hlt)).mpr (hbelow hlt).1
    · exact le_rfl
    · exact (abs_sub_le_of_lower_iff (value_strictMono hgt)).mpr (habove hgt hn).1
  · rcases lt_or_gt_of_ne hne with hlt | hgt
    · have hge := (abs_sub_le_of_lower_iff (value_strictMono hlt)).mp htie.ge
      exact (hbelow hlt).2 (le_antisymm (hbelow hlt).1 hge)
    · have hge := (abs_sub_le_of_upper_iff (value_strictMono hgt)).mp htie.ge
      exact (habove hgt hn).2 (le_antisymm (habove hgt hn).1 hge)

/-- A finite magnitude is the nearest one to its own value. -/
lemma isNearest_value (hm : m < infinity) : IsNearest (value m) m := by
  refine IsNearest.of_middles hm.le (reachesLowerMiddle_of_le le_rfl) fun _ => ?_
  have hlt : value m < value (m + 1) := value_strictMono (Nat.lt_succ_self m)
  exact ⟨by linarith, fun h => by linarith⟩

/-- Infinity is the nearest magnitude to whatever reaches it. -/
lemma isNearest_infinity (hv : value infinity ≤ v) : IsNearest v infinity :=
  IsNearest.of_middles le_rfl (reachesLowerMiddle_of_le hv) fun h => absurd h (lt_irrefl _)

/-- Zero is the nearest magnitude up to half the least positive value. -/
lemma isNearest_zero (hv : 2 * v ≤ value 1) : IsNearest v 0 := by
  refine IsNearest.of_middles (Nat.zero_le _) (fun n hn => absurd hn (Nat.succ_ne_zero n))
    fun _ => ⟨?_, fun _ => Even.zero⟩
  rw [value_zero, zero_add]
  exact hv

/-- What is rounded past the range has infinity for its nearest magnitude. -/
lemma IsNearest.min_infinity (hlower : ReachesLowerMiddle v m) (hupper : KeepsUpperMiddle v m) :
    IsNearest v (min infinity m) := by
  rcases le_or_gt m infinity with hle | hgt
  · rw [min_eq_right hle]
    exact IsNearest.of_middles hle hlower fun _ => hupper
  · rw [min_eq_left hgt.le]
    obtain ⟨n, rfl⟩ : ∃ n, m = n + 1 := ⟨m - 1, by omega⟩
    have hmiddle := (hlower n rfl).1
    have hn : value infinity ≤ value n := value_strictMono.monotone (Nat.le_of_lt_succ hgt)
    have hlt : value n < value (n + 1) := value_strictMono (Nat.lt_succ_self n)
    exact isNearest_infinity (by linarith)

/-! ## Counts of units -/

section Count

-- The value is `t` units of `2 ^ (k - 1074)`, and `s` is the count it is rounded to.
variable {t : ℚ} {k s : ℕ}

lemma even_offset_add (hs : Even s) : Even (k * hiddenBit + s) :=
  Nat.even_add.mpr (iff_of_true (Nat.even_mul.mpr (Or.inr (by decide))) hs)

/-- **A count that is rounded up came from the magnitude below**, also where it is carried: the
floor of the value still counts the smaller units. -/
lemma reachesLowerMiddle_count (hlow : k = 0 ∨ hiddenBit ≤ ⌊t⌋₊) (hhigh : ⌊t⌋₊ < 2 * hiddenBit)
    (hs : s = ⌊t⌋₊ ∨ s = ⌊t⌋₊ + 1) (ht : 0 ≤ t) (hhalf : |t - s| ≤ 1 / 2)
    (heven : |t - s| = 1 / 2 → Even s) :
    ReachesLowerMiddle (t * 2 ^ ((k : ℤ) - 1074)) (k * hiddenBit + s) := by
  have hpos : (0 : ℚ) < 2 ^ ((k : ℤ) - 1074) := zpow_pos two_pos _
  have hvalue := value_offset_add (hlow.imp_right fun h => show hiddenBit ≤ s by omega)
    (show s ≤ 2 * hiddenBit by omega)
  rcases hs with rfl | rfl
  · refine reachesLowerMiddle_of_le ?_
    rw [hvalue]
    exact mul_le_mul_of_nonneg_right (Nat.floor_le ht) hpos.le
  · intro n hn
    obtain rfl : n = k * hiddenBit + ⌊t⌋₊ := by omega
    have hceil := Nat.lt_floor_add_one t
    have hsum : value (k * hiddenBit + ⌊t⌋₊) + value (k * hiddenBit + (⌊t⌋₊ + 1))
        = (2 * ⌊t⌋₊ + 1) * 2 ^ ((k : ℤ) - 1074) := by
      rw [hvalue, value_offset_add hlow hhigh.le]
      push_cast
      ring
    push_cast at hhalf heven
    rw [abs_of_nonpos (by linarith)] at hhalf heven
    rw [hsum, ← mul_assoc]
    refine ⟨mul_le_mul_of_nonneg_right (by linarith) hpos.le, fun h => even_offset_add ?_⟩
    have hmiddle := mul_right_cancel₀ hpos.ne' h
    exact heven (by linarith)

/-- The magnitude above a count is one of its units away at least. -/
lemma keepsUpperMiddle_count (hlow : k = 0 ∨ hiddenBit ≤ s) (hhigh : s ≤ 2 * hiddenBit)
    (hhalf : |t - s| ≤ 1 / 2) (heven : |t - s| = 1 / 2 → Even s) :
    KeepsUpperMiddle (t * 2 ^ ((k : ℤ) - 1074)) (k * hiddenBit + s) := by
  have hpos : (0 : ℚ) < 2 ^ ((k : ℤ) - 1074) := zpow_pos two_pos _
  have hvalue := value_offset_add hlow hhigh
  have hnext := value_succ (k * hiddenBit + s)
  have hstep : (2 : ℚ) ^ ((k : ℤ) - 1074) ≤ 2 ^ unitExponent (k * hiddenBit + s) :=
    zpow_le_zpow_right₀ one_le_two (le_unitExponent_offset_add hlow)
  have hle : 2 * t ≤ 2 * s + 1 := by
    have := (abs_le.mp hhalf).2
    linarith
  have hup : 2 * t * 2 ^ ((k : ℤ) - 1074) ≤ (2 * s + 1) * 2 ^ ((k : ℤ) - 1074) :=
    mul_le_mul_of_nonneg_right hle hpos.le
  refine ⟨by linarith, fun h => even_offset_add (heven ?_)⟩
  have hmiddle : 2 * t * 2 ^ ((k : ℤ) - 1074) = (2 * s + 1) * 2 ^ ((k : ℤ) - 1074) := by linarith
  have htie := mul_right_cancel₀ hpos.ne' hmiddle
  rw [abs_of_nonneg (by linarith)]
  linarith

end Count

end Magnitude

/-! ## Rounding -/

open Magnitude

/-- The count of units that rounding begins with: below `2 ^ 53` in any case, and not below
`2 ^ 52` unless the unit is the finest there is. -/
lemma count_bounds {v : ℚ} (hv : 0 < v) {unit : ℤ}
    (hunit : unit = max (binaryExponent v - 52) (-1074)) :
    v / 2 ^ unit < (2 * hiddenBit : ℕ) ∧ (unit = -1074 ∨ (hiddenBit : ℚ) ≤ v / 2 ^ unit) := by
  have hpos : (0 : ℚ) < 2 ^ unit := zpow_pos two_pos _
  rw [binaryExponent_eq_log hv] at hunit
  constructor
  · rw [div_lt_iff₀ hpos]
    calc v < ((2 : ℕ) : ℚ) ^ (Int.log 2 v + 1) := Int.lt_zpow_succ_log_self one_lt_two v
      _ ≤ 2 ^ (53 + unit) := by
          rw [Nat.cast_ofNat]
          exact zpow_le_zpow_right₀ one_le_two (by omega)
      _ = ((2 * hiddenBit : ℕ) : ℚ) * 2 ^ unit := by
          rw [zpow_add₀ two_ne_zero]
          norm_num [hiddenBit]
  · rcases max_cases (Int.log 2 v - 52) (-1074) with ⟨hmax, -⟩ | ⟨hmax, -⟩
    · right
      rw [le_div_iff₀ hpos]
      calc (hiddenBit : ℚ) * 2 ^ unit = 2 ^ (52 + unit) := by
            rw [zpow_add₀ two_ne_zero]
            norm_num [hiddenBit]
        _ = ((2 : ℕ) : ℚ) ^ Int.log 2 v := by
            rw [Nat.cast_ofNat]
            congr 1
            omega
        _ ≤ v := Int.zpow_log_le_self one_lt_two hv
    · left
      omega

/-- **Rounding gives the nearest magnitude.** -/
theorem isNearest_nearestMagnitude (v : ℚ) : IsNearest v (nearestMagnitude v) := by
  rcases le_or_gt v 0 with hv | hv
  · rw [nearestMagnitude, if_pos hv]
    have := value_nonneg 1
    exact isNearest_zero (by linarith)
  · obtain ⟨unit, hunit⟩ : ∃ unit, unit = max (binaryExponent v - 52) (-1074) := ⟨_, rfl⟩
    obtain ⟨k, hk⟩ : ∃ k : ℕ, (k : ℤ) - 1074 = unit := ⟨(unit + 1074).toNat, by omega⟩
    have hpos : (0 : ℚ) < 2 ^ unit := zpow_pos two_pos _
    have hvt : v / 2 ^ unit * 2 ^ ((k : ℤ) - 1074) = v := by
      rw [hk, div_mul_cancel₀ v hpos.ne']
    have ht : 0 ≤ v / 2 ^ unit := (div_pos hv hpos).le
    obtain ⟨hhigh, hlow⟩ := count_bounds hv hunit
    obtain ⟨s, hs, hfloor, hhalf, heven⟩ := roundHalfEven_of_nonneg ht
    have hhigh' : ⌊v / 2 ^ unit⌋₊ < 2 * hiddenBit := (Nat.floor_lt ht).mpr hhigh
    have hlow' : k = 0 ∨ hiddenBit ≤ ⌊v / 2 ^ unit⌋₊ :=
      hlow.imp (fun h => by omega) (Nat.le_floor ·)
    have hoffset : (unit + 1074).toNat = k := by omega
    have hrounded : nearestMagnitude v = min infinity (k * hiddenBit + s) := by
      simp only [nearestMagnitude, if_neg (not_le.mpr hv), ← hunit, hoffset, hs,
        Int.toNat_natCast]
    have hlower := reachesLowerMiddle_count hlow' hhigh' hfloor ht hhalf heven
    have hupper := keepsUpperMiddle_count (hlow'.imp_right fun h => show hiddenBit ≤ s by omega)
      (by omega) hhalf heven
    rw [hvt] at hlower hupper
    rw [hrounded]
    exact IsNearest.min_infinity hlower hupper

/-- **Rounding is characterised by nearness.** -/
theorem nearestMagnitude_eq_iff {v : ℚ} {m : ℕ} : nearestMagnitude v = m ↔ IsNearest v m := by
  constructor
  · rintro rfl
    exact isNearest_nearestMagnitude v
  · exact (isNearest_nearestMagnitude v).unique

/-- Rounding keeps the order of values. -/
lemma nearestMagnitude_mono : Monotone nearestMagnitude := fun v v' =>
  (isNearest_nearestMagnitude v).le_of_le (isNearest_nearestMagnitude v')

/-- **Rounding the value of a finite magnitude gives the magnitude.** -/
theorem nearestMagnitude_value {m : ℕ} (hm : m < infinity) : nearestMagnitude (value m) = m :=
  nearestMagnitude_eq_iff.mpr (isNearest_value hm)

/-! ## Reading decimals -/

lemma two_zpow_le_ten_zpow {k : ℤ} (hk : 0 ≤ k) : (2 : ℚ) ^ (3 * k) ≤ 10 ^ k := by
  rw [zpow_mul]
  exact zpow_le_zpow_left₀ hk (by norm_num) (by norm_num)

namespace Decimal

/-- A decimal beyond `10 ^ 400` is out of range. -/
lemma isNearest_of_leadingExponent_gt {d : Decimal} (hd : d.coefficient ≠ 0)
    (h : 400 < d.leadingExponent) : IsNearest d.value infinity := by
  rw [leadingExponent_eq_log hd] at h
  refine isNearest_infinity ?_
  calc Magnitude.value infinity = 2 ^ (1024 : ℤ) := value_infinity
    _ ≤ 2 ^ (3 * (401 : ℤ)) := zpow_le_zpow_right₀ one_le_two (by norm_num)
    _ ≤ 10 ^ (401 : ℤ) := two_zpow_le_ten_zpow (by norm_num)
    _ ≤ 10 ^ Int.log 10 d.value := zpow_le_zpow_right₀ (by norm_num) h
    _ ≤ d.value := by exact_mod_cast Int.zpow_log_le_self (b := 10) (by decide) (value_pos hd)

/-- A decimal below `10 ^ -400` is not half of the least positive value. -/
lemma isNearest_of_leadingExponent_lt {d : Decimal} (hd : d.coefficient ≠ 0)
    (h : d.leadingExponent < -400) : IsNearest d.value 0 := by
  rw [leadingExponent_eq_log hd] at h
  refine isNearest_zero ?_
  have hsmall : d.value ≤ 2 ^ (-1075 : ℤ) := by
    calc d.value ≤ 10 ^ (Int.log 10 d.value + 1) := by
          exact_mod_cast (Int.lt_zpow_succ_log_self (b := 10) (by decide) d.value).le
      _ ≤ 10 ^ (-400 : ℤ) := zpow_le_zpow_right₀ (by norm_num) (by omega)
      _ ≤ 2 ^ (-1200 : ℤ) := by
          rw [zpow_neg, zpow_neg]
          exact inv_anti₀ (zpow_pos two_pos _) (two_zpow_le_ten_zpow (k := 400) (by norm_num))
      _ ≤ 2 ^ (-1075 : ℤ) := zpow_le_zpow_right₀ one_le_two (by norm_num)
  calc 2 * d.value ≤ 2 * 2 ^ (-1075 : ℤ) := by gcongr
    _ = Magnitude.value 1 := by
        rw [value_one, ← zpow_one_add₀ two_ne_zero]
        norm_num

/-- **A decimal is read as the magnitude nearest to its value**, also where its order of magnitude
alone settles the result. -/
theorem isNearest_nearestMagnitude (d : Decimal) : IsNearest d.value d.nearestMagnitude := by
  rw [nearestMagnitude]
  split
  · rename_i h
    rw [(value_eq_zero_iff d).mpr h]
    have := value_nonneg 1
    exact isNearest_zero (by linarith)
  · rename_i hd
    split
    · rename_i h
      exact isNearest_of_leadingExponent_gt hd h
    · split
      · rename_i h
        exact isNearest_of_leadingExponent_lt hd h
      · exact SolidOps.isNearest_nearestMagnitude d.value

/-- **A decimal is read by its value.** -/
theorem nearestMagnitude_eq (d : Decimal) :
    d.nearestMagnitude = SolidOps.nearestMagnitude d.value :=
  d.isNearest_nearestMagnitude.unique (SolidOps.isNearest_nearestMagnitude d.value)

/-- Decimals of one value are read as one magnitude. -/
lemma nearestMagnitude_congr {d d' : Decimal} (h : d.value = d'.value) :
    d.nearestMagnitude = d'.nearestMagnitude := by
  rw [nearestMagnitude_eq, nearestMagnitude_eq, h]

end Decimal

end SolidOps
