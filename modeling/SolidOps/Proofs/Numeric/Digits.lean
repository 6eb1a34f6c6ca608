import Mathlib
import SolidOps.Numeric.Decimal

/-!
# Decimal digits, forth and back

`digits` divides by ten from the end of a number, `ofDigits` multiplies by ten from the front of
its digits.  What the readers and writers of numbers need of the two:

* `ofDigits_digits`: the digits of a number spell the number;
* `digits_no_leading_zero`: only zero itself begins with a zero;
* `length_digits_le_iff`: a number has at most `k` digits exactly when it is below `10 ^ k`;
* `extendDigits_lastDigits`: a number before its last digits spells both, which is how a decimal
  point is put into a coefficient.
-/

namespace SolidOps

lemma Digit.ofChar?_toChar (d : Digit) : Digit.ofChar? d.toChar = some d := by
  revert d
  decide

/-! ## Spelling -/

@[simp] lemma extendDigits_nil (n : Nat) : extendDigits n [] = n := rfl

@[simp] lemma extendDigits_cons (n : Nat) (d : Digit) (ds : List Digit) :
    extendDigits n (d :: ds) = extendDigits (10 * n + d.val) ds := rfl

lemma extendDigits_append (n : Nat) (xs ys : List Digit) :
    extendDigits n (xs ++ ys) = extendDigits (extendDigits n xs) ys := by
  simp only [extendDigits, List.foldl_append]

lemma extendDigits_concat (n : Nat) (ds : List Digit) (d : Digit) :
    extendDigits n (ds ++ [d]) = 10 * extendDigits n ds + d.val := by
  rw [extendDigits_append]
  rfl

/-- **The digits of a number spell the number.** -/
theorem ofDigits_digits (n : Nat) : ofDigits (digits n) = n := by
  induction n using Nat.strongRecOn with
  | ind n ih =>
      by_cases h : n < 10
      · rw [digits_of_lt h]
        simp [ofDigits]
      · have htenth : ofDigits (digits (n / 10)) = n / 10 := ih (n / 10) (by omega)
        rw [digits_of_ge (by omega)]
        simp only [ofDigits] at htenth ⊢
        rw [extendDigits_concat, htenth]
        show 10 * (n / 10) + n % 10 = n
        omega

/-! ## Form -/

lemma digits_ne_nil (n : Nat) : digits n ≠ [] := by
  by_cases h : n < 10
  · rw [digits_of_lt h]
    simp
  · rw [digits_of_ge (by omega)]
    simp

lemma length_digits_pos (n : Nat) : 0 < (digits n).length :=
  List.length_pos_iff.mpr (digits_ne_nil n)

/-- **No leading zero.**  The only number whose digits begin with a zero has no other digit. -/
theorem digits_no_leading_zero {n : Nat} {ds : List Digit} (h : digits n = 0 :: ds) : ds = [] := by
  induction n using Nat.strongRecOn generalizing ds with
  | ind n ih =>
      by_cases hn : n < 10
      · rw [digits_of_lt hn] at h
        simp only [List.cons.injEq] at h
        exact h.2.symm
      · rw [digits_of_ge (by omega)] at h
        -- The tenth would begin with the same zero, so it would be zero.
        exfalso
        rcases List.append_eq_cons_iff.mp h with ⟨hnil, -⟩ | ⟨ds', htenth, -⟩
        · exact digits_ne_nil (n / 10) hnil
        · have hone : ds' = [] := ih (n / 10) (by omega) htenth
          have hzero : ofDigits (digits (n / 10)) = 0 := by rw [htenth, hone]; rfl
          rw [ofDigits_digits] at hzero
          omega

/-! ## Length -/

/-- A number is below the power of ten that its digits are many. -/
lemma lt_pow_length_digits (n : Nat) : n < 10 ^ (digits n).length := by
  induction n using Nat.strongRecOn with
  | ind n ih =>
      by_cases h : n < 10
      · rw [digits_of_lt h]
        simpa using h
      · have htenth : n / 10 < 10 ^ (digits (n / 10)).length := ih (n / 10) (by omega)
        rw [digits_of_ge (by omega), List.length_append, List.length_singleton, pow_succ]
        omega

/-- Below its length in digits, no power of ten exceeds a positive number. -/
lemma pow_pred_length_digits_le {n : Nat} (hpos : 0 < n) : 10 ^ ((digits n).length - 1) ≤ n := by
  induction n using Nat.strongRecOn with
  | ind n ih =>
      by_cases h : n < 10
      · rw [digits_of_lt h]
        exact hpos
      · have htenth := ih (n / 10) (by omega) (by omega)
        have hlen := length_digits_pos (n / 10)
        rw [digits_of_ge (by omega), List.length_append, List.length_singleton, Nat.add_sub_cancel]
        obtain ⟨k, hk⟩ := Nat.exists_eq_succ_of_ne_zero hlen.ne'
        rw [hk] at htenth ⊢
        rw [Nat.succ_sub_one] at htenth
        rw [pow_succ]
        omega

lemma length_digits_le_iff {n k : Nat} (hk : 0 < k) : (digits n).length ≤ k ↔ n < 10 ^ k := by
  constructor
  · intro h
    exact (lt_pow_length_digits n).trans_le (Nat.pow_le_pow_right (by decide) h)
  · intro h
    by_contra hlong
    rcases Nat.eq_zero_or_pos n with rfl | hpos
    · rw [digits_of_lt (by decide)] at hlong
      exact hlong hk
    · have hpow : 10 ^ k ≤ 10 ^ ((digits n).length - 1) :=
        Nat.pow_le_pow_right (by decide) (by omega)
      exact absurd (hpow.trans (pow_pred_length_digits_le hpos)) (by omega)

/-! ## Last digits -/

@[simp] lemma length_lastDigits (k m : Nat) : (lastDigits k m).length = k := by
  induction k generalizing m with
  | zero => rfl
  | succ k ih => simp [lastDigits, ih]

/-- A number in front of the last `k` digits of another one. -/
lemma extendDigits_lastDigits (n k m : Nat) :
    extendDigits n (lastDigits k m) = n * 10 ^ k + m % 10 ^ k := by
  induction k generalizing m with
  | zero => simp [lastDigits, Nat.mod_one]
  | succ k ih =>
      rw [lastDigits, extendDigits_concat, ih (m / 10)]
      have hsplit : m % 10 ^ (k + 1) = m % 10 + 10 * (m / 10 % 10 ^ k) := by
        rw [pow_succ', Nat.mod_mul]
      rw [hsplit, pow_succ']
      ring

end SolidOps
