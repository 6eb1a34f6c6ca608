import Mathlib
import SolidOps.Json.Numeral
import SolidOps.Proofs.Numeric.Shortest

/-!
# Numerals, forth and back

A number goes through two translations on its way into JSON text: it becomes a numeral, and the
numeral becomes characters.  Both can be undone.

* `Numeral.ofChars?_chars`: every numeral is read from its characters, with its sign, its digits
  after the point and its exponent as they were.
* `Numeral.toBinary64?_ofBinary64`: the numeral of a finite number stands for this number, down to
  the sign of zero.
* `Numeral.toInt?_ofInt`: the numeral of an integer stands for this integer.

For binary64 numbers the two layouts of `ofDecimal` only move the point about, and so keep the
value; the reader depends on nothing else, as long as it tells all digits apart.
-/

namespace SolidOps

namespace Numeral

/-! ## Digits within a text -/

/-- Where digits end: at the end of the text, or at a character that is no digit. -/
def EndsDigits (rest : List Char) : Prop := ∀ c ∈ rest.head?, Digit.ofChar? c = none

lemma splitDigits_append (ds : List Digit) {rest : List Char} (hrest : EndsDigits rest) :
    splitDigits (digitChars ds ++ rest) = (ds, rest) := by
  induction ds with
  | nil =>
      cases rest with
      | nil => rfl
      | cons c cs =>
          have hc : Digit.ofChar? c = none := hrest c rfl
          show splitDigits (c :: cs) = ([], c :: cs)
          simp only [splitDigits, hc]
  | cons d ds ih =>
      show splitDigits (d.toChar :: (digitChars ds ++ rest)) = (d :: ds, rest)
      simp only [splitDigits, Digit.ofChar?_toChar, ih]

lemma readWhole?_natChars (n : ℕ) {rest : List Char} (hrest : EndsDigits rest) :
    readWhole? (natChars n ++ rest) = some (n, rest) := by
  have hsplit := splitDigits_append (digits n) hrest
  have hspell := ofDigits_digits n
  cases hn : digits n with
  | nil => exact absurd hn (digits_ne_nil n)
  | cons d ds =>
      have hform : ¬(d = 0 ∧ ds ≠ []) := by
        rintro ⟨rfl, hds⟩
        exact hds (digits_no_leading_zero hn)
      rw [hn] at hsplit hspell
      rw [readWhole?, natChars, hn, hsplit]
      simp only [if_neg hform, hspell]

lemma readScale?_natChars (negative : Bool) (n : ℕ) :
    readScale? negative (natChars n) = some (if negative then -(n : ℤ) else n) := by
  have hend : EndsDigits [] := by simp [EndsDigits]
  have hsplit := splitDigits_append (digits n) hend
  have hspell := ofDigits_digits n
  cases hn : digits n with
  | nil => exact absurd hn (digits_ne_nil n)
  | cons d ds =>
      rw [hn, List.append_nil] at hsplit
      rw [hn] at hspell
      rw [readScale?, natChars, hn, hsplit]
      simp only [hspell]

/-! ## Parts of the written form -/

/-- The point and the digits after it, if there are any. -/
def pointChars (fraction : List Digit) : List Char :=
  if fraction = [] then [] else '.' :: digitChars fraction

/-- The written exponent, if there is one. -/
def scaleChars : Option ℤ → List Char
  | none => []
  | some e => 'e' :: (if e < 0 then '-' else '+') :: natChars e.natAbs

lemma chars_eq (n : Numeral) :
    n.chars = (if n.negative then ['-'] else []) ++
      (natChars n.whole ++ (pointChars n.fraction ++ scaleChars n.exponent)) := by
  rcases n with ⟨negative, whole, fraction, exponent⟩
  cases exponent <;> rfl

lemma endsDigits_scaleChars (exponent : Option ℤ) : EndsDigits (scaleChars exponent) := by
  cases exponent with
  | none => simp [EndsDigits, scaleChars]
  | some e =>
      intro c hc
      obtain rfl : 'e' = c := by simpa [scaleChars] using hc
      decide

lemma endsDigits_pointChars (fraction : List Digit) (exponent : Option ℤ) :
    EndsDigits (pointChars fraction ++ scaleChars exponent) := by
  by_cases h : fraction = []
  · rw [pointChars, if_pos h]
    exact endsDigits_scaleChars exponent
  · intro c hc
    obtain rfl : '.' = c := by simpa [pointChars, h] using hc
    decide

lemma readFraction?_pointChars (fraction : List Digit) (exponent : Option ℤ) :
    readFraction? (pointChars fraction ++ scaleChars exponent)
      = some (fraction, scaleChars exponent) := by
  cases fraction with
  | nil =>
      cases exponent with
      | none => rfl
      | some e => rfl
  | cons d ds =>
      have hsplit := splitDigits_append (d :: ds) (endsDigits_scaleChars exponent)
      show readFraction? ('.' :: (digitChars (d :: ds) ++ scaleChars exponent)) = _
      rw [readFraction?, hsplit]

lemma readExponent?_scaleChars (exponent : Option ℤ) :
    readExponent? (scaleChars exponent) = some exponent := by
  cases exponent with
  | none => rfl
  | some e =>
      by_cases he : e < 0
      · have hread := readScale?_natChars true e.natAbs
        have hsize : -(e.natAbs : ℤ) = e := by omega
        simp only [scaleChars, if_pos he, readExponent?, true_or, if_true, hread, hsize,
          Option.map_some]
      · have hread := readScale?_natChars false e.natAbs
        have hsize : (e.natAbs : ℤ) = e := by omega
        simp only [scaleChars, if_neg he, readExponent?, true_or, if_true, hread, hsize,
          Option.map_some, Bool.false_eq_true, if_false]

lemma readUnsigned?_chars (negative : Bool) (n : Numeral) :
    readUnsigned? negative
        (natChars n.whole ++ (pointChars n.fraction ++ scaleChars n.exponent))
      = some ⟨negative, n.whole, n.fraction, n.exponent⟩ := by
  rw [readUnsigned?, readWhole?_natChars n.whole (endsDigits_pointChars n.fraction n.exponent)]
  simp only [Option.bind_eq_bind, Option.bind_some, readFraction?_pointChars,
    readExponent?_scaleChars]

lemma natChars_eq_cons (n : ℕ) : ∃ (d : Digit) (cs : List Char), natChars n = d.toChar :: cs := by
  cases hn : digits n with
  | nil => exact absurd hn (digits_ne_nil n)
  | cons d ds =>
      refine ⟨d, digitChars ds, ?_⟩
      rw [natChars, hn]
      rfl

lemma ofChars?_of_ne {c : Char} (hc : c ≠ '-') (cs : List Char) :
    ofChars? (c :: cs) = readUnsigned? false (c :: cs) := by
  rw [ofChars?]
  rintro cs' h
  exact hc (List.cons.inj h).1

/-- **Every numeral is read from its characters.** -/
theorem ofChars?_chars (n : Numeral) : ofChars? n.chars = some n := by
  have hread := readUnsigned?_chars n.negative n
  rw [chars_eq]
  cases hsign : n.negative with
  | true =>
      rw [hsign] at hread
      simp only [if_true, List.cons_append, List.nil_append, ofChars?, hread]
      rw [← hsign]
  | false =>
      obtain ⟨d, cs, hd⟩ := natChars_eq_cons n.whole
      have hdigit : d.toChar ≠ '-' := by
        clear hd
        revert d
        decide
      rw [hsign] at hread
      rw [hd, List.cons_append] at hread ⊢
      simp only [Bool.false_eq_true, if_false, List.nil_append, ofChars?_of_ne hdigit, hread]
      rw [← hsign]

/-! ## Zeros at the end of a fraction -/

lemma dropFinalZeros_cons_of_nil {d : Digit} {ds : List Digit} (h : dropFinalZeros ds = []) :
    dropFinalZeros (d :: ds) = if d = 0 then [] else [d] := by
  simp only [dropFinalZeros, h]

lemma dropFinalZeros_cons_of_ne_nil {d : Digit} {ds : List Digit} (h : dropFinalZeros ds ≠ []) :
    dropFinalZeros (d :: ds) = d :: dropFinalZeros ds := by
  cases hds : dropFinalZeros ds with
  | nil => exact absurd hds h
  | cons c cs => simp only [dropFinalZeros, hds]

/-- Zeros at the end of a fraction only shift what stands before them. -/
lemma extendDigits_dropFinalZeros (n : ℕ) (ds : List Digit) :
    ∃ zeros : ℕ, ds.length = (dropFinalZeros ds).length + zeros ∧
      extendDigits n ds = extendDigits n (dropFinalZeros ds) * 10 ^ zeros := by
  induction ds generalizing n with
  | nil => exact ⟨0, rfl, (mul_one _).symm⟩
  | cons d ds ih =>
      obtain ⟨zeros, hlen, hspell⟩ := ih (10 * n + d.val)
      by_cases h : dropFinalZeros ds = []
      · rw [dropFinalZeros_cons_of_nil h]
        rw [h] at hlen hspell
        by_cases hd : d = 0
        · refine ⟨zeros + 1, ?_, ?_⟩
          · simp only [if_pos hd, List.length_cons, hlen, List.length_nil]
            omega
          · simp only [if_pos hd, extendDigits_cons, hspell, extendDigits_nil]
            rw [hd, pow_succ']
            show (10 * n + 0) * 10 ^ zeros = n * (10 * 10 ^ zeros)
            ring
        · refine ⟨zeros, ?_, ?_⟩
          · simp only [if_neg hd, List.length_cons, hlen, List.length_nil]
            omega
          · simp only [if_neg hd, extendDigits_cons, hspell, extendDigits_nil]
      · rw [dropFinalZeros_cons_of_ne_nil h]
        refine ⟨zeros, ?_, ?_⟩
        · simp only [List.length_cons, hlen]
          omega
        · simp only [extendDigits_cons, hspell]

lemma extendDigits_dropFinalZeros_le (n : ℕ) (ds : List Digit) :
    extendDigits n (dropFinalZeros ds) ≤ extendDigits n ds := by
  obtain ⟨zeros, -, hspell⟩ := extendDigits_dropFinalZeros n ds
  rw [hspell]
  exact Nat.le_mul_of_pos_right _ (Nat.pow_pos (by decide))

/-- **The value of a numeral is what all its digits spell**, zeros at the end included. -/
lemma value_decimal (n : Numeral) :
    n.decimal.value
      = (extendDigits n.whole n.fraction : ℚ)
        * 10 ^ (n.exponent.getD 0 - (n.fraction.length : ℤ)) := by
  obtain ⟨zeros, hlen, hspell⟩ := extendDigits_dropFinalZeros n.whole n.fraction
  have hexp : n.exponent.getD 0 - ((dropFinalZeros n.fraction).length : ℤ)
      = (zeros : ℤ) + (n.exponent.getD 0 - (n.fraction.length : ℤ)) := by
    rw [hlen]
    push_cast
    ring
  simp only [Decimal.value, decimal]
  rw [hspell, hexp, zpow_add₀ (by norm_num), zpow_natCast]
  push_cast
  ring

end Numeral

/-! ## Layouts of a decimal -/

namespace Decimal

/-- The two parts of the positional notation spell the coefficient, with as many zeros behind it as
a positive exponent says. -/
lemma extendDigits_whole_fraction (d : Decimal) :
    extendDigits d.whole d.fraction = d.coefficient * 10 ^ d.exponent.toNat := by
  rw [whole, fraction, extendDigits_lastDigits]
  by_cases h : 0 ≤ d.exponent
  · have hnone : (-d.exponent).toNat = 0 := by omega
    rw [if_pos h, hnone, pow_zero, Nat.mod_one]
    simp
  · have hnone : d.exponent.toNat = 0 := by omega
    rw [if_neg h, hnone, pow_zero, mul_one]
    exact Nat.div_add_mod' _ _

lemma length_fraction (d : Decimal) : d.fraction.length = (-d.exponent).toNat :=
  length_lastDigits _ _

/-- Digits that count from the place after the point have the value of the decimal. -/
lemma value_eq_spelled (d : Decimal) :
    (extendDigits d.whole d.fraction : ℚ) * 10 ^ (-(d.fraction.length : ℤ)) = d.value := by
  rw [extendDigits_whole_fraction, length_fraction, value]
  push_cast
  rw [← zpow_natCast, mul_assoc, ← zpow_add₀ (by norm_num)]
  congr 2
  omega

lemma abridge_of_lt {k : ℕ} (hk : 0 < k) {d : Decimal} (hd : d.coefficient < 10 ^ k) :
    d.abridge k = d := by
  have hlen : (digits d.coefficient).length ≤ k := (length_digits_le_iff hk).mpr hd
  simp only [abridge, Nat.sub_eq_zero_of_le hlen, if_true]

end Decimal

namespace Numeral

/-- A fraction of a single zero, which a whole number is written with, says nothing. -/
lemma dropFinalZeros_padded (fraction : List Digit) :
    dropFinalZeros (if fraction = [] then [0] else fraction) = dropFinalZeros fraction := by
  by_cases h : fraction = []
  · rw [if_pos h, h]
    rfl
  · rw [if_neg h]

/-- **Both layouts keep the value.** -/
theorem value_decimal_ofDecimal (negative : Bool) (d : Decimal) :
    (ofDecimal negative d).decimal.value = d.value := by
  simp only [ofDecimal]
  split
  · have hpadded : (⟨negative, d.whole, if d.fraction = [] then [0] else d.fraction,
        none⟩ : Numeral).decimal = (⟨negative, d.whole, d.fraction, none⟩ : Numeral).decimal := by
      simp only [decimal, dropFinalZeros_padded]
    rw [hpadded, value_decimal, ← Decimal.value_eq_spelled d]
    simp only [Option.getD_none, zero_sub]
  · set scaled : Decimal := ⟨d.coefficient, d.exponent - d.leadingExponent⟩ with hscaled
    have hshift : scaled.value * 10 ^ d.leadingExponent = d.value := by
      rw [hscaled, Decimal.value, Decimal.value, mul_assoc, ← zpow_add₀ (by norm_num),
        sub_add_cancel]
    rw [value_decimal, ← hshift, ← Decimal.value_eq_spelled scaled]
    simp only [Option.getD_some]
    rw [mul_assoc, ← zpow_add₀ (by norm_num)]
    congr 2
    ring

/-- Neither layout needs more digits than are told apart: zeros are written out only before the
point, and only up to the sixteenth place. -/
lemma coefficient_decimal_ofDecimal_lt (negative : Bool) {d : Decimal}
    (hd : d.coefficient < 10 ^ significantDigits) :
    (ofDecimal negative d).decimal.coefficient < 10 ^ significantDigits := by
  have hpos := length_digits_pos d.coefficient
  simp only [ofDecimal]
  split
  · rename_i hlayout
    simp only [decimal, dropFinalZeros_padded]
    refine (extendDigits_dropFinalZeros_le d.whole d.fraction).trans_lt ?_
    rw [Decimal.extendDigits_whole_fraction]
    by_cases h : 0 < d.exponent
    · have hplaces : (digits d.coefficient).length + d.exponent.toNat ≤ significantDigits := by
        have := hlayout.2
        rw [Decimal.leadingExponent, greatestWrittenOut] at this
        rw [significantDigits]
        omega
      calc d.coefficient * 10 ^ d.exponent.toNat
          < 10 ^ (digits d.coefficient).length * 10 ^ d.exponent.toNat :=
            Nat.mul_lt_mul_of_pos_right (lt_pow_length_digits _) (Nat.pow_pos (by decide))
        _ = 10 ^ ((digits d.coefficient).length + d.exponent.toNat) := (pow_add _ _ _).symm
        _ ≤ 10 ^ significantDigits := Nat.pow_le_pow_right (by decide) hplaces
    · have hnone : d.exponent.toNat = 0 := by omega
      rw [hnone, pow_zero, mul_one]
      exact hd
  · simp only [decimal]
    refine (extendDigits_dropFinalZeros_le _ _).trans_lt ?_
    rw [Decimal.extendDigits_whole_fraction]
    have hnone : (d.exponent - d.leadingExponent).toNat = 0 := by
      rw [Decimal.leadingExponent]
      omega
    rw [hnone, pow_zero, mul_one]
    exact hd

/-! ## Numbers -/

lemma negative_ofDecimal (negative : Bool) (d : Decimal) :
    (ofDecimal negative d).negative = negative := by
  simp only [ofDecimal]
  split <;> rfl

/-- A numeral is read as the number of its sign and of the magnitude that its decimal is read as,
when all its digits are told apart. -/
lemma toBinary64?_eq_some {n : Numeral} {m : ℕ}
    (hfew : n.decimal.coefficient < 10 ^ significantDigits)
    (hread : n.decimal.nearestMagnitude = m) (hm : m < Magnitude.infinity) :
    n.toBinary64? = some (Binary64.ofMagnitude n.negative m) := by
  simp only [toBinary64?, Decimal.abridge_of_lt (by decide : 0 < significantDigits) hfew, hread,
    if_pos hm]

/-- **The numeral of a finite number stands for this number**, and has its sign also when it is
zero. -/
theorem toBinary64?_ofBinary64 {x : Binary64} (hx : x.isFinite) :
    (ofBinary64 x).toBinary64? = some x := by
  have hfinite : x.magnitude < Magnitude.infinity := of_decide_eq_true hx
  rw [ofBinary64]
  by_cases hzero : x.isZero
  · have hmagnitude : x.magnitude = 0 := of_decide_eq_true hzero
    have hword := Binary64.ofMagnitude_magnitude x
    rw [hmagnitude] at hword
    have hfew : (⟨x.isNegative, 0, [0], none⟩ : Numeral).decimal.coefficient
        < 10 ^ significantDigits := Nat.pow_pos (by decide)
    have hread : (⟨x.isNegative, 0, [0], none⟩ : Numeral).decimal.nearestMagnitude = 0 := rfl
    rw [if_pos hzero, toBinary64?_eq_some hfew hread (by decide)]
    exact congrArg some hword
  · have hne : x.magnitude ≠ 0 := fun h => hzero (decide_eq_true h)
    have hfew := coefficient_decimal_ofDecimal_lt x.isNegative
      ((coefficient_shortest_lt .even hne hfinite).trans_le
        (Nat.pow_le_pow_right (by decide) (by decide)))
    have hread : (ofDecimal x.isNegative (shortest .even x.magnitude)).decimal.nearestMagnitude
        = x.magnitude := by
      rw [Decimal.nearestMagnitude_congr (value_decimal_ofDecimal _ _)]
      exact nearestMagnitude_shortest .even hne hfinite
    rw [if_neg hzero, toBinary64?_eq_some hfew hread hfinite, negative_ofDecimal,
      Binary64.ofMagnitude_magnitude]

/-- **The numeral of an integer stands for this integer.** -/
theorem toInt?_ofInt (i : ℤ) : (ofInt i).toInt? = some i := by
  by_cases hi : i < 0
  · have hne : i ≠ 0 := by omega
    have hsize : -|i| = i := by rw [abs_of_neg hi, neg_neg]
    simp [toInt?, ofInt, hi, hne, hsize]
  · have hsize : |i| = i := abs_of_nonneg (not_lt.mp hi)
    simp [toInt?, ofInt, hi, hsize]

end Numeral

end SolidOps
