import Mathlib
import SolidOps.Proofs.Json.Scanning

/-!
# The text of a number

The plain text of a number says which number it is, down to the sign of zero; only the NaNs have
one text in common (`Binary64.chars_eq_iff`).

A finite number is written out as a numeral without an exponent (`Binary64.exists_numeral`).  A
numeral is read from its characters, so equal texts come from one numeral, and the numeral has both
the sign and the magnitude: its decimal is the shortest one, which is read as the magnitude it was
chosen for.  The texts `NaN`, `inf` and `-inf` are no numerals.
-/

namespace SolidOps

open Json.Scanner

/-- Numbers that are one datum, or are both NaN. -/
def Binary64.Alike (x y : Binary64) : Prop := x = y ∨ (x.isNaN = true ∧ y.isNaN = true)

lemma Binary64.Alike.refl (x : Binary64) : x.Alike x := Or.inl rfl

/-! ## Decimals as numerals -/

/-- The numeral a decimal is written out as, with a sign in front. -/
def Decimal.writtenOut (negative : Bool) (d : Decimal) : Numeral :=
  ⟨negative, d.whole, d.fraction, none⟩

namespace Decimal

lemma chars_writtenOut (negative : Bool) (d : Decimal) :
    (d.writtenOut negative).chars = if negative then '-' :: d.chars else d.chars := by
  rw [Numeral.chars_eq]
  cases hfraction : d.fraction with
  | nil =>
      cases negative <;>
        simp [writtenOut, chars, hfraction, Numeral.pointChars, Numeral.scaleChars]
  | cons c cs =>
      cases negative <;>
        simp [writtenOut, chars, hfraction, Numeral.pointChars, Numeral.scaleChars]

lemma chars_zero : (⟨0, 0⟩ : Decimal).chars = ['0'] := by
  simp [chars, fraction, lastDigits, whole, natChars, digits_of_lt, digitChars, Digit.toChar]

lemma value_writtenOut (negative : Bool) (d : Decimal) :
    (d.writtenOut negative).decimal.value = d.value := by
  rw [Numeral.value_decimal, ← value_eq_spelled d]
  simp [writtenOut]

end Decimal

namespace Binary64

/-! ## Finite numbers -/

lemma not_isNaN_of_isFinite {x : Binary64} (hx : x.isFinite = true) : x.isNaN = false := by
  simp only [isFinite, isNaN, decide_eq_true_eq, decide_eq_false_iff_not] at hx ⊢
  omega

lemma not_isInfinite_of_isFinite {x : Binary64} (hx : x.isFinite = true) :
    x.isInfinite = false := by
  simp only [isFinite, isInfinite, decide_eq_true_eq, decide_eq_false_iff_not] at hx ⊢
  omega

lemma isFinite_or (x : Binary64) : x.isFinite = true ∨ x.isInfinite = true ∨ x.isNaN = true := by
  simp only [isFinite, isInfinite, isNaN, decide_eq_true_eq]
  omega

/-- **The text of a finite number is a numeral** of the number's sign that is read as its
magnitude. -/
lemma exists_numeral {x : Binary64} (hx : x.isFinite = true) :
    ∃ n : Numeral, x.chars = n.chars ∧ n.negative = x.isNegative ∧
      n.decimal.nearestMagnitude = x.magnitude := by
  have hfinite : x.magnitude < Magnitude.infinity := of_decide_eq_true hx
  by_cases hzero : x.isZero = true
  · have hmagnitude : x.magnitude = 0 := of_decide_eq_true hzero
    refine ⟨Decimal.writtenOut x.isNegative ⟨0, 0⟩, ?_, rfl, ?_⟩
    · rw [Decimal.chars_writtenOut, Decimal.chars_zero]
      simp [chars, not_isNaN_of_isFinite hx, not_isInfinite_of_isFinite hx, hzero]
    · rw [hmagnitude]
      rfl
  · have hne : x.magnitude ≠ 0 := fun h => hzero (decide_eq_true h)
    refine ⟨Decimal.writtenOut x.isNegative (shortest .away x.magnitude), ?_, rfl, ?_⟩
    · rw [Decimal.chars_writtenOut]
      simp [chars, not_isNaN_of_isFinite hx, not_isInfinite_of_isFinite hx, hzero]
    · rw [Decimal.nearestMagnitude_congr (Decimal.value_writtenOut _ _)]
      exact nearestMagnitude_shortest .away hne hfinite

/-! ## All numbers -/

lemma chars_of_isNaN {x : Binary64} (hx : x.isNaN = true) : x.chars = ['N', 'a', 'N'] := by
  simp [chars, hx]

lemma chars_of_isInfinite {x : Binary64} (hx : x.isInfinite = true) :
    x.chars = if x.isNegative then ['-', 'i', 'n', 'f'] else ['i', 'n', 'f'] := by
  have hnan : x.isNaN = false := by
    simp only [isInfinite, isNaN, decide_eq_true_eq, decide_eq_false_iff_not] at hx ⊢
    omega
  simp [chars, hx, hnan]

/-- Text that is not a numeral is not the text of a finite number. -/
lemma chars_ne_of_isFinite {x : Binary64} (hx : x.isFinite = true) {cs : List Char}
    (hcs : Numeral.ofChars? cs = none) : x.chars ≠ cs := by
  intro h
  obtain ⟨n, hn, -⟩ := exists_numeral hx
  rw [← h, hn, Numeral.ofChars?_chars] at hcs
  cases hcs

lemma chars_inj_of_isFinite {x y : Binary64} (hx : x.isFinite = true) (hy : y.isFinite = true)
    (h : x.chars = y.chars) : x = y := by
  obtain ⟨n, hn, hsign, hread⟩ := exists_numeral hx
  obtain ⟨k, hk, hsign', hread'⟩ := exists_numeral hy
  have hsome : some n = some k := by
    rw [← Numeral.ofChars?_chars n, ← Numeral.ofChars?_chars k, ← hn, ← hk, h]
  obtain rfl : n = k := Option.some.inj hsome
  rw [← ofMagnitude_magnitude x, ← ofMagnitude_magnitude y, ← hsign, ← hsign', ← hread, ← hread']

lemma eq_of_isInfinite {x y : Binary64} (hx : x.isInfinite = true) (hy : y.isInfinite = true)
    (hsign : x.isNegative = y.isNegative) : x = y := by
  have hmx : x.magnitude = Magnitude.infinity := of_decide_eq_true hx
  have hmy : y.magnitude = Magnitude.infinity := of_decide_eq_true hy
  rw [← ofMagnitude_magnitude x, ← ofMagnitude_magnitude y, hsign, hmx, hmy]

lemma ofChars?_chars_of_isInfinite {x : Binary64} (hx : x.isInfinite = true) :
    Numeral.ofChars? x.chars = none := by
  rw [chars_of_isInfinite hx]
  cases x.isNegative <;> rfl

/-- **The text of a number says which number it is**, but for the payload of a NaN. -/
theorem chars_eq_iff {x y : Binary64} : x.chars = y.chars ↔ x.Alike y := by
  constructor
  · intro h
    rcases isFinite_or x with hx | hx | hx
    · rcases isFinite_or y with hy | hy | hy
      · exact Or.inl (chars_inj_of_isFinite hx hy h)
      · exact absurd h (chars_ne_of_isFinite hx (ofChars?_chars_of_isInfinite hy))
      · exact absurd h (chars_ne_of_isFinite hx (by rw [chars_of_isNaN hy]; rfl))
    · rcases isFinite_or y with hy | hy | hy
      · exact absurd h.symm (chars_ne_of_isFinite hy (ofChars?_chars_of_isInfinite hx))
      · refine Or.inl (eq_of_isInfinite hx hy ?_)
        rw [chars_of_isInfinite hx, chars_of_isInfinite hy] at h
        revert h
        cases x.isNegative <;> cases y.isNegative <;> simp
      · rw [chars_of_isInfinite hx, chars_of_isNaN hy] at h
        revert h
        cases x.isNegative <;> simp
    · rcases isFinite_or y with hy | hy | hy
      · exact absurd h.symm (chars_ne_of_isFinite hy (by rw [chars_of_isNaN hx]; rfl))
      · rw [chars_of_isInfinite hy, chars_of_isNaN hx] at h
        revert h
        cases y.isNegative <;> simp
      · exact Or.inr ⟨hx, hy⟩
  · rintro (rfl | ⟨hx, hy⟩)
    · rfl
    · rw [chars_of_isNaN hx, chars_of_isNaN hy]

/-! ## Numbers as words -/

/-- The text of a number is one word. -/
lemma continuesWord_of_mem_chars (x : Binary64) : ∀ c ∈ x.chars, continuesWord c = true := by
  rcases isFinite_or x with hx | hx | hx
  · obtain ⟨n, hn, -⟩ := exists_numeral hx
    rw [hn]
    exact Json.continuesWord_of_mem_chars n
  · rw [chars_of_isInfinite hx]
    cases x.isNegative
    · exact List.all_eq_true.mp rfl
    · exact List.all_eq_true.mp rfl
  · rw [chars_of_isNaN hx]
    exact List.all_eq_true.mp rfl

/-- A word that begins with a letter other than those of `NaN` and `inf` is no number. -/
lemma chars_ne_word (x : Binary64) {cs : List Char} (hcs : Numeral.ofChars? cs = none)
    (hspecial : cs ∉ [['N', 'a', 'N'], ['i', 'n', 'f'], ['-', 'i', 'n', 'f']]) :
    x.chars ≠ cs := by
  rcases isFinite_or x with hx | hx | hx
  · exact chars_ne_of_isFinite hx hcs
  · rintro rfl
    rw [chars_of_isInfinite hx] at hspecial
    revert hspecial
    cases x.isNegative <;> simp
  · rintro rfl
    rw [chars_of_isNaN hx] at hspecial
    simp at hspecial

end Binary64

end SolidOps
