import SolidOps.Proofs.Interchange
import SolidOps.Proofs.Numeric.Truncation

/-!
# Equality of values

The language compares values by structure and numbers as numbers.  A NaN equals nothing, itself
included, and the two zeros are equal although they are different words.  So equality is neither
reflexive nor identity.  What is left of an equivalence, and what equal values share, is here.

* `Binary64.equals_comm`, `Binary64.equals_trans` and `Binary64.equals_self_iff` settle numbers.
  `Binary64.congr_of_equals` says what equal numbers have in common: of two that differ both are
  zeros, so that only two words have to be looked at.
* `Value.Equal` takes the equality of values apart: it never relates values of different types.
* `Value.equals_comm`, `Value.equals_trans` and `Value.equals_self_iff` carry the laws of numbers to
  any depth.  They are recursions on the first value, each with a companion for the items of a
  vector, where lists of different lengths have to be ruled out again.

**`Value.equals_partial_equivalence`**: equality is symmetric and transitive, and a value equals
itself exactly when no NaN is in it.
-/

namespace SolidOps

/-! ## Equal numbers -/

namespace Binary64

variable {x y z : Binary64}

lemma equals_iff : x.equals y = true ↔
    x.isNaN = false ∧ y.isNaN = false ∧ (x = y ∨ x.isZero = true ∧ y.isZero = true) := by
  simp [equals, and_assoc]

lemma equals_comm (x y : Binary64) : x.equals y = y.equals x := by
  rw [Bool.eq_iff_iff, equals_iff, equals_iff, eq_comm (a := x), and_comm (a := x.isZero = true)]
  exact and_left_comm

lemma equals_trans (h : x.equals y = true) (h' : y.equals z = true) : x.equals z = true := by
  rw [equals_iff] at h h' ⊢
  obtain ⟨hx, -, hxy⟩ := h
  obtain ⟨-, hz, hyz⟩ := h'
  refine ⟨hx, hz, ?_⟩
  rcases hxy with rfl | ⟨hx, hy⟩
  · exact hyz
  · rcases hyz with rfl | ⟨-, hz⟩
    · exact .inr ⟨hx, hy⟩
    · exact .inr ⟨hx, hz⟩

lemma equals_self_iff : x.equals x = true ↔ x.isNaN = false := by
  simp [equals_iff]

lemma eq_ofMagnitude_of_isZero (h : x.isZero = true) : x = ofMagnitude x.isNegative 0 := by
  have hmag : x.magnitude = 0 := of_decide_eq_true h
  rw [← hmag, ofMagnitude_magnitude]

/-- **What does not tell the zeros apart is the same for equal numbers.** -/
lemma congr_of_equals {α : Type} (f : Binary64 → α)
    (hzeros : f (ofMagnitude true 0) = f (ofMagnitude false 0)) (h : x.equals y = true) :
    f x = f y := by
  obtain ⟨-, -, rfl | ⟨hx, hy⟩⟩ := equals_iff.mp h
  · rfl
  · rw [eq_ofMagnitude_of_isZero hx, eq_ofMagnitude_of_isZero hy]
    cases x.isNegative <;> cases y.isNegative <;>
      first | rfl | exact hzeros | exact hzeros.symm

end Binary64

/-! ## Equal values -/

namespace Value

/-- Equal values, type by type. -/
inductive Equal : Value → Value → Prop
  | undefined : Equal .undefined .undefined
  | boolean (b : Bool) : Equal (.boolean b) (.boolean b)
  | number {x y : Binary64} (h : x.equals y = true) : Equal (.number x) (.number y)
  | string (s : String) : Equal (.string s) (.string s)
  | vector {xs ys : List Value} (h : List.Forall₂ (fun v w => v.equals w = true) xs ys) :
      Equal (.vector xs) (.vector ys)
  | range (a b c a' b' c' : Binary64) : Equal (.range a b c) (.range a' b' c')

lemma forall₂_of_equalItems {xs ys : List Value} (h : equalItems xs ys = true) :
    List.Forall₂ (fun v w => v.equals w = true) xs ys := by
  induction xs generalizing ys with
  | nil =>
      cases ys with
      | nil => exact .nil
      | cons y ys => simp [equalItems] at h
  | cons x xs ih =>
      cases ys with
      | nil => simp [equalItems] at h
      | cons y ys =>
          rw [equalItems, Bool.and_eq_true] at h
          exact .cons h.1 (ih h.2)

/-- **Equal values have the same type**, and in it they are equal or, for booleans and strings, the
same. -/
lemma equal_of_equals {v w : Value} (h : v.equals w = true) : v.Equal w := by
  cases v <;> cases w <;> simp only [equals, Bool.false_eq_true, beq_iff_eq] at h
  · exact .undefined
  · exact h ▸ .boolean _
  · exact .number h
  · exact h ▸ .string _
  · exact .vector (forall₂_of_equalItems h)
  · exact .range _ _ _ _ _ _

/-! ## What equal values share -/

section Readings

variable {v w : Value}

lemma Equal.typeName_eq (h : v.Equal w) : v.typeName = w.typeName := by
  cases h <;> rfl

lemma Equal.toNumber_equals (h : v.Equal w) : v.toNumber.equals w.toNumber = true := by
  cases h with
  | number h => exact h
  | _ => rfl

lemma Equal.toBool_eq (h : v.Equal w) : v.toBool = w.toBool := by
  cases h with
  | number h => exact Binary64.congr_of_equals (fun x => toBool (.number x)) rfl h
  | vector h => cases h <;> rfl
  | _ => rfl

end Readings

/-! ## The laws -/

mutual

lemma equals_comm : ∀ v w : Value, v.equals w = w.equals v
  | .undefined, w => by cases w <;> rfl
  | .boolean a, w => by
      cases w with
      | boolean b => exact Bool.beq_comm
      | _ => rfl
  | .number x, w => by
      cases w with
      | number y => exact x.equals_comm y
      | _ => rfl
  | .string s, w => by
      cases w with
      | string t => exact Bool.beq_comm
      | _ => rfl
  | .vector xs, w => by
      cases w with
      | vector ys => exact equalItems_comm xs ys
      | _ => rfl
  | .range a b c, w => by
      cases w with
      | range a' b' c' =>
          rw [equals, equals, a.equals_comm, b.equals_comm, c.equals_comm]
      | _ => rfl

lemma equalItems_comm : ∀ xs ys : List Value, equalItems xs ys = equalItems ys xs
  | [], ys => by cases ys <;> rfl
  | x :: xs, [] => rfl
  | x :: xs, y :: ys => by
      rw [equalItems, equalItems, equals_comm x y, equalItems_comm xs ys]

end

mutual

lemma equals_trans : ∀ {u v w : Value}, u.equals v = true → v.equals w = true → u.equals w = true
  | .undefined, _, _, h, h' => by
      cases equal_of_equals h
      exact h'
  | .boolean a, _, _, h, h' => by
      cases equal_of_equals h
      exact h'
  | .number x, _, _, h, h' => by
      cases equal_of_equals h
      cases equal_of_equals h'
      exact Binary64.equals_trans h h'
  | .string s, _, _, h, h' => by
      cases equal_of_equals h
      exact h'
  | .vector xs, _, _, h, h' => by
      cases equal_of_equals h
      cases equal_of_equals h'
      exact equalItems_trans h h'
  | .range a b c, _, _, h, h' => by
      cases equal_of_equals h
      cases equal_of_equals h'
      simp only [equals, Bool.and_eq_true] at h h' ⊢
      exact ⟨⟨Binary64.equals_trans h.1.1 h'.1.1, Binary64.equals_trans h.1.2 h'.1.2⟩,
        Binary64.equals_trans h.2 h'.2⟩

lemma equalItems_trans : ∀ {xs ys zs : List Value},
    equalItems xs ys = true → equalItems ys zs = true → equalItems xs zs = true
  | [], _, _, h, h' => by
      cases forall₂_of_equalItems h
      exact h'
  | x :: xs, _, _, h, h' => by
      cases forall₂_of_equalItems h
      cases forall₂_of_equalItems h'
      rw [equalItems, Bool.and_eq_true] at h h' ⊢
      exact ⟨equals_trans h.1 h'.1, equalItems_trans h.2 h'.2⟩

end

mutual

/-- **A value equals itself when no number in it is a NaN**, and otherwise it does not. -/
lemma equals_self_iff : ∀ v : Value, v.equals v = true ↔ ∀ x ∈ v.numbers, x.isNaN = false
  | .undefined => by simp [equals, numbers]
  | .boolean b => by simp [equals, numbers]
  | .number x => by simp [equals, numbers, Binary64.equals_self_iff]
  | .string s => by simp [equals, numbers]
  | .vector items => by rw [equals, numbers, equalItems_self_iff items]
  | .range a b c => by simp [equals, numbers, Binary64.equals_self_iff, and_assoc]

lemma equalItems_self_iff : ∀ items : List Value,
    equalItems items items = true ↔ ∀ x ∈ numbersOfItems items, x.isNaN = false
  | [] => by simp [equalItems, numbersOfItems]
  | item :: items => by
      rw [equalItems, Bool.and_eq_true, equals_self_iff item, equalItems_self_iff items,
        numbersOfItems, List.forall_mem_append]

end

/-- **Equality of values is a partial equivalence.**

It does not matter which of two values is compared with the other, and two values that equal a third
are equal.  A value equals itself if and only if there is no NaN among its numbers, be they items at
any depth or the bounds and the step of a range.  Equal values have the same type and the same
truth, and their numbers are equal as numbers. -/
theorem equals_partial_equivalence :
    (∀ v w : Value, v.equals w = w.equals v) ∧
    (∀ u v w : Value, u.equals v = true → v.equals w = true → u.equals w = true) ∧
    (∀ v : Value, v.equals v = true ↔ ∀ x ∈ v.numbers, x.isNaN = false) ∧
    ∀ v w : Value, v.equals w = true →
      v.typeName = w.typeName ∧ v.toBool = w.toBool ∧ v.toNumber.equals w.toNumber = true := by
  refine ⟨equals_comm, fun u v w => equals_trans, equals_self_iff, fun v w h => ?_⟩
  have hequal := equal_of_equals h
  exact ⟨hequal.typeName_eq, hequal.toBool_eq, hequal.toNumber_equals⟩

/-- Three vectors that differ in the signs of zeros, one of them inside a range, of which the first
and the last are equal because both equal the one between; and a range with a NaN for its step,
inside a vector, which does not equal itself. -/
theorem equals_partial_equivalence_of_zeros :
    (vector [.number ⟨0⟩, .vector [.range ⟨0x8000000000000000⟩ ⟨0⟩ ⟨0⟩]]).equals
        (vector [.number ⟨0x8000000000000000⟩, .vector [.range ⟨0⟩ ⟨0⟩ ⟨0x8000000000000000⟩]]) =
          true ∧
      (vector [.string "a", .range ⟨0⟩ ⟨0x7FF8000000000000⟩ ⟨0⟩]).equals
        (vector [.string "a", .range ⟨0⟩ ⟨0x7FF8000000000000⟩ ⟨0⟩]) ≠ true := by
  obtain ⟨-, htrans, hself, -⟩ := equals_partial_equivalence
  constructor
  · exact htrans _ (vector [.number ⟨0⟩, .vector [.range ⟨0⟩ ⟨0⟩ ⟨0⟩]]) _ (by decide) (by decide)
  · rw [ne_eq, hself]
    intro h
    have hstep := h ⟨0x7FF8000000000000⟩ (by decide)
    exact absurd hstep (by decide)

end Value

end SolidOps
