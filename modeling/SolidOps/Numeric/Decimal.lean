/-!
# Decimal numbers

Numbers are written and read in decimal.  This module has the digits of a natural number and the
decimal `coefficient * 10 ^ exponent`, with the two parts a decimal shows when it is written out in
full: the whole number before the point and the digits after it.

The main definitions:

* `Digit`, `digits` and `ofDigits`: a natural number as its decimal digits and back;
* `Decimal`, its exact rational `Decimal.value`, and `Decimal.trim`, the same value with the
  shortest coefficient;
* `Decimal.abridge`, a decimal with a bounded number of digits in place of a longer one;
* `Decimal.whole` and `Decimal.fraction`, the positional notation in two parts.
-/

namespace SolidOps

/-! ## Digits -/

/-- A decimal digit. -/
abbrev Digit := Fin 10

/-- The character of a digit. -/
def Digit.toChar (d : Digit) : Char := Char.ofNat (48 + d.val)

/-- The digit that a character shows, if it shows one.  Only the ten ASCII digits count. -/
def Digit.ofChar? (c : Char) : Option Digit :=
  if h : 48 ≤ c.toNat ∧ c.toNat < 58 then some ⟨c.toNat - 48, by omega⟩ else none

/-- The last `places` decimal digits of a natural number, zeros included. -/
def lastDigits : Nat → Nat → List Digit
  | 0, _ => []
  | places + 1, n => lastDigits places (n / 10) ++ [⟨n % 10, Nat.mod_lt n (by decide)⟩]

/-- The decimal digits of a natural number in front of further digits. -/
def digitsBefore (n : Nat) (further : List Digit) : List Digit :=
  if h : n < 10 then ⟨n, h⟩ :: further
  else digitsBefore (n / 10) (⟨n % 10, Nat.mod_lt n (by decide)⟩ :: further)
termination_by n

/-- The decimal digits of a natural number, highest first and without leading zeros; zero itself
has the one digit `0`. -/
def digits (n : Nat) : List Digit := digitsBefore n []

/-- Further digits stay as they are. -/
theorem digitsBefore_eq_append (n : Nat) (further : List Digit) :
    digitsBefore n further = digits n ++ further := by
  have general (n : Nat) (xs ys : List Digit) :
      digitsBefore n (xs ++ ys) = digitsBefore n xs ++ ys := by
    induction n using Nat.strongRecOn generalizing xs with
    | ind n ih =>
      rw [digitsBefore, digitsBefore.eq_1 n xs]
      split
      · rfl
      · exact ih (n / 10) (by omega) (_ :: xs)
  exact general n [] further

/-- A number below ten is its own digit. -/
theorem digits_of_lt {n : Nat} (h : n < 10) : digits n = [⟨n, h⟩] := by
  rw [digits, digitsBefore, dif_pos h]

/-- A number from ten on has the digits of its tenth and then its last digit. -/
theorem digits_of_ge {n : Nat} (h : 10 ≤ n) :
    digits n = digits (n / 10) ++ [⟨n % 10, Nat.mod_lt n (by decide)⟩] := by
  rw [digits, digitsBefore, dif_neg (by omega), digitsBefore_eq_append]

/-- The natural number that digits spell after the number `before`. -/
def extendDigits (before : Nat) (ds : List Digit) : Nat :=
  ds.foldl (fun n d => 10 * n + d.val) before

/-- The natural number that digits spell. -/
def ofDigits (ds : List Digit) : Nat := extendDigits 0 ds

/-- Digits as text. -/
def digitChars (ds : List Digit) : List Char := ds.map Digit.toChar

/-- A natural number in decimal. -/
def natChars (n : Nat) : List Char := digitChars (digits n)

/-- An integer in decimal, with a minus sign when it is negative. -/
def intChars (i : Int) : List Char :=
  if i < 0 then '-' :: natChars i.natAbs else natChars i.natAbs

/-! ## Decimals -/

/-- The decimal `coefficient * 10 ^ exponent`. -/
structure Decimal where
  coefficient : Nat
  exponent : Int
deriving DecidableEq

namespace Decimal

/-- The rational that a decimal stands for. -/
def value (d : Decimal) : Rat := (d.coefficient : Rat) * 10 ^ d.exponent

/-- The exponent of the leading digit, as scientific notation shows it. -/
def leadingExponent (d : Decimal) : Int :=
  d.exponent + (digits d.coefficient).length - 1

/-- Takes up to `count` zeros off the end of the coefficient. -/
def trimAtMost : Nat → Decimal → Decimal
  | 0, d => d
  | count + 1, d =>
    if d.coefficient ≠ 0 ∧ d.coefficient % 10 = 0 then
      trimAtMost count ⟨d.coefficient / 10, d.exponent + 1⟩
    else d

/-- Takes every zero off the end of the coefficient.  There are fewer of them than it has
digits. -/
def trim (d : Decimal) : Decimal := trimAtMost (digits d.coefficient).length d

/-- Keeps the first `count` digits of the coefficient.  A single digit 1 stands for whatever
follows them, so that a longer decimal is replaced by one just above those digits, also when only
zeros follow. -/
def abridge (count : Nat) (d : Decimal) : Decimal :=
  let extra := (digits d.coefficient).length - count
  if extra = 0 then d
  else ⟨10 * (d.coefficient / Nat.pow 10 extra) + 1, d.exponent + extra - 1⟩

/-! ## Positional notation

The digits after the point are as many as a negative exponent says, and none otherwise. -/

/-- What stands before the point. -/
def whole (d : Decimal) : Nat :=
  if 0 ≤ d.exponent then d.coefficient * Nat.pow 10 d.exponent.toNat
  else d.coefficient / Nat.pow 10 (-d.exponent).toNat

/-- What stands after the point. -/
def fraction (d : Decimal) : List Digit := lastDigits (-d.exponent).toNat d.coefficient

/-- A decimal written out in full, without a point when nothing follows it. -/
def chars (d : Decimal) : List Char :=
  match d.fraction with
  | [] => natChars d.whole
  | ds => natChars d.whole ++ '.' :: digitChars ds

end Decimal

end SolidOps
