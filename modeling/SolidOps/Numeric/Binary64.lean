/-!
# Binary64 numbers

Every number of the modelling language is an IEEE 754 binary64 datum.  It is held as its 64-bit
word, so two numbers are the same exactly when their words are: zero and minus zero differ, and a
NaN keeps its payload.  Nothing here goes through machine arithmetic; a word is taken apart with
division and remainder of natural numbers, and what it stands for is an exact rational.

**The magnitude.**  The lower 63 bits, read as a natural number, are the *magnitude*.  Magnitudes
are ordered as the absolute values they stand for: first the finite ones, then infinity, then the
NaNs.  A magnitude below infinity splits into a biased exponent and a fraction and stands for
`significand * 2 ^ unitExponent`.

The main definitions:

* `Binary64` and its classes `isNaN`, `isInfinite`, `isFinite`, `isZero`;
* `Binary64.value`, the exact rational of a finite number;
* `Binary64.equals` and `Binary64.isLess`, the comparisons of the language: a NaN is neither equal
  to anything nor less, and the two zeros are equal;
* `Binary64.trunc`, the number with its fraction dropped, and `Binary64.clamp`, its whole part
  held between two bounds.
-/

namespace SolidOps

/-- A binary64 number, by its word. -/
structure Binary64 where
  /-- The interchange word: sign, biased exponent, fraction, from the highest bit down. -/
  bits : UInt64
deriving DecidableEq

/-! ## Magnitudes

The format's constants are all written here: 52 fraction bits, biased exponents up to 2047, and
`2 ^ -1074` as the least positive magnitude.  Powers of two that are a single bit of the word are
written as that bit. -/

namespace Magnitude

/-- The bit above the fraction: one step of the biased exponent, and the leading bit that a word
leaves out of its fraction. -/
def hiddenBit : Nat := 0x10000000000000

/-- The magnitude of infinity, which every finite magnitude is below and every NaN above. -/
def infinity : Nat := 2047 * hiddenBit

/-- The biased exponent of a magnitude. -/
def biasedExponent (m : Nat) : Nat := m / hiddenBit

/-- The integer that a finite magnitude counts in units of `2 ^ unitExponent`: its fraction, with
the hidden bit in front unless the biased exponent is zero. -/
def significand (m : Nat) : Nat :=
  if biasedExponent m = 0 then m else hiddenBit + m % hiddenBit

/-- The binary exponent of a magnitude's last place. -/
def unitExponent (m : Nat) : Int := (max (biasedExponent m) 1 : Nat) - 1075

/-- The rational that a finite magnitude stands for. -/
def value (m : Nat) : Rat := (significand m : Rat) * 2 ^ unitExponent m

end Magnitude

/-! ## Sign and class -/

namespace Binary64

/-- The highest bit of the word, set for negative numbers. -/
def signBit : Nat := 0x8000000000000000

/-- The bits of the word below the sign. -/
def magnitude (x : Binary64) : Nat := x.bits.toNat % signBit

/-- Whether the sign bit is set, also on zeros and NaNs. -/
def isNegative (x : Binary64) : Bool := decide (signBit ≤ x.bits.toNat)

/-- The number of a given sign and magnitude. -/
def ofMagnitude (negative : Bool) (m : Nat) : Binary64 :=
  ⟨UInt64.ofNat (if negative then signBit + m else m)⟩

/-- Plus zero. -/
def zero : Binary64 := ⟨0⟩

instance : Inhabited Binary64 := ⟨zero⟩

def isNaN (x : Binary64) : Bool := decide (Magnitude.infinity < x.magnitude)

def isInfinite (x : Binary64) : Bool := decide (x.magnitude = Magnitude.infinity)

def isFinite (x : Binary64) : Bool := decide (x.magnitude < Magnitude.infinity)

/-- Either zero. -/
def isZero (x : Binary64) : Bool := decide (x.magnitude = 0)

/-- The exact rational of a finite number; both zeros give `0`. -/
def value (x : Binary64) : Rat :=
  if x.isNegative then -Magnitude.value x.magnitude else Magnitude.value x.magnitude

/-! ## Comparison

A finite rational other than zero has one word, so numeric equality is equality of words, but for
NaNs and the two zeros.  Magnitudes are ordered as absolute values, so the order of numbers is that
of magnitudes counted down from zero for negative numbers and up for the others. -/

/-- Equality as the language compares numbers. -/
def equals (x y : Binary64) : Bool :=
  !x.isNaN && !y.isNaN && (x == y || x.isZero && y.isZero)

/-- The place of a number that is not a NaN in the order of numbers; both zeros have place 0. -/
def place (x : Binary64) : Int := if x.isNegative then -x.magnitude else x.magnitude

/-- Strictly less, as the language compares numbers. -/
def isLess (x y : Binary64) : Bool := !x.isNaN && !y.isNaN && decide (x.place < y.place)

/-! ## Whole parts -/

/-- The number with its fraction dropped, toward zero.  The sign stays, also when nothing else
does.  A biased exponent below 1023 means an absolute value below one; from 1075 on there is no
fraction to drop, and NaN and the infinities are returned as they are.  Between, the last
`1075 - e` bits of the magnitude are the fraction. -/
def trunc (x : Binary64) : Binary64 :=
  let e := Magnitude.biasedExponent x.magnitude
  if e < 1023 then ofMagnitude x.isNegative 0
  else if 1075 ≤ e then x
  else ofMagnitude x.isNegative (x.magnitude - x.magnitude % Nat.pow 2 (1075 - e))

/-- The whole part of a finite number, rounded toward zero. -/
def wholePart (x : Binary64) : Int :=
  if x.isNegative then -(Magnitude.value x.magnitude).floor
  else (Magnitude.value x.magnitude).floor

/-- The whole part held between `low` and `high`.  The infinities lie beyond every bound, and a
NaN counts as zero. -/
def clamp (low high : Int) (x : Binary64) : Int :=
  if x.isNaN then 0
  else if x.isInfinite then if x.isNegative then low else high
  else max low (min high x.wholePart)

/-- The nearest 32-bit signed integer toward zero. -/
def toInt32 (x : Binary64) : Int32 :=
  Int32.ofInt (x.clamp Int32.minValue.toInt Int32.maxValue.toInt)

/-- The nearest 32-bit unsigned integer toward zero; every negative number gives zero. -/
def toUInt32 (x : Binary64) : UInt32 :=
  UInt32.ofNat (x.clamp 0 (UInt32.size - 1)).toNat

end Binary64

end SolidOps
