import SolidOps.Numeric.Binary64
import SolidOps.Numeric.Decimal

/-!
# The nearest binary64 number

A rational seldom is a binary64 number.  The number taken for it is the nearest one, and of two
equally near ones the one whose last bit is zero.

The rounding is arithmetic on rationals.  `binaryExponent` finds the power of two at or below the
value; it fixes the unit in the last place, which is never finer than `2 ^ -1074`.  The value is
then rounded to a whole count of units.  Because magnitudes are ordered as the values they stand
for, and each step of the biased exponent is `hiddenBit` magnitudes, the magnitude is an offset for
the unit plus the count, also when the count carries into the next power of two.

The main definitions:

* `roundHalfEven`, rounding to a whole number;
* `nearestMagnitude`, the magnitude nearest to a rational that is not negative, infinity included;
* `Decimal.nearestMagnitude`, the same for a decimal, which settles values far out of range
  without computing their powers of ten;
* `Binary64.ofInt`.
-/

namespace SolidOps

/-- The greatest `e` with `2 ^ e ≤ v`, for a positive `v`.  The lengths of numerator and denominator
determine it up to one. -/
def binaryExponent (v : Rat) : Int :=
  let guess : Int := (v.num.natAbs.log2 : Int) - v.den.log2
  if (2 : Rat) ^ guess ≤ v then guess else guess - 1

/-- The nearest whole number; a half goes to the even neighbour. -/
def roundHalfEven (v : Rat) : Int :=
  let low := v.floor
  let rest := v - low
  if rest < 1 / 2 then low
  else if 1 / 2 < rest then low + 1
  else if low % 2 = 0 then low else low + 1

/-- The magnitude nearest to `v`, for `v` not negative.  Whatever rounds past the greatest finite
magnitude gives infinity. -/
def nearestMagnitude (v : Rat) : Nat :=
  if v ≤ 0 then 0
  else
    let unit := max (binaryExponent v - 52) (-1074)
    min Magnitude.infinity
      ((unit + 1074).toNat * Magnitude.hiddenBit + (roundHalfEven (v / 2 ^ unit)).toNat)

/-- The magnitude nearest to a decimal.  A leading digit beyond `10 ^ 400` is out of range and one
below `10 ^ -400` rounds to zero, so that the power of ten is computed only between. -/
def Decimal.nearestMagnitude (d : Decimal) : Nat :=
  if d.coefficient = 0 then 0
  else if 400 < d.leadingExponent then Magnitude.infinity
  else if d.leadingExponent < -400 then 0
  else SolidOps.nearestMagnitude d.value

/-- The number nearest to an integer. -/
def Binary64.ofInt (i : Int) : Binary64 :=
  Binary64.ofMagnitude (decide (i < 0)) (nearestMagnitude (i.natAbs : Rat))

end SolidOps
