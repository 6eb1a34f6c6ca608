import SolidOps.Numeric.Nearest

/-!
# The shortest decimal that reads back

A binary64 number is written with the fewest digits from which it can be read back.  For one
digit, two digits and so on, the value lies between two neighbours on the grid of decimals with
that many digits; the first grid with a neighbour that reads back settles the number of digits.
Of two such neighbours the nearer is taken, and `Tie` says what to do when both are equally near.

Reading back is tested with the reader itself, `Decimal.nearestMagnitude`, so that every decimal
chosen on a grid reads back by construction.  Seventeen digits are always enough; the exact value,
which has finitely many digits too, stands behind them.

The main definitions:

* `decimalExponent`, the exponent of the leading digit of a rational;
* `Tie` and `shortest`;
* `Binary64.chars`, the plain text of a number.
-/

namespace SolidOps

/-- The greatest `e` with `10 ^ e ≤ v`, for a positive `v`. -/
def decimalExponent (v : Rat) : Int :=
  if 1 ≤ v then ((digits v.floor.toNat).length : Int) - 1
  else -((digits ((1 / v).ceil - 1).toNat).length : Int)

/-- Which of two equally near decimals is written. -/
inductive Tie
  /-- The one farther from zero. -/
  | away
  /-- The one whose last digit is even. -/
  | even
deriving DecidableEq

/-- The nearer of the neighbours `low` and `low + 1` of `v`. -/
def Tie.nearer (tie : Tie) (v : Rat) (low : Nat) : Nat :=
  let rest := v - (low : Rat)
  if rest < 1 / 2 then low
  else if 1 / 2 < rest then low + 1
  else
    match tie with
    | .away => low + 1
    | .even => if low % 2 = 0 then low else low + 1

/-- The decimal in units of `10 ^ exponent` that reads back as the magnitude `m`, when there is
one next to its value. -/
def gridNeighbour? (tie : Tie) (m : Nat) (exponent : Int) : Option Decimal :=
  let scaled := Magnitude.value m / 10 ^ exponent
  let low := scaled.floor.toNat
  let readsBack (c : Nat) : Bool := (Decimal.mk c exponent).nearestMagnitude == m
  match readsBack low, readsBack (low + 1) with
  | true, true => some ⟨tie.nearer scaled low, exponent⟩
  | true, false => some ⟨low, exponent⟩
  | false, true => some ⟨low + 1, exponent⟩
  | false, false => none

/-- A magnitude as a decimal, exactly: halving is multiplying by five and moving the point. -/
def exactDecimal (m : Nat) : Decimal :=
  let e := Magnitude.unitExponent m
  if 0 ≤ e then ⟨Magnitude.significand m * Nat.pow 2 e.toNat, 0⟩
  else ⟨Magnitude.significand m * Nat.pow 5 (-e).toNat, e⟩

/-- The shortest decimal that reads back as a finite magnitude other than zero. -/
def shortest (tie : Tie) (m : Nat) : Decimal :=
  let leading := decimalExponent (Magnitude.value m)
  let onGrid := (List.range 17).findSome? fun (n : Nat) => gridNeighbour? tie m (leading - n)
  (onGrid.getD (exactDecimal m)).trim

/-! ## Plain text

The text the language shows is always positional: no exponent, however large or small the number,
and no point in a whole number.  Minus zero keeps its sign; a NaN has none to show. -/

/-- A number as the language shows it. -/
def Binary64.chars (x : Binary64) : List Char :=
  if x.isNaN then ['N', 'a', 'N']
  else
    let size :=
      if x.isInfinite then ['i', 'n', 'f']
      else if x.isZero then ['0']
      else (shortest .away x.magnitude).chars
    if x.isNegative then '-' :: size else size

/-- A number as the language shows it, as a string. -/
def Binary64.text (x : Binary64) : String := String.ofList x.chars

end SolidOps
