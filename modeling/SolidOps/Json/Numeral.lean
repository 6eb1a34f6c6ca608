import SolidOps.Numeric.Shortest

/-!
# JSON numerals

A number in JSON text is a numeral: a sign, a whole number without leading zeros, digits after the
point, an exponent.  What a numeral stands for depends on what is wanted.  `Numeral.toBinary64?`
gives the nearest binary64 number and refuses what is out of range; `Numeral.toInt?` takes only
numerals that are written as integers.

**Long numerals.**  A point half way between two neighbouring binary64 numbers has at most 768
significant digits.  What a numeral has after that many can only say whether it lies above such a
point, and a single digit 1 stands for it.  Zeros at the end of the fraction are no such digits and
are dropped beforehand.  Zeros at the end of the whole number stay; where they reach beyond the
768th digit, a numeral half way between two numbers is read as lying above.

A binary64 number is written with the shortest decimal that reads back, a tie going to the even
digit.  Up to a leading exponent of 15, and down to -5, the decimal is written out, with at least one
digit after the point; otherwise it is written with an exponent.

* `Numeral.chars` and `Numeral.ofChars?` are the written form and its reader.
* `Numeral.ofBinary64` is the numeral a finite number is written as.
-/

namespace SolidOps

/-- A number as JSON text has it. -/
structure Numeral where
  negative : Bool
  /-- What stands before the point. -/
  whole : Nat
  /-- The digits after the point; a numeral without a point has none. -/
  fraction : List Digit
  /-- The exponent, when one is written. -/
  exponent : Option Int
deriving DecidableEq

namespace Numeral

/-! ## What a numeral stands for -/

/-- Drops the zeros at the end of a list of digits. -/
def dropFinalZeros : List Digit → List Digit
  | [] => []
  | d :: ds =>
    match dropFinalZeros ds with
    | [] => if d = 0 then [] else [d]
    | kept => d :: kept

/-- The decimal of a numeral without its sign, exactly. -/
def decimal (n : Numeral) : Decimal :=
  let fraction := dropFinalZeros n.fraction
  ⟨extendDigits n.whole fraction, n.exponent.getD 0 - fraction.length⟩

/-- The number of significant digits that are told apart when a binary64 number is read. -/
def significantDigits : Nat := 768

/-- The binary64 number nearest to the numeral, as far as its digits are told apart, unless that is
infinite. -/
def toBinary64? (n : Numeral) : Option Binary64 :=
  let m := (n.decimal.abridge significantDigits).nearestMagnitude
  if m < Magnitude.infinity then some (Binary64.ofMagnitude n.negative m) else none

/-- The integer of a numeral with neither point nor exponent.  There is no integer minus zero. -/
def toInt? (n : Numeral) : Option Int :=
  if n.fraction ≠ [] ∨ n.exponent.isSome ∨ (n.negative ∧ n.whole = 0) then none
  else some (if n.negative then -(n.whole : Int) else n.whole)

/-- An integer as a numeral. -/
def ofInt (i : Int) : Numeral := ⟨decide (i < 0), i.natAbs, [], none⟩

/-! ## The numeral of a binary64 number -/

/-- The least leading exponent of a decimal that is written out. -/
def leastWrittenOut : Int := -5

/-- The greatest leading exponent of a decimal that is written out. -/
def greatestWrittenOut : Int := 15

/-- The numeral of a decimal: written out, or with one digit before the point and an exponent. -/
def ofDecimal (negative : Bool) (d : Decimal) : Numeral :=
  let e := d.leadingExponent
  if leastWrittenOut ≤ e ∧ e ≤ greatestWrittenOut then
    ⟨negative, d.whole, if d.fraction = [] then [0] else d.fraction, none⟩
  else
    let scaled : Decimal := ⟨d.coefficient, d.exponent - e⟩
    ⟨negative, scaled.whole, scaled.fraction, some e⟩

/-- The numeral of a finite number. -/
def ofBinary64 (x : Binary64) : Numeral :=
  if x.isZero then ⟨x.isNegative, 0, [0], none⟩
  else ofDecimal x.isNegative (shortest .even x.magnitude)

/-! ## Written form -/

/-- The written form of a numeral; the sign of an exponent is always written. -/
def chars (n : Numeral) : List Char :=
  let sign := if n.negative then ['-'] else []
  let point := if n.fraction = [] then [] else '.' :: digitChars n.fraction
  let scale :=
    match n.exponent with
    | none => []
    | some e => 'e' :: (if e < 0 then '-' else '+') :: natChars e.natAbs
  sign ++ (natChars n.whole ++ (point ++ scale))

/-- Splits the digits off the front of a text. -/
def splitDigits : List Char → List Digit × List Char
  | [] => ([], [])
  | c :: cs =>
    match Digit.ofChar? c with
    | some d => (d :: (splitDigits cs).1, (splitDigits cs).2)
    | none => ([], c :: cs)

/-- Reads the whole number at the front of a text.  It has at least one digit, and more than one only
if the first is not a zero. -/
def readWhole? (cs : List Char) : Option (Nat × List Char) :=
  match splitDigits cs with
  | ([], _) => none
  | (d :: ds, rest) => if d = 0 ∧ ds ≠ [] then none else some (ofDigits (d :: ds), rest)

/-- Reads a point and the digits after it, if a point is there. -/
def readFraction? : List Char → Option (List Digit × List Char)
  | '.' :: cs =>
    match splitDigits cs with
    | ([], _) => none
    | (ds, rest) => some (ds, rest)
  | cs => some ([], cs)

/-- Reads the digits of an exponent, which end the text. -/
def readScale? (negative : Bool) (cs : List Char) : Option Int :=
  match splitDigits cs with
  | (d :: ds, []) =>
    let size : Int := ofDigits (d :: ds)
    some (if negative then -size else size)
  | _ => none

/-- Reads an exponent, if there is one, at the end of a text. -/
def readExponent? : List Char → Option (Option Int)
  | [] => some none
  | c :: cs =>
    if c = 'e' ∨ c = 'E' then
      match cs with
      | '-' :: cs => (readScale? true cs).map some
      | '+' :: cs => (readScale? false cs).map some
      | cs => (readScale? false cs).map some
    else none

/-- Reads a text that is a numeral and nothing else, but for its sign. -/
def readUnsigned? (negative : Bool) (cs : List Char) : Option Numeral := do
  let (whole, cs) ← readWhole? cs
  let (fraction, cs) ← readFraction? cs
  let exponent ← readExponent? cs
  some ⟨negative, whole, fraction, exponent⟩

/-- Reads a text that is a numeral and nothing else. -/
def ofChars? : List Char → Option Numeral
  | '-' :: cs => readUnsigned? true cs
  | cs => readUnsigned? false cs

end Numeral

end SolidOps
