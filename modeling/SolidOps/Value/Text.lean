import SolidOps.Numeric.Shortest
import SolidOps.Value

/-!
# The text of a value

A value is written as the language would: `undef`, `true`, a plain number, a quoted string, the
items of a vector in brackets, the bounds of a range between colons.

A string is put between double quotes as it stands.  Nothing in it is escaped, so a string that
contains a quote is written in a way that cannot be read back.

* `Value.chars` is the written form, `Value.display` the same as a string.
* `Value.text` is a value read as text: a string without its quotes, any other value as written.
-/

namespace SolidOps

/-- `true` or `false`. -/
def boolChars : Bool → List Char
  | true => ['t', 'r', 'u', 'e']
  | false => ['f', 'a', 'l', 's', 'e']

namespace Value

mutual

/-- The written form of a value. -/
def chars : Value → List Char
  | undefined => ['u', 'n', 'd', 'e', 'f']
  | boolean b => boolChars b
  | number x => x.chars
  | string s => '"' :: (s.toList ++ ['"'])
  | vector [] => ['[', ']']
  | vector (item :: items) => '[' :: (chars item ++ laterItems items)
  | range start step stop =>
    '[' :: (start.chars ++ ' ' :: ':' :: ' ' :: (step.chars ++ ' ' :: ':' :: ' ' ::
      (stop.chars ++ [']'])))

/-- The items of a vector after its first, each with the comma before it, and the closing
bracket. -/
def laterItems : List Value → List Char
  | [] => [']']
  | item :: items => ',' :: ' ' :: (chars item ++ laterItems items)

end

/-- The written form of a value, as a string. -/
def display (v : Value) : String := String.ofList v.chars

/-- A value read as text. -/
def text : Value → String
  | string s => s
  | v => v.display

end Value

end SolidOps
