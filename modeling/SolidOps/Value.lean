import SolidOps.Numeric.Binary64

/-!
# Values

What an argument of an operator evaluates to.  The language is dynamically typed: a value carries
its type, and every way of reading one is defined for all types, with a fallback where the type has
nothing better to offer.

* `Value.typeName` names the type.
* `Value.toBool`, `Value.toNumber` and `Value.items?` read a value as a truth value, a number and
  a vector.  The reading as text is with the printer, in `SolidOps.Value.Text`.
* `Value.equals` is equality as the language has it.  Since numbers are compared as numbers, a
  value that holds a NaN is not equal to itself, and `0` equals `-0` at any depth.

Functions on vectors come with a companion on the list of their items, so that the recursion is on
the value itself.
-/

namespace SolidOps

/-- A value of the modelling language. -/
inductive Value
  /-- No value; what an omitted argument and an unknown variable give. -/
  | undefined
  | boolean (b : Bool)
  | number (x : Binary64)
  | string (s : String)
  | vector (items : List Value)
  /-- The numbers from `start` towards `stop` in steps. -/
  | range (start step stop : Binary64)

namespace Value

instance : Inhabited Value := ⟨undefined⟩

/-! ## Types -/

def isUndefined : Value → Bool
  | undefined => true
  | _ => false

def isBoolean : Value → Bool
  | boolean _ => true
  | _ => false

def isNumber : Value → Bool
  | number _ => true
  | _ => false

def isString : Value → Bool
  | string _ => true
  | _ => false

def isVector : Value → Bool
  | vector _ => true
  | _ => false

/-- The name of a value's type. -/
def typeName : Value → String
  | undefined => "undefined"
  | boolean _ => "boolean"
  | number _ => "number"
  | string _ => "string"
  | vector _ => "vector"
  | range _ _ _ => "range"

/-! ## Readings -/

/-- The truth of a value.  Zero of either sign and what is empty or undefined are false; a NaN is
not zero, and a range is true whatever it spans. -/
def toBool : Value → Bool
  | undefined => false
  | boolean b => b
  | number x => !x.isZero
  | string s => !s.isEmpty
  | vector items => !items.isEmpty
  | range _ _ _ => true

/-- The number of a value; everything but a number counts as zero. -/
def toNumber : Value → Binary64
  | number x => x
  | _ => Binary64.zero

/-- The items of a vector. -/
def items? : Value → Option (List Value)
  | vector items => some items
  | _ => none

/-! ## Equality -/

mutual

/-- Equality of values as the language compares them. -/
def equals : Value → Value → Bool
  | undefined, undefined => true
  | boolean a, boolean b => a == b
  | number x, number y => x.equals y
  | string s, string t => s == t
  | vector xs, vector ys => equalItems xs ys
  | range start step stop, range start' step' stop' =>
    start.equals start' && step.equals step' && stop.equals stop'
  | _, _ => false

/-- Equality of vectors, item by item; vectors of different lengths differ. -/
def equalItems : List Value → List Value → Bool
  | [], [] => true
  | x :: xs, y :: ys => equals x y && equalItems xs ys
  | _, _ => false

end

end Value

end SolidOps
