import SolidOps.Operator
import SolidOps.Value.Text

/-!
# Settings

The settings of an operator are its parameters once they have been bound, converted and given their
defaults: integers, flags, numbers per axis, a subdivision scheme.  There is one constructor for
each operator, so that settings determine the operator they belong to.

* `Scheme` is a subdivision scheme and `Axes` a thing for each of the three axes.
* `Settings.operator` and `Settings.convexity?` read settings.
* `Settings.equals` compares them, numbers as numbers.
* `Settings.text` is their canonical text, the form in which a node is shown and looked up.
-/

namespace SolidOps

/-! ## Subdivision schemes -/

/-- A subdivision scheme. -/
inductive Scheme
  | catmullClark
  | loop
  | dooSabin
  | sqrt3
deriving DecidableEq

namespace Scheme

/-- All schemes, in the order of their codes. -/
def all : List Scheme := [catmullClark, loop, dooSabin, sqrt3]

/-- The number that stands for a scheme in canonical text. -/
def code : Scheme → Nat
  | catmullClark => 0
  | loop => 1
  | dooSabin => 2
  | sqrt3 => 3

/-- The scheme of a lowercase name; two-word names may be spelled with one space. -/
def ofName? (name : String) : Option Scheme :=
  if name = "catmullclark" ∨ name = "catmull clark" then some catmullClark
  else if name = "loop" then some loop
  else if name = "doosabin" ∨ name = "doo sabin" then some dooSabin
  else if name = "sqrt3" ∨ name = "sqrt 3" then some sqrt3
  else none

/-- A scheme as canonical text shows it. -/
def display (s : Scheme) : String := String.ofList (natChars s.code)

end Scheme

/-! ## Axes -/

/-- One thing for each axis. -/
structure Axes (α : Type) where
  x : α
  y : α
  z : α
deriving DecidableEq

namespace Axes

variable {α β : Type}

/-- The same thing for every axis. -/
def all (a : α) : Axes α := ⟨a, a, a⟩

/-- The things in axis order. -/
def toList (a : Axes α) : List α := [a.x, a.y, a.z]

/-- Replaces the things of the first axes by those listed, one after the other. -/
def overlay (a : Axes α) (items : List α) : Axes α :=
  ⟨items[0]?.getD a.x, items[1]?.getD a.y, items[2]?.getD a.z⟩

/-- Three texts between brackets, with commas and no blanks. -/
def chars (shown : α → List Char) (a : Axes α) : List Char :=
  '[' :: (shown a.x ++ ',' :: (shown a.y ++ ',' :: (shown a.z ++ [']'])))

end Axes

/-! ## Settings -/

/-- The settings of an operator. -/
inductive Settings
  | minkowski (convexity : Int32)
  /-- The path is kept as it was given. -/
  | glide (convexity : Int32) (path : Value)
  | subdivision (convexity : Int32) (level : UInt32) (scheme : Scheme)
  | hull
  /-- A size of zero leaves its axis alone; an automatic axis follows the others. -/
  | resize (newSize : Axes Binary64) (auto : Axes Bool)

namespace Settings

instance : Inhabited Settings := ⟨hull⟩

/-- The operator that settings belong to. -/
def operator : Settings → Operator
  | minkowski _ => .minkowski
  | glide _ _ => .glide
  | subdivision _ _ _ => .subdivision
  | hull => .hull
  | resize _ _ => .resize

/-- The convexity, for the operators that have one. -/
def convexity? : Settings → Option Int32
  | minkowski c => some c
  | glide c _ => some c
  | subdivision c _ _ => some c
  | hull => none
  | resize _ _ => none

/-- Equality of settings, with numbers compared as numbers. -/
def equals : Settings → Settings → Bool
  | minkowski c, minkowski c' => c == c'
  | glide c path, glide c' path' => c == c' && path.equals path'
  | subdivision c level scheme, subdivision c' level' scheme' =>
    c == c' && level == level' && scheme == scheme'
  | hull, hull => true
  | resize size auto, resize size' auto' =>
    size.x.equals size'.x && size.y.equals size'.y && size.z.equals size'.z && auto == auto'
  | _, _ => false

/-! ## Canonical text

The operator's keyword, then its settings in an order of their own, each by its name. -/

/-- A flag as a digit. -/
def flagChars (b : Bool) : List Char := if b then ['1'] else ['0']

/-- The settings between the parentheses of the canonical text. -/
def innerChars : Settings → List Char
  | minkowski c => "convexity = ".toList ++ intChars c.toInt
  | glide c path =>
    "path = ".toList ++ path.chars ++ ", convexity = ".toList ++ intChars c.toInt
  | subdivision c level scheme =>
    "type = ".toList ++ natChars scheme.code ++ ", level = ".toList ++ natChars level.toNat ++
      ", convexity = ".toList ++ intChars c.toInt
  | hull => []
  | resize size auto =>
    "newsize = ".toList ++ size.chars Binary64.chars ++ ", auto = ".toList ++ auto.chars flagChars

/-- The canonical text of settings. -/
def chars (s : Settings) : List Char :=
  s.operator.keyword.toList ++ '(' :: (s.innerChars ++ [')'])

/-- The canonical text of settings, as a string. -/
def text (s : Settings) : String := String.ofList s.chars

end Settings

end SolidOps
