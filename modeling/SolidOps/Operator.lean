/-!
# Operators and their signatures

The five advanced operators of the modelling language.  Each has a keyword, by which scripts call
it, and a signature, the parameters it declares in the order in which positional arguments take
them.

Parameter names are the same here and where settings are read from bindings
(`SolidOps.Resolution`), so a parameter that is bound is also the one that is read.
-/

namespace SolidOps

/-! ## Signatures -/

/-- A declared parameter. -/
structure Parameter where
  name : String
  /-- Whether binding fails when no argument reaches the parameter. -/
  required : Bool
deriving DecidableEq

namespace Parameter

/-- A parameter that may be left out. -/
def optional (name : String) : Parameter := ⟨name, false⟩

/-- A parameter that an argument has to reach. -/
def mandatory (name : String) : Parameter := ⟨name, true⟩

end Parameter

/-- Declared parameters in positional order.  A parameter's place in the list is its slot. -/
abbrev Signature := List Parameter

/-- The slot a name stands for: the first one declared under it. -/
def Signature.slot? (s : Signature) (name : String) : Option Nat :=
  s.findIdx? fun p => p.name == name

/-- The declared names in order. -/
def Signature.names (s : Signature) : List String := s.map Parameter.name

/-! ## Operators -/

/-- An advanced operator. -/
inductive Operator
  | minkowski
  | glide
  | subdivision
  | hull
  | resize
deriving DecidableEq

namespace Operator

/-- All operators, in the order in which their keywords are registered. -/
def all : List Operator := [minkowski, glide, subdivision, hull, resize]

/-- The keyword scripts call the operator by. -/
def keyword : Operator → String
  | minkowski => "minkowski"
  | glide => "glide"
  | subdivision => "subdiv"
  | hull => "hull"
  | resize => "resize"

/-- The operator's place in `all`. -/
def index (op : Operator) : Nat := all.idxOf op

/-- The parameters an operator declares. -/
def signature : Operator → Signature
  | minkowski => [.optional "convexity"]
  | glide => [.mandatory "path", .optional "convexity"]
  | subdivision => [.optional "level", .optional "type", .optional "convexity"]
  | hull => []
  | resize => [.optional "newsize", .optional "auto"]

end Operator

end SolidOps
