import SolidOps.Settings

/-!
# Defaults

What a setting is when nothing was given for it, and the bounds that apply to it.
-/

namespace SolidOps.Defaults

/-- The convexity of an operator that was given none. -/
def convexity : Int32 := 0

/-- The subdivision level when none is given. -/
def level : UInt32 := 1

/-- The least subdivision level; a lower one is raised to it. -/
def leastLevel : UInt32 := 0

/-- The name of the subdivision scheme when none is given. -/
def schemeName : String := "catmullclark"

/-- The subdivision scheme that stands in for an unknown one. -/
def scheme : Scheme := .catmullClark

/-- The number of axes. -/
def axisCount : Nat := 3

/-- The size on each axis when none is given. -/
def newSize : Axes Binary64 := .all Binary64.zero

/-- Which axes are automatic when nothing is said. -/
def auto : Axes Bool := .all false

end SolidOps.Defaults
