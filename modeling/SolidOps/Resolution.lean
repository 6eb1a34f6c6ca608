import SolidOps.Binding
import SolidOps.Defaults
import SolidOps.Text.Lowercase

/-!
# From bindings to settings

An operator's settings are read from its bindings.  Reading never fails: a value that does not fit
is replaced by a default, and the two cases worth mentioning are reported.

| parameter | setting |
|---|---|
| `convexity` | a number truncated to 32 bits with sign, anything else 0 |
| `path` | kept as it is |
| `level` | 1 when undefined, else a number truncated to 32 bits, at least 0 |
| `type` | the scheme of that name in any letter case, Catmull-Clark when undefined |
| `newsize` | up to three numbers over three zeros |
| `auto` | up to three truth values over three false ones, or `true` for all |

Readings are pure: each gives the setting and the diagnostics to report, in order.
-/

namespace SolidOps.Resolution

/-! ## Diagnostics -/

/-- A level below zero was raised to zero. -/
def negativeLevel : Diagnostic :=
  .warning "Subdivision cannot be less than 0. Setting to 0."

/-- There is no scheme of this name. -/
def unknownScheme (name : String) : Diagnostic :=
  (Diagnostic.warning ("unknown subdivision type " ++ name)).withHint
    "expected catmullclark, loop, doosabin or sqrt3"

/-- Which scheme takes the place of an unknown one. -/
def schemeReplaced : Diagnostic := .warning "setting to CatmullClark"

/-! ## Single settings -/

/-- The convexity a value stands for. -/
def convexity : Value → Int32
  | .undefined => Defaults.convexity
  | v => v.toNumber.toInt32

/-- The subdivision level a value stands for.  The fraction is dropped first, so that a level just
below zero is zero and needs no warning. -/
def level : Value → UInt32 × List Diagnostic
  | .undefined => (Defaults.level, [])
  | v =>
    let whole := v.toNumber.trunc
    if whole.isLess (.ofInt Defaults.leastLevel.toNat) then (Defaults.leastLevel, [negativeLevel])
    else (whole.toUInt32, [])

/-- The name under which a scheme is looked up. -/
def schemeName : Value → String
  | .undefined => Defaults.schemeName
  | v => lowercase v.text

/-- The subdivision scheme a value stands for. -/
def scheme (v : Value) : Scheme × List Diagnostic :=
  let name := schemeName v
  match Scheme.ofName? name with
  | some s => (s, [])
  | none => (Defaults.scheme, [unknownScheme name, schemeReplaced])

/-- Exchanges level and type when they were given the wrong way round: a string for the level and a
number for the type. -/
def inOrder (level type : Value) : Value × Value :=
  match level, type with
  | .string s, .number x => (.number x, .string s)
  | _, _ => (level, type)

/-- The sizes a value stands for. -/
def newSize : Value → Axes Binary64
  | .vector items => Defaults.newSize.overlay ((items.take Defaults.axisCount).map Value.toNumber)
  | _ => Defaults.newSize

/-- The automatic axes a value stands for. -/
def auto : Value → Axes Bool
  | .vector items => Defaults.auto.overlay ((items.take Defaults.axisCount).map Value.toBool)
  | .boolean true => .all true
  | _ => Defaults.auto

end SolidOps.Resolution

namespace SolidOps

/-! ## Settings -/

/-- The settings of an operator under given bindings, and the diagnostics to report for them.  The
bindings need not come from the operator's own signature; what they do not have is `undef`. -/
def Settings.ofBindings (op : Operator) (b : Bindings) : Settings × List Diagnostic :=
  match op with
  | .minkowski => (.minkowski (Resolution.convexity (b.get "convexity")), [])
  | .glide => (.glide (Resolution.convexity (b.get "convexity")) (b.get "path"), [])
  | .subdivision =>
    let (levelValue, typeValue) := Resolution.inOrder (b.get "level") (b.get "type")
    let (level, levelReports) := Resolution.level levelValue
    let (scheme, schemeReports) := Resolution.scheme typeValue
    (.subdivision (Resolution.convexity (b.get "convexity")) level scheme,
      levelReports ++ schemeReports)
  | .hull => (.hull, [])
  | .resize => (.resize (Resolution.newSize (b.get "newsize")) (Resolution.auto (b.get "auto")), [])

end SolidOps
