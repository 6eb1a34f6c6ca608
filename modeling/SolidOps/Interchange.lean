import SolidOps.Diagnostic
import SolidOps.Json.Reader
import SolidOps.Settings

/-!
# Interchange

Values, settings, operators, schemes and diagnostics are exchanged as JSON.

**Cases.**  A choice between several cases is written as an object with one member, named for the
case; a case without contents is written as its bare name.  `null` is read as the contents of a
case without any.

**Records.**  A record is written as an object.  It is read from an object with its fields in any
order, among members that are passed over, but no field twice; or from an array of all its fields in
their order.

**Numbers.**  A NaN or an infinity has no numeral.  It is written as `null`, and `null` is not read
as a number; so what holds one of them is written, but cannot be read back.

**Nesting.**  Reading opens at most `Interchange.deepest` containers one inside the other: every case
written as an object, every record and every array counts, and a member that is passed over does
not.  Readers take the number of containers that may still be opened.  It decreases on the way in,
so the reader of values is a recursion on it.
-/

namespace SolidOps

/-- A type that is exchanged as JSON. -/
class Interchange (α : Type) where
  toJson : α → Json
  /-- Reads a tree, opening at most `room` containers one inside the other. -/
  ofJson? (room : Nat) : Json → Option α

namespace Interchange

/-- How many containers may be open at once. -/
def deepest : Nat := 127

variable {α : Type} [Interchange α]

/-- The characters of the JSON text of something. -/
def chars (a : α) : List Char := (toJson a).chars

/-- The JSON text of something. -/
def write (a : α) : String := String.ofList (chars a)

/-- Reads a JSON text with at most `room` containers open at once. -/
def readWithin? (room : Nat) (text : String) : Option α :=
  (Json.ofChars? text.toList).bind (ofJson? room)

/-- Reads a JSON text. -/
def read? (text : String) : Option α := readWithin? deepest text

end Interchange

namespace Json

/-! ## Writing cases and records -/

/-- A case without contents. -/
def bare (name : String) : Json := .string (some name)

/-- A case with contents. -/
def tagged (name : String) (contents : Json) : Json := .object [(some name, contents)]

/-- A record. -/
def record (fields : List (String × Json)) : Json :=
  .object (fields.map fun field => (some field.1, field.2))

/-- A number; what is not finite has no numeral. -/
def ofBinary64 (x : Binary64) : Json :=
  if x.isFinite then .number (Numeral.ofBinary64 x) else .null

/-! ## Reading scalars -/

def isNull : Json → Bool
  | null => true
  | _ => false

def toBool? : Json → Option Bool
  | bool b => some b
  | _ => none

def toBinary64? : Json → Option Binary64
  | number n => n.toBinary64?
  | _ => none

def toText? : Json → Text
  | string s => s
  | _ => none

/-- A 32-bit signed integer. -/
def toInt32? : Json → Option Int32
  | number n => n.toInt?.bind fun i =>
    if Int32.minValue.toInt ≤ i ∧ i ≤ Int32.maxValue.toInt then some (Int32.ofInt i) else none
  | _ => none

/-- A 32-bit unsigned integer. -/
def toUInt32? : Json → Option UInt32
  | number n => n.toInt?.bind fun i =>
    if 0 ≤ i ∧ i < UInt32.size then some (UInt32.ofNat i.toNat) else none
  | _ => none

/-! ## Reading cases and records -/

/-- The room that is left after opening a container. -/
def opened? : Nat → Option Nat
  | 0 => none
  | room + 1 => some room

/-- The name of a case without contents. -/
def bareName? (room : Nat) : Json → Option String
  | string name => name
  | object [(name, null)] => (opened? room).bind fun _ => name
  | _ => none

/-- The member with a given name, if there is one; several are an error. -/
def fieldOf? (members : List (Text × Json)) (name : String) : Option (Option Json) :=
  match members.filter fun m => m.1 == some name with
  | [] => some none
  | [m] => some (some m.2)
  | _ => none

/-- The fields of a record in the order of their names; one that is missing from an object is
`none`. -/
def fields? (names : List String) : Json → Option (List (Option Json))
  | array items => if items.length = names.length then some (items.map some) else none
  | object members =>
    if members.all fun m => m.1.isSome then names.mapM (fieldOf? members) else none
  | _ => none

/-- The fields of a record none of which may be missing. -/
def allFields? (names : List String) (j : Json) : Option (List Json) :=
  (fields? names j).bind fun fields => fields.mapM id

/-- Reads an array of three. -/
def toAxes? {α : Type} (item? : Json → Option α) (room : Nat) : Json → Option (Axes α)
  | array [x, y, z] => do
    let _ ← opened? room
    some ⟨← item? x, ← item? y, ← item? z⟩
  | _ => none

end Json

/-! ## Values -/

namespace Value

mutual

/-- A value as JSON. -/
def toJson : Value → Json
  | undefined => .bare "Undef"
  | boolean b => .tagged "Boolean" (.bool b)
  | number x => .tagged "Number" (.ofBinary64 x)
  | string s => .tagged "String" (.string (some s))
  | vector items => .tagged "Vector" (.array (itemsToJson items))
  | range start step stop =>
    .tagged "Range" (.record
      [("start", .ofBinary64 start), ("step", .ofBinary64 step), ("end", .ofBinary64 stop)])

/-- The items of a vector as JSON. -/
def itemsToJson : List Value → List Json
  | [] => []
  | item :: items => toJson item :: itemsToJson items

end

/-- Reads the contents of a range. -/
def rangeOfJson? (room : Nat) (j : Json) : Option Value := do
  let _ ← Json.opened? room
  match ← j.allFields? ["start", "step", "end"] with
  | [start, step, stop] =>
    some (.range (← start.toBinary64?) (← step.toBinary64?) (← stop.toBinary64?))
  | _ => none

/-- Reads a value. -/
def ofJson? : Nat → Json → Option Value
  | _, .string name => if name = some "Undef" then some .undefined else none
  | room + 1, .object [(some case, contents)] =>
    if case = "Undef" then if contents.isNull then some .undefined else none
    else if case = "Boolean" then contents.toBool?.map .boolean
    else if case = "Number" then contents.toBinary64?.map .number
    else if case = "String" then contents.toText?.map .string
    else if case = "Vector" then
      match room, contents with
      | room + 1, .array items => (items.mapM (ofJson? room)).map .vector
      | _, _ => none
    else if case = "Range" then rangeOfJson? room contents
    else none
  | _, _ => none

end Value

instance : Interchange Value := ⟨Value.toJson, Value.ofJson?⟩

/-! ## Operators and schemes -/

namespace Operator

/-- The name of an operator as a case. -/
def caseName : Operator → String
  | minkowski => "Minkowski"
  | glide => "Glide"
  | subdivision => "Subdivision"
  | hull => "Hull"
  | resize => "Resize"

/-- The operator with a given name as a case. -/
def ofCaseName? (name : String) : Option Operator := all.find? fun op => op.caseName == name

end Operator

instance : Interchange Operator where
  toJson op := .bare op.caseName
  ofJson? room j := (j.bareName? room).bind Operator.ofCaseName?

namespace Scheme

/-- The name of a scheme as a case. -/
def caseName : Scheme → String
  | catmullClark => "CatmullClark"
  | loop => "Loop"
  | dooSabin => "DooSabin"
  | sqrt3 => "Sqrt3"

/-- The scheme with a given name as a case. -/
def ofCaseName? (name : String) : Option Scheme := all.find? fun s => s.caseName == name

end Scheme

instance : Interchange Scheme where
  toJson s := .bare s.caseName
  ofJson? room j := (j.bareName? room).bind Scheme.ofCaseName?

/-! ## Settings -/

namespace Settings

/-- Settings as JSON. -/
def toJson : Settings → Json
  | minkowski c => .tagged "Minkowski" (.record [("convexity", .number (.ofInt c.toInt))])
  | glide c path =>
    .tagged "Glide" (.record [("convexity", .number (.ofInt c.toInt)), ("path", path.toJson)])
  | subdivision c level scheme =>
    .tagged "Subdivision" (.record
      [("convexity", .number (.ofInt c.toInt)), ("level", .number (.ofInt level.toNat)),
        ("kind", Interchange.toJson scheme)])
  | hull => .bare "Hull"
  | resize size auto =>
    .tagged "Resize" (.record
      [("new_size", .array (size.toList.map Json.ofBinary64)),
        ("auto_axes", .array (auto.toList.map Json.bool))])

/-- Reads the settings of an operator, of which the contents of its case are given. -/
def contentsOfJson? (op : Operator) (room : Nat) (j : Json) : Option Settings :=
  match op with
  | .hull => if j.isNull then some .hull else none
  | .minkowski => do
    let _ ← Json.opened? room
    match ← j.allFields? ["convexity"] with
    | [c] => some (.minkowski (← c.toInt32?))
    | _ => none
  | .glide => do
    let room ← Json.opened? room
    match ← j.allFields? ["convexity", "path"] with
    | [c, path] => some (.glide (← c.toInt32?) (← Value.ofJson? room path))
    | _ => none
  | .subdivision => do
    let room ← Json.opened? room
    match ← j.allFields? ["convexity", "level", "kind"] with
    | [c, level, scheme] =>
      some (.subdivision (← c.toInt32?) (← level.toUInt32?) (← Interchange.ofJson? room scheme))
    | _ => none
  | .resize => do
    let room ← Json.opened? room
    match ← j.allFields? ["new_size", "auto_axes"] with
    | [size, auto] =>
      some (.resize (← size.toAxes? Json.toBinary64? room) (← auto.toAxes? Json.toBool? room))
    | _ => none

/-- Reads settings. -/
def ofJson? (room : Nat) : Json → Option Settings
  | .string name => if name = some "Hull" then some .hull else none
  | .object [(some case, contents)] => do
    let room ← Json.opened? room
    contentsOfJson? (← Operator.ofCaseName? case) room contents
  | _ => none

end Settings

instance : Interchange Settings := ⟨Settings.toJson, Settings.ofJson?⟩

/-! ## Diagnostics

A hint may be missing from an object, but not from an array. -/

namespace Severity

/-- The name of a severity as a case. -/
def caseName : Severity → String
  | warning => "Warning"

/-- The severity with a given name as a case. -/
def ofCaseName? (name : String) : Option Severity :=
  if name = "Warning" then some warning else none

end Severity

instance : Interchange Severity where
  toJson s := .bare s.caseName
  ofJson? room j := (j.bareName? room).bind Severity.ofCaseName?

namespace Diagnostic

/-- A hint as JSON. -/
def hintToJson : Option String → Json
  | none => .null
  | some hint => .string (some hint)

/-- Reads a hint that may be missing. -/
def hintOfJson? : Option Json → Option (Option String)
  | none => some none
  | some .null => some none
  | some j => j.toText?.map some

/-- A diagnostic as JSON. -/
def toJson (d : Diagnostic) : Json :=
  .record
    [("severity", Interchange.toJson d.severity), ("message", .string (some d.message)),
      ("hint", hintToJson d.hint)]

/-- Reads a diagnostic. -/
def ofJson? (room : Nat) (j : Json) : Option Diagnostic := do
  let room ← Json.opened? room
  match ← j.fields? ["severity", "message", "hint"] with
  | [some severity, some message, hint] =>
    some ⟨← Interchange.ofJson? room severity, ← message.toText?, ← hintOfJson? hint⟩
  | _ => none

end Diagnostic

instance : Interchange Diagnostic := ⟨Diagnostic.toJson, Diagnostic.ofJson?⟩

end SolidOps
