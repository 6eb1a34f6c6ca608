import SolidOps.Operator
import SolidOps.Run

/-!
# Binding arguments to parameters

A call supplies arguments, some by name and some by position; an operator declares parameters.
Binding decides which argument goes to which parameter and evaluates those that go to one.

**Where arguments go.**  A named argument goes to the first slot declared under its name, and it
claims that slot wherever in the call it stands.  Positional arguments take the slots that nothing
claims, from left to right.  So the destination of an argument depends on the names of the whole
call, but not on any value, and `routes` computes all of them beforehand.

**What happens to them.**  `place` goes through the arguments in the order of the call.  An argument
with a slot is evaluated and put there; when the slot was taken, the later value stays and a
warning says so.  An argument without a slot is not evaluated; a warning says what was ignored.
The first evaluation that fails ends the binding.

**What is left open.**  Afterwards every slot without a value is `undef`, except that a required
one makes the binding fail (`complete`).

The result, `Bindings`, has a value for every declared parameter.
-/

namespace SolidOps

/-! ## Arguments and bindings -/

/-- An argument as the call has it; without a name it is positional. -/
structure Argument (ε : Type) where
  name : Option String
  expression : ε

/-- The value of every declared parameter, in the order of the signature. -/
structure Bindings where
  entries : List (String × Value)

namespace Bindings

/-- The bindings of no parameters. -/
def empty : Bindings := ⟨[]⟩

instance : Inhabited Bindings := ⟨empty⟩

/-- The value bound to a name; `undef` when it is not declared.  Of parameters that share a name
the first one counts. -/
def get (b : Bindings) (name : String) : Value := (b.entries.lookup name).getD .undefined

/-- The declared names in order. -/
def names (b : Bindings) : List String := b.entries.map Prod.fst

/-- The number of parameters. -/
def size (b : Bindings) : Nat := b.entries.length

/-- Whether nothing was declared. -/
def isEmpty (b : Bindings) : Bool := b.entries.isEmpty

end Bindings

namespace Binding

/-! ## Destinations -/

/-- Where an argument goes. -/
inductive Destination
  /-- To the slot its name stands for. -/
  | declared (name : String) (slot : Nat)
  /-- To a slot left for positional arguments. -/
  | positional (slot : Nat)
  /-- Nowhere: its name is not declared. -/
  | unknown (name : String)
  /-- Nowhere: no slot is left for it. -/
  | surplus
deriving DecidableEq

/-- Whether some argument is named after the parameter of a slot. -/
def claims (s : Signature) (names : List (Option String)) (slot : Nat) : Bool :=
  names.any fun name => name.bind s.slot? == some slot

/-- The slots left for positional arguments, in order. -/
def openSlots (s : Signature) (names : List (Option String)) : List Nat :=
  (List.range s.length).filter fun slot => !claims s names slot

/-- The destinations of a list of arguments, given the slots still open to positional ones. -/
def routes (s : Signature) : List Nat → List (Option String) → List Destination
  | _, [] => []
  | slots, some name :: names =>
    (match s.slot? name with
      | some slot => .declared name slot
      | none => .unknown name) :: routes s slots names
  | slot :: slots, none :: names => .positional slot :: routes s slots names
  | [], none :: names => .surplus :: routes s [] names

/-- The destinations of the arguments of a call. -/
def destinations (s : Signature) (names : List (Option String)) : List Destination :=
  routes s (openSlots s names) names

/-! ## Warnings -/

/-- A slot was given a value before. -/
def repeatedArgument (operator name : String) : String :=
  operator ++ "(): argument '" ++ name ++ "' supplied more than once"

/-- No parameter is declared under a name. -/
def unknownArgument (operator name : String) : String :=
  operator ++ "(): ignoring unknown argument '" ++ name ++ "'"

/-- There is no slot for a positional argument. -/
def surplusArgument (operator : String) : String :=
  operator ++ "(): ignoring extra positional argument"

/-! ## Placing values -/

/-- The values placed so far, by slot. -/
abbrev Slots := List (Option Value)

/-- Whether a slot holds a value. -/
def Slots.isFilled (slots : Slots) (slot : Nat) : Bool := (slots[slot]?).join.isSome

section Placing

variable {σ ε : Type} [Sink σ] [Evaluator σ ε]

/-- Evaluates the arguments that have a slot and puts their values there, in the order of the
call. -/
def place (operator : String) : List (Destination × ε) → Slots → Run σ Slots
  | [], slots => pure slots
  | (.declared name slot, e) :: rest, slots => do
    let value ← Evaluator.evaluate e
    if slots.isFilled slot then Run.warn (repeatedArgument operator name)
    place operator rest (slots.set slot (some value))
  | (.positional slot, e) :: rest, slots => do
    let value ← Evaluator.evaluate e
    place operator rest (slots.set slot (some value))
  | (.unknown name, _) :: rest, slots => do
    Run.warn (unknownArgument operator name)
    place operator rest slots
  | (.surplus, _) :: rest, slots => do
    Run.warn (surplusArgument operator)
    place operator rest slots

end Placing

/-- Gives every parameter its value, `undef` where the slot is empty; the first required parameter
with an empty slot is an error. -/
def complete (operator : String) : Signature → Slots → Except CallError (List (String × Value))
  | p :: ps, slot :: slots =>
    match slot with
    | some value => (complete operator ps slots).map ((p.name, value) :: ·)
    | none =>
      if p.required then .error (.missingArgument p.name operator)
      else (complete operator ps slots).map ((p.name, .undefined) :: ·)
  | _, _ => .ok []

end Binding

/-! ## Binding -/

/-- Binds the arguments of a call to a signature.  The name of the operator appears in warnings and
errors only. -/
def bind {σ ε : Type} [Sink σ] [Evaluator σ ε] (operator : String) (s : Signature)
    (arguments : List (Argument ε)) : Run σ Bindings := do
  let routed := Binding.destinations s (arguments.map Argument.name)
  let slots ← Binding.place operator (routed.zip (arguments.map Argument.expression))
    (List.replicate s.length none)
  match Binding.complete operator s slots with
  | .ok entries => pure ⟨entries⟩
  | .error e => throw e

end SolidOps
