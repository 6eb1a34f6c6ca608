import SolidOps.Run
import SolidOps.Scope

/-!
# Expressions and their context

The expressions that stand as arguments of a call: constants, variables and vectors of expressions.
They are evaluated in a `Context`, which is a scope together with the diagnostics reported so far.

A variable that the scope does not know is reported and evaluates to `undef`; no expression fails.
A caller whose language has expressions that can fail puts a `Fallible` in the place of an
`Expression`.
-/

namespace SolidOps

/-- An argument expression. -/
inductive Expression
  | literal (value : Value)
  | var (name : String)
  | vector (items : List Expression)

/-- The variables that can be seen and the diagnostics reported, oldest first. -/
structure Context where
  scope : Scope
  diagnostics : List Diagnostic

namespace Context

/-- A context with a given scope and no diagnostics. -/
def ofScope (scope : Scope) : Context := ⟨scope, []⟩

instance : Inhabited Context := ⟨ofScope Scope.empty⟩

instance : Sink Context where
  report d c := { c with diagnostics := c.diagnostics ++ [d] }

/-- The messages of the diagnostics, oldest first. -/
def messages (c : Context) : List String := c.diagnostics.map Diagnostic.message

end Context

/-! ## Evaluation

Items of a vector are evaluated from left to right, so their diagnostics come in that order. -/

namespace Expression

/-- The value of a variable in the current scope. -/
def lookUp (name : String) : Run Context Value := do
  match (← get).scope.get? name with
  | some value => pure value
  | none =>
    Run.warn ("Ignoring unknown variable '" ++ name ++ "'")
    pure .undefined

mutual

/-- The value of an expression. -/
def evaluate : Expression → Run Context Value
  | literal value => pure value
  | var name => lookUp name
  | vector items => do
    let values ← evaluateItems items
    pure (.vector values)

/-- The values of the items of a vector. -/
def evaluateItems : List Expression → Run Context (List Value)
  | [] => pure []
  | item :: items => do
    let value ← evaluate item
    let values ← evaluateItems items
    pure (value :: values)

end

end Expression

instance : Evaluator Context Expression := ⟨Expression.evaluate⟩

/-! ## Expressions that fail -/

/-- An expression, or one that fails with a reason when it is evaluated. -/
inductive Fallible (ε : Type)
  | expression (e : ε)
  | failing (reason : String)

instance {σ ε : Type} [Evaluator σ ε] : Evaluator σ (Fallible ε) where
  evaluate
    | .expression e => Evaluator.evaluate e
    | .failing reason => throw (.evaluationFailed reason)

end SolidOps
