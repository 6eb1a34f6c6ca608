import SolidOps.CallError
import SolidOps.Diagnostic
import SolidOps.Value

/-!
# Runs

Binding arguments, evaluating expressions and building nodes all act on a state that collects
diagnostics, and all can fail.  A `Run` is such an action.  When it fails, the state still holds
whatever was reported before the failure.

What evaluates an expression is left open: `Evaluator σ ε` says that expressions of type `ε` can be
evaluated in states of type `σ`.  Everything about operators is stated for an arbitrary evaluator,
so an evaluation may report diagnostics and may fail.
-/

namespace SolidOps

/-- An action on a state of type `σ` that gives an `α` or fails. -/
abbrev Run (σ α : Type) := ExceptT CallError (StateM σ) α

namespace Run

/-- Performs an action: its outcome and the state it leaves behind. -/
def perform {σ α : Type} (action : Run σ α) (s : σ) : Except CallError α × σ :=
  StateT.run (ExceptT.run action) s

/-- Reports a diagnostic. -/
def report {σ : Type} [Sink σ] (d : Diagnostic) : Run σ Unit := modify (Sink.report d)

/-- Reports a warning without a hint. -/
def warn {σ : Type} [Sink σ] (message : String) : Run σ Unit := report (Diagnostic.warning message)

/-- Reports several diagnostics in order. -/
def reportAll {σ : Type} [Sink σ] : List Diagnostic → Run σ Unit
  | [] => pure ()
  | d :: ds => do
    report d
    reportAll ds

end Run

/-- Evaluation of expressions of type `ε` in states of type `σ`. -/
class Evaluator (σ ε : Type) where
  evaluate : ε → Run σ Value

end SolidOps
