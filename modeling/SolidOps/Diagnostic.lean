/-!
# Diagnostics

A problem that does not stop anything is reported and passed over.  A diagnostic is one such
report: a message and, where there is something to suggest, a hint.  What cannot be passed over is
a `CallError` instead.

A `Sink` is whatever collects diagnostics in the order of their reports.
-/

namespace SolidOps

/-- How serious a diagnostic is. -/
inductive Severity
  | warning
deriving DecidableEq

/-- A report of a problem that was passed over. -/
structure Diagnostic where
  severity : Severity
  message : String
  hint : Option String
deriving DecidableEq

namespace Diagnostic

/-- A warning without a hint. -/
def warning (message : String) : Diagnostic := ⟨.warning, message, none⟩

/-- The same diagnostic with a hint. -/
def withHint (d : Diagnostic) (hint : String) : Diagnostic := { d with hint := some hint }

end Diagnostic

/-- A state that diagnostics can be added to. -/
class Sink (σ : Type) where
  /-- Adds one diagnostic after those already there. -/
  report : Diagnostic → σ → σ

end SolidOps
