/-!
# Errors of a call

What stops a call for good.  Each constructor is a cause; `CallError.message` is its wording.
-/

namespace SolidOps

/-- Why a call, a registration or an evaluation failed. -/
inductive CallError
  /-- No argument reached a required parameter of `operator`. -/
  | missingArgument (parameter operator : String)
  /-- No operator goes by this name. -/
  | unknownOperator (name : String)
  /-- The keyword is already taken. -/
  | keywordTaken (name : String)
  /-- An expression, or something evaluated on behalf of the call, failed for a reason of its
  own. -/
  | evaluationFailed (reason : String)
deriving DecidableEq

namespace CallError

/-- The wording of an error. -/
def message : CallError → String
  | missingArgument parameter operator =>
    "Undefined variable '" ++ parameter ++ "' in call to " ++ operator ++ "()"
  | unknownOperator name => "Unknown module: " ++ name
  | keywordTaken name => "Builtin already registered: " ++ name
  | evaluationFailed reason => "Expression error: " ++ reason

end CallError

end SolidOps
