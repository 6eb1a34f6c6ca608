import SolidOps.Call
import SolidOps.Expression

/-!
# Sessions

A session works on one context, remembers the operations it has built and keeps a keyword table of
its own.  It is driven by steps; every step gives an answer or fails, and the session goes on
either way.  A failed step keeps what it reported, and the diagnostics that a step adds are part of
what it gives (`Session.take`).

The table of a session is only for registering and looking up.  Calls are always looked up in
`KeywordTable.builtin`.
-/

namespace SolidOps

/-- The expressions of a session's steps. -/
abbrev StepExpression := Fallible Expression

/-- What a session has. -/
structure Session where
  context : Context
  operations : List Operation
  table : KeywordTable

/-! ## Steps and answers -/

/-- One step of a session. -/
inductive Step
  | openLevel
  | closeLevel
  | define (name : String) (value : Value)
  | find (name : String)
  | evaluate (e : StepExpression)
  | bind (operator : String) (signature : Signature) (arguments : List (Argument StepExpression))
  | call (c : Call StepExpression)
  /-- Asks the outline of an operation; the outline of `refused` operators cannot be had. -/
  | outline (o : Operation) (refused : Option Operator)
  | report (d : Diagnostic)
  | messages
  | register (name : String) (op : Operator)
  | registerAll
  | lookUp (name : String)
  | table

/-- What a step gives. -/
inductive Answer
  /-- The number of open levels. -/
  | depth (levels : Nat)
  /-- What a name stands for, if anything. -/
  | found (value : Option Value)
  | value (v : Value)
  | bindings (b : Bindings)
  /-- An operation that was built and its place among those of the session. -/
  | built (index : Nat) (o : Operation)
  | outline (name : String) (children : List String)
  | done
  | messages (texts : List String)
  | table (t : KeywordTable)
  | operator (op : Option Operator)

/-! ## Outlines

The simplest geometry backend: it lists the names of the children. -/

/-- The names of an operation and of its children, unless the operator is refused. -/
def outline (refused : Option Operator) (o : Operation) : Except CallError (String × List String) :=
  if refused = some o.operator then
    .error (.evaluationFailed ("cannot mesh " ++ o.canonicalText))
  else .ok (o.name, o.children.map Node.name)

/-! ## Taking steps -/

namespace Session

/-- A session in a given scope. -/
def ofScope (scope : Scope) : Session := ⟨Context.ofScope scope, [], KeywordTable.empty⟩

instance : Inhabited Session := ⟨ofScope Scope.empty⟩

/-- Performs an action on the context of a session. -/
def onContext {α : Type} (action : Run Context α) : Run Session α := do
  let s ← get
  let (outcome, context) := action.perform s.context
  set { s with context := context }
  match outcome with
  | .ok a => pure a
  | .error e => throw e

/-- Performs an action on the keyword table of a session. -/
def onTable {α : Type} (action : Run KeywordTable α) : Run Session α := do
  let s ← get
  let (outcome, table) := action.perform s.table
  set { s with table := table }
  match outcome with
  | .ok a => pure a
  | .error e => throw e

/-- Changes the scope and gives its depth. -/
def changeScope (change : Scope → Scope) : Run Session Answer :=
  onContext do
    modify fun c => { c with scope := change c.scope }
    return .depth (← get).scope.depth

/-- Takes a step. -/
def step : Step → Run Session Answer
  | .openLevel => changeScope Scope.push
  | .closeLevel => changeScope Scope.pop
  | .define name value => changeScope fun s => s.define name value
  | .find name => return .found ((← get).context.scope.get? name)
  | .evaluate e => onContext do return .value (← Evaluator.evaluate e)
  | .bind operator signature arguments =>
    onContext do return .bindings (← SolidOps.bind operator signature arguments)
  | .call c => do
    let o ← onContext c.build
    let s ← get
    set { s with operations := s.operations ++ [o] }
    return .built s.operations.length o
  | .outline o refused =>
    match o.geometry (SolidOps.outline refused) with
    | .ok (name, children) => return .outline name children
    | .error e => throw e
  | .report d => onContext do
    Run.report d
    return .done
  | .messages => return .messages (← get).context.messages
  | .register name op => onTable do
    KeywordTable.register name op
    return .table (← get)
  | .registerAll => onTable do
    KeywordTable.registerAll
    return .table (← get)
  | .lookUp name => return .operator ((← get).table.lookup? name)
  | .table => return .table (← get).table

/-- Takes a step and gives its outcome, the diagnostics it added, and the session afterwards. -/
def take (taken : Step) (s : Session) : Except CallError Answer × List Diagnostic × Session :=
  let (outcome, s') := (step taken).perform s
  (outcome, s'.context.diagnostics.drop s.context.diagnostics.length, s')

end Session

end SolidOps
