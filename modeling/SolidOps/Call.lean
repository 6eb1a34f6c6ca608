import SolidOps.KeywordTable
import SolidOps.Node
import SolidOps.Resolution

/-!
# Calls

A call of an operator binds its arguments, reads the settings from the bindings, then asks for its
children and makes an operation of the two.  The steps are in this order, and each can be the last:
a call that cannot be bound never asks for its children.

* `CallSite` is a call as an operator sees it: the name it was called by, the arguments, and a way
  to get the children.
* `Operator.evaluate` evaluates a call site for a given operator; `instantiate` looks the operator
  up under the name of the call first.
* `CallTree` is a tree of calls over finished nodes.  `CallTree.build` evaluates it from the leaves
  up, children from left to right, all in one state.
-/

namespace SolidOps

/-! ## Call sites -/

/-- A call as an operator sees it. -/
structure CallSite (σ ε : Type) where
  name : String
  arguments : List (Argument ε)
  /-- Gives the children when they are asked for. -/
  children : Run σ (List Node)

section Evaluation

variable {σ ε : Type} [Sink σ] [Evaluator σ ε]

/-- Evaluates a call site.  Errors of the binding and of the children are passed on unchanged. -/
def Operator.evaluate (op : Operator) (site : CallSite σ ε) : Run σ Operation := do
  let bindings ← bind op.keyword op.signature site.arguments
  let (settings, reports) := Settings.ofBindings op bindings
  Run.reportAll reports
  let children ← site.children
  pure ⟨settings, children⟩

/-- Evaluates a call site for the operator that its name calls. -/
def instantiate (site : CallSite σ ε) : Run σ Operation :=
  match KeywordTable.builtin.lookup? site.name with
  | some op => op.evaluate site
  | none => throw (.unknownOperator site.name)

end Evaluation

/-! ## Call trees -/

/-- What a call is directed to. -/
inductive Target
  /-- To whatever operator is registered under a name. -/
  | named (name : String)
  /-- To an operator itself, with no name looked up. -/
  | operator (op : Operator)

/-- A call over calls and finished nodes. -/
inductive CallTree (ε : Type)
  | node (finished : Node)
  /-- A call; with a `failure`, its children are built but cannot be had when it asks for them. -/
  | call (target : Target) (arguments : List (Argument ε)) (children : List (CallTree ε))
      (failure : Option String)

/-- The topmost call of a tree. -/
structure Call (ε : Type) where
  target : Target
  arguments : List (Argument ε)
  children : List (CallTree ε)
  failure : Option String

section Building

variable {σ ε : Type} [Sink σ] [Evaluator σ ε]

/-- Evaluates one call whose children are already built. -/
def Target.invoke (target : Target) (arguments : List (Argument ε)) (children : List Node)
    (failure : Option String) : Run σ Operation :=
  let given : Run σ (List Node) :=
    match failure with
    | some reason => throw (.evaluationFailed reason)
    | none => pure children
  match target with
  | .named name => instantiate ⟨name, arguments, given⟩
  | .operator op => op.evaluate ⟨op.keyword, arguments, given⟩

mutual

/-- Builds the node of a tree. -/
def CallTree.build : CallTree ε → Run σ Node
  | .node finished => pure finished
  | .call target arguments children failure => do
    let nodes ← CallTree.buildAll children
    let operation ← target.invoke arguments nodes failure
    pure operation.toNode

/-- Builds the nodes of several trees, from left to right. -/
def CallTree.buildAll : List (CallTree ε) → Run σ (List Node)
  | [] => pure []
  | tree :: trees => do
    let node ← CallTree.build tree
    let nodes ← CallTree.buildAll trees
    pure (node :: nodes)

end

/-- Builds the operation of a call. -/
def Call.build (c : Call ε) : Run σ Operation := do
  let nodes ← CallTree.buildAll c.children
  c.target.invoke c.arguments nodes c.failure

end Building

end SolidOps
