import SolidOps.Session
import SolidOps.Proofs.Call.Trees
import SolidOps.Proofs.Context.Uses

/-!
# The context of a session

A session takes steps, and many of them use its context.  Which uses a step makes is settled by the
step and the scope it is taken in: most steps are one use or none, and a tree of calls is its calls
in post-order, each as if it had no children, up to the first one that fails.

* `Step.uses` lists the uses of a step, `Session.uses` those of a run of steps.
* `Session.context_step` says that a step leaves the context as its uses do, whether it succeeds or
  fails.
* `Session.diagnostics_take` says that what a step gives as its diagnostics is what it added.

So **a session is a history of its context** (`Session.context_after`): whatever is known of a
context after any uses holds of the context of a session after any steps.
-/

namespace SolidOps

/-! ## The uses of a step -/

/-- The name that a call is looked up by. -/
def Target.name : Target → String
  | .named name => name
  | .operator op => op.keyword

/-- A call without children as a use of a context. -/
def Call.use (call : Call StepExpression) : Context.Use :=
  .instantiate call.target.name call.arguments
    (match call.failure with
    | some reason => .error (.evaluationFailed reason)
    | none => .ok [])

/-- The calls that are made when they are to be made one after another: all of them, or those up to
the first one that fails. -/
def Call.made (scope : Scope) : List (Call StepExpression) → List (Call StepExpression)
  | [] => []
  | call :: calls =>
    match (call.build : Run Context Operation).outcome scope with
    | .ok _ => call :: made scope calls
    | .error _ => [call]

/-- A call as a tree. -/
def Call.tree {ε : Type} (call : Call ε) : CallTree ε :=
  .call call.target call.arguments call.children call.failure

/-- The uses that a step makes of the context, in a given scope. -/
def Step.uses (scope : Scope) : Step → List Context.Use
  | .openLevel => [.change .openLevel]
  | .closeLevel => [.change .closeLevel]
  | .define name value => [.change (.define name value)]
  | .evaluate e => [.evaluate e]
  | .bind operator signature arguments => [.bind operator signature arguments]
  | .call c => (Call.made scope c.tree.calls).map Call.use
  | .report d => [.report d]
  | .find _ | .outline _ _ | .messages | .register _ _ | .registerAll | .lookUp _ | .table => []

/-! ## Calls as uses -/

section Calls

variable {ε : Type}

mutual

lemma CallTree.children_of_mem_calls : ∀ (tree : CallTree ε) {c : Call ε},
    c ∈ tree.calls → c.children = []
  | .node finished, c, h => by cases h
  | .call target args children failure, c, h => by
      rw [CallTree.calls, List.mem_append, List.mem_singleton] at h
      rcases h with h | rfl
      · exact CallTree.children_of_mem_callsOfAll children h
      · rfl

lemma CallTree.children_of_mem_callsOfAll : ∀ (trees : List (CallTree ε)) {c : Call ε},
    c ∈ CallTree.callsOfAll trees → c.children = []
  | [], c, h => by cases h
  | tree :: trees, c, h => by
      rw [CallTree.callsOfAll, List.mem_append] at h
      rcases h with h | h
      · exact CallTree.children_of_mem_calls tree h
      · exact CallTree.children_of_mem_callsOfAll trees h

end

/-- A call without children is looked up by name, also when it is directed to its operator. -/
lemma Target.invoke_nil {σ : Type} [Sink σ] [Evaluator σ ε] (target : Target)
    (args : List (Argument ε)) (failure : Option String) :
    (target.invoke args [] failure : Run σ Operation) =
      instantiate ⟨target.name, args, MonadExcept.ofExcept (match failure with
        | some reason => .error (.evaluationFailed reason)
        | none => .ok [])⟩ := by
  cases target with
  | named name => cases failure <;> rfl
  | operator op =>
      rw [Target.name, instantiate_of_keyword]
      cases failure <;> rfl

/-- **A call without children is a use of the context.** -/
lemma Call.perform_use {call : Call StepExpression} (h : call.children = []) (c : Context) :
    (call.use.run.perform c).2 = ((call.build : Run Context Operation).perform c).2 := by
  have hbuild : (call.build : Run Context Operation) =
      call.target.invoke call.arguments [] call.failure := by
    rw [Call.build, h, CallTree.buildAll, pure_bind]
  rw [hbuild, Target.invoke_nil, Call.use, Context.Use.run]
  exact Run.perform_bind_pure_snd _ _ c

/-- Calls that are made one after another leave the context as their uses do. -/
lemma Call.perform_performAll {calls : List (Call StepExpression)}
    (h : ∀ call ∈ calls, call.children = []) (c : Context) :
    ((Call.performAll calls : Run Context Unit).perform c).2 =
      c.after ((Call.made c.scope calls).map Call.use) := by
  induction calls generalizing c with
  | nil => rfl
  | cons call calls ih =>
      rw [List.forall_mem_cons] at h
      have huse := call.perform_use h.1 c
      have hbuild := call.scoped_build c
      rw [Call.performAll, Call.made]
      cases hcall : (call.build : Run Context Operation).outcome c.scope with
      | ok o =>
          rw [hcall] at hbuild
          rw [hbuild] at huse
          rw [Run.perform_bind_of_ok hbuild, ih h.2, Context.extend_scope]
          show _ = ((call.use.run.perform c).2).after _
          rw [huse]
      | error e =>
          rw [hcall] at hbuild
          rw [hbuild] at huse
          rw [Run.perform_bind_of_error hbuild]
          exact huse.symm

/-- **Building a call with its children leaves the context as the calls of its tree do.** -/
lemma Call.perform_build (call : Call StepExpression) (c : Context) :
    ((call.build : Run Context Operation).perform c).2 =
      c.after ((Call.made c.scope call.tree.calls).map Call.use) := by
  have htree : (call.tree.build : Run Context Node) =
      call.build >>= fun o => pure o.toNode := by
    rw [Call.tree, CallTree.build, Call.build, bind_assoc]
  have hcalls := call.tree.perform_performAll_calls c
  rw [← Call.perform_performAll fun _ => call.tree.children_of_mem_calls, hcalls, htree,
    Run.perform_bind_pure_snd]

end Calls

/-! ## Steps -/

namespace Session

/-- The context of a session is all that an action on it can change. -/
lemma perform_onContext {α : Type} (action : Run Context α) (s : Session) :
    (onContext action).perform s =
      ((action.perform s.context).1, { s with context := (action.perform s.context).2 }) := by
  rw [onContext, Run.perform_bind_of_ok (Run.perform_get s)]
  rcases h : action.perform s.context with ⟨r, c⟩
  cases r <;> rfl

lemma perform_onTable {α : Type} (action : Run KeywordTable α) (s : Session) :
    (onTable action).perform s =
      ((action.perform s.table).1, { s with table := (action.perform s.table).2 }) := by
  rw [onTable, Run.perform_bind_of_ok (Run.perform_get s)]
  rcases h : action.perform s.table with ⟨r, t⟩
  cases r <;> rfl

/-- A call is remembered when it succeeds, and has the same effect on the context either way. -/
lemma context_call (c : Call StepExpression) (s : Session) :
    ((step (.call c)).perform s).2.context = (c.build.perform s.context).2 := by
  have hcontext := perform_onContext c.build s
  rw [step]
  rcases hbuild : c.build.perform s.context with ⟨r, t⟩
  rw [hbuild] at hcontext
  cases r with
  | ok o =>
      rw [Run.perform_bind_of_ok hcontext]
      rfl
  | error e => rw [Run.perform_bind_of_error hcontext]

/-- **A step leaves the context as its uses do**, whether it succeeds or fails. -/
theorem context_step (x : Step) (s : Session) :
    ((step x).perform s).2.context = s.context.after (x.uses s.context.scope) := by
  cases x with
  | openLevel => rw [step, changeScope, perform_onContext]; rfl
  | closeLevel => rw [step, changeScope, perform_onContext]; rfl
  | define name value => rw [step, changeScope, perform_onContext]; rfl
  | find name => rfl
  | evaluate e =>
      rw [step, perform_onContext]
      exact (Run.perform_bind_pure_snd _ _ _).trans (Run.perform_bind_pure_snd _ _ _).symm
  | bind operator signature arguments =>
      rw [step, perform_onContext]
      exact (Run.perform_bind_pure_snd _ _ _).trans (Run.perform_bind_pure_snd _ _ _).symm
  | call c => exact (context_call c s).trans (c.perform_build s.context)
  | outline o refused =>
      rw [step]
      cases o.geometry (SolidOps.outline refused) <;> rfl
  | report d => rw [step, perform_onContext]; rfl
  | messages => rfl
  | register name op => rw [step, perform_onTable]; rfl
  | registerAll => rw [step, perform_onTable]; rfl
  | lookUp name => rfl
  | table => rfl

/-- **What a step gives as its diagnostics is what it added**: those there were stay before them. -/
theorem diagnostics_take (x : Step) (s : Session) :
    s.context.diagnostics ++ (take x s).2.1 = (take x s).2.2.context.diagnostics := by
  have hprefix : s.context.diagnostics <+: ((step x).perform s).2.context.diagnostics := by
    rw [context_step]
    exact Context.diagnostics_after _ _
  exact List.prefix_iff_eq_append.mp hprefix

/-! ## Runs of steps -/

/-- The session after several steps in order, whether they succeed or fail. -/
def after (s : Session) (steps : List Step) : Session :=
  steps.foldl (fun s x => (take x s).2.2) s

/-- The uses of several steps in order, each in the scope that it finds. -/
def uses (s : Session) : List Step → List Context.Use
  | [] => []
  | x :: steps => x.uses s.context.scope ++ uses (take x s).2.2 steps

/-- The diagnostics that several steps give. -/
def reports (s : Session) : List Step → List Diagnostic
  | [] => []
  | x :: steps => (take x s).2.1 ++ reports (take x s).2.2 steps

/-- **A session is a history of its context.**  After any steps, failed ones included, the context
is what its uses by these steps have left of it. -/
theorem context_after (s : Session) (steps : List Step) :
    (s.after steps).context = s.context.after (s.uses steps) := by
  induction steps generalizing s with
  | nil => rfl
  | cons x steps ih =>
      rw [uses, Context.after_append, ← context_step x s]
      exact ih _

/-- The diagnostics of a session are those it had and what its steps gave, in this order. -/
lemma diagnostics_after (s : Session) (steps : List Step) :
    (s.after steps).context.diagnostics = s.context.diagnostics ++ s.reports steps := by
  induction steps generalizing s with
  | nil => exact (List.append_nil _).symm
  | cons x steps ih =>
      rw [reports, ← List.append_assoc, diagnostics_take]
      exact ih _

/-- Steps that do not open or close a level or define a variable leave the scope as it is. -/
lemma scope_after (s : Session) {steps : List Step}
    (h : ∀ u ∈ s.uses steps, ∀ x, u ≠ .change x) :
    (s.after steps).context.scope = s.context.scope := by
  rw [context_after]
  exact Context.scope_after _ h

end Session

end SolidOps
