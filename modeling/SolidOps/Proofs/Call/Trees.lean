import SolidOps.Proofs.Call.Stages

/-!
# Building a tree of calls

`CallTree.build` builds the children of a call from left to right, all in one context, and then
makes the call.  The tree has no say in any of this: the build is the sequence of its calls in
post-order, each as if it had no children and nothing came before it.

* `CallTree.calls` lists the calls of a tree in post-order, without their children.
* `CallTree.build_forget`: but for the node that it gives, building a tree *is* performing that
  list of calls.  This holds for every state and every kind of expression.
* `CallTree.Mirrors` relates a tree to the node it gives: the same shape, and at every call the
  parameters, the name and the text that the call gives alone.

**`CallTree.build_compositional`** adds that the calls do not disturb each other where evaluation
sees only the scope.  A build succeeds when each of its calls does alone, and its diagnostics are
theirs, one after the other; when a call fails, the diagnostics end with those of that call.
-/

namespace SolidOps

variable {σ ε : Type}

/-! ## Calls without their children -/

/-- A call that has no children. -/
def Call.childless (target : Target) (args : List (Argument ε)) (failure : Option String) :
    Call ε :=
  ⟨target, args, [], failure⟩

mutual

/-- The calls of a tree in post-order, each without its children. -/
def CallTree.calls : CallTree ε → List (Call ε)
  | .node _ => []
  | .call target args children failure =>
    CallTree.callsOfAll children ++ [.childless target args failure]

/-- The calls of several trees, from left to right. -/
def CallTree.callsOfAll : List (CallTree ε) → List (Call ε)
  | [] => []
  | tree :: trees => CallTree.calls tree ++ CallTree.callsOfAll trees

end

section Sequence

variable [Sink σ] [Evaluator σ ε]

/-- Performs calls one after another, for their effects and errors. -/
def Call.performAll : List (Call ε) → Run σ Unit
  | [] => pure ()
  | call :: calls => call.build >>= fun _ => Call.performAll calls

lemma Call.performAll_append (xs ys : List (Call ε)) :
    (Call.performAll (xs ++ ys) : Run σ Unit) =
      Call.performAll xs >>= fun _ => Call.performAll ys := by
  induction xs with
  | nil => rw [List.nil_append, Call.performAll, pure_bind]
  | cons x xs ih => rw [List.cons_append, Call.performAll, Call.performAll, ih, bind_assoc]

/-- Other children make no other difference to a call than to be its children. -/
lemma Operator.evaluate_bind_pure (op : Operator) (name : String) (args : List (Argument ε))
    (children : Run σ (List Node)) (nodes : List Node) :
    (op.evaluate ⟨name, args, children >>= fun _ => pure nodes⟩ : Run σ Operation) =
      op.evaluate ⟨name, args, children⟩ >>= fun o => pure ⟨o.settings, nodes⟩ := by
  simp only [Operator.evaluate, bind_assoc, pure_bind]

lemma Target.invoke_eq (target : Target) (args : List (Argument ε)) (nodes : List Node)
    (failure : Option String) :
    (target.invoke args nodes failure : Run σ Operation) =
      target.invoke args [] failure >>= fun o => pure ⟨o.settings, nodes⟩ := by
  cases target with
  | operator op =>
      cases failure with
      | none => exact op.evaluate_bind_pure op.keyword args (pure []) nodes
      | some reason => exact op.evaluate_bind_pure op.keyword args (throw _) nodes
  | named name =>
      simp only [Target.invoke, instantiate]
      cases KeywordTable.builtin.lookup? name with
      | none => rfl
      | some op =>
          cases failure with
          | none => exact op.evaluate_bind_pure name args (pure []) nodes
          | some reason => exact op.evaluate_bind_pure name args (throw _) nodes

lemma Call.build_childless (target : Target) (args : List (Argument ε)) (failure : Option String) :
    ((Call.childless target args failure).build : Run σ Operation) =
      target.invoke args [] failure := by
  rw [Call.build, Call.childless, CallTree.buildAll, pure_bind]

/-- A call of a tree builds its children and is then made as if it had none. -/
lemma CallTree.build_call (target : Target) (args : List (Argument ε))
    (children : List (CallTree ε)) (failure : Option String) :
    ((CallTree.call target args children failure).build : Run σ Node) =
      CallTree.buildAll children >>= fun nodes =>
        (Call.childless target args failure).build >>= fun o =>
          pure (.operation o.settings nodes) := by
  rw [CallTree.build]
  refine congrArg _ (funext fun nodes => ?_)
  rw [Target.invoke_eq, Call.build_childless, bind_assoc]
  simp only [pure_bind, Operation.toNode]

mutual

/-- **Building a tree is performing its calls in post-order**, but for the node it gives. -/
lemma CallTree.build_forget : ∀ tree : CallTree ε,
    ((tree.build >>= fun _ => pure ()) : Run σ Unit) = Call.performAll tree.calls
  | .node finished => by rw [CallTree.build, CallTree.calls, pure_bind, Call.performAll]
  | .call target args children failure => by
      rw [CallTree.build_call, CallTree.calls, Call.performAll_append,
        ← CallTree.buildAll_forget children]
      simp only [bind_assoc, pure_bind, Call.performAll]

lemma CallTree.buildAll_forget : ∀ trees : List (CallTree ε),
    ((CallTree.buildAll trees >>= fun _ => pure ()) : Run σ Unit) =
      Call.performAll (CallTree.callsOfAll trees)
  | [] => by rw [CallTree.buildAll, CallTree.callsOfAll, pure_bind, Call.performAll]
  | tree :: trees => by
      rw [CallTree.buildAll, CallTree.callsOfAll, Call.performAll_append,
        ← CallTree.build_forget tree, ← CallTree.buildAll_forget trees]
      simp only [bind_assoc, pure_bind]

end

end Sequence

/-! ## Calls by themselves -/

section Alone

variable [Evaluator Context ε]

/-- The diagnostics of a list of calls, each performed alone. -/
def Call.reportsOfAll (calls : List (Call ε)) (scope : Scope) : List Diagnostic :=
  calls.flatMap fun call => (call.build : Run Context Operation).reports scope

/-- A call succeeds alone in a scope. -/
def Call.Succeeds (call : Call ε) (scope : Scope) : Prop :=
  ∃ o, (call.build : Run Context Operation).outcome scope = .ok o

/-- A list of calls succeeds throughout, or it has a first one that fails. -/
lemma Call.succeed_or_first_failure (calls : List (Call ε)) (scope : Scope) :
    (∀ call ∈ calls, call.Succeeds scope) ∨
      ∃ before call after e, calls = before ++ call :: after ∧
        (∀ b ∈ before, b.Succeeds scope) ∧
        (call.build : Run Context Operation).outcome scope = .error e := by
  induction calls with
  | nil => exact .inl (by simp)
  | cons call calls ih =>
      cases hcall : (call.build : Run Context Operation).outcome scope with
      | error e => exact .inr ⟨[], call, calls, e, rfl, by simp, hcall⟩
      | ok o =>
          have hsucceeds : call.Succeeds scope := ⟨o, hcall⟩
          rcases ih with hall | ⟨before, first, after, e, rfl, hbefore, hfirst⟩
          · exact .inl (List.forall_mem_cons.mpr ⟨hsucceeds, hall⟩)
          · exact .inr ⟨call :: before, first, after, e, rfl,
              List.forall_mem_cons.mpr ⟨hsucceeds, hbefore⟩, hfirst⟩

/-- A build and the sequence of its calls leave the same context, with the same error if there is
one. -/
lemma CallTree.perform_performAll_calls (tree : CallTree ε) (c : Context) :
    (Call.performAll tree.calls : Run Context Unit).perform c =
      ((tree.build.perform c).1.map fun _ => (), (tree.build.perform c).2) := by
  rw [← CallTree.build_forget, Run.perform_bind]
  rcases tree.build.perform c with ⟨r, c'⟩
  cases r <;> rfl

end Alone

/-! ## Builds are scoped -/

section Scoped

variable [Evaluator Context ε]

lemma Operator.scoped_evaluate [ScopedEvaluator ε] (op : Operator) (name : String)
    (args : List (Argument ε)) {children : Run Context (List Node)} (h : children.Scoped) :
    (op.evaluate ⟨name, args, children⟩).Scoped :=
  (Binding.bind_readings op.keyword op.signature args).1.bind fun _ =>
    (Run.scoped_reportAll _).bind fun _ => h.bind fun _ => Run.scoped_pure _

lemma Target.scoped_invoke [ScopedEvaluator ε] (target : Target) (args : List (Argument ε))
    (nodes : List Node) (failure : Option String) :
    (target.invoke args nodes failure : Run Context Operation).Scoped := by
  cases target with
  | operator op =>
      cases failure with
      | none => exact op.scoped_evaluate op.keyword args (Run.scoped_pure nodes)
      | some reason => exact op.scoped_evaluate op.keyword args (Run.scoped_throw _)
  | named name =>
      simp only [Target.invoke, instantiate]
      cases KeywordTable.builtin.lookup? name with
      | none => exact Run.scoped_throw _
      | some op =>
          cases failure with
          | none => exact op.scoped_evaluate name args (Run.scoped_pure nodes)
          | some reason => exact op.scoped_evaluate name args (Run.scoped_throw _)

mutual

lemma CallTree.scoped_build [ScopedEvaluator ε] :
    ∀ tree : CallTree ε, (tree.build : Run Context Node).Scoped
  | .node finished => Run.scoped_pure finished
  | .call target args children failure => by
      rw [CallTree.build]
      exact (CallTree.scoped_buildAll children).bind fun nodes =>
        (target.scoped_invoke args nodes failure).bind fun o => Run.scoped_pure o.toNode

lemma CallTree.scoped_buildAll [ScopedEvaluator ε] : ∀ trees : List (CallTree ε),
    (CallTree.buildAll trees : Run Context (List Node)).Scoped
  | [] => Run.scoped_pure []
  | tree :: trees => by
      rw [CallTree.buildAll]
      exact (CallTree.scoped_build tree).bind fun node =>
        (CallTree.scoped_buildAll trees).bind fun nodes => Run.scoped_pure _

end

variable [ScopedEvaluator ε]

lemma Call.scoped_build (call : Call ε) : (call.build : Run Context Operation).Scoped :=
  (CallTree.scoped_buildAll call.children).bind fun nodes =>
    call.target.scoped_invoke call.arguments nodes call.failure

/-! ## Performing calls one after another -/

/-- Calls that succeed alone succeed one after another. -/
lemma Call.perform_performAll_of_ok {calls : List (Call ε)} {c : Context}
    (h : ∀ call ∈ calls, call.Succeeds c.scope) :
    (Call.performAll calls : Run Context Unit).perform c =
      (.ok (), c.extend (Call.reportsOfAll calls c.scope)) := by
  induction calls generalizing c with
  | nil => simp [Call.performAll, Call.reportsOfAll]
  | cons call calls ih =>
      rw [List.forall_mem_cons] at h
      obtain ⟨⟨o, ho⟩, hcalls⟩ := h
      have hcall := call.scoped_build c
      rw [ho] at hcall
      rw [Call.performAll, Run.perform_bind_of_ok hcall,
        ih (c := c.extend _) hcalls, Context.extend_extend]
      rfl

/-- The first call that fails alone ends the sequence. -/
lemma Call.perform_performAll_of_error {before after : List (Call ε)} {call : Call ε}
    {c : Context} {e : CallError} (hbefore : ∀ b ∈ before, b.Succeeds c.scope)
    (hcall : (call.build : Run Context Operation).outcome c.scope = .error e) :
    (Call.performAll (before ++ call :: after) : Run Context Unit).perform c =
      (.error e, c.extend (Call.reportsOfAll (before ++ [call]) c.scope)) := by
  have hfail := call.scoped_build (c.extend (Call.reportsOfAll before c.scope))
  rw [Context.extend_scope, hcall, Context.extend_extend] at hfail
  rw [Call.performAll_append, Run.perform_bind_of_ok (Call.perform_performAll_of_ok hbefore),
    Call.performAll, Run.perform_bind_of_error hfail]
  simp [Call.reportsOfAll]

/-! ## The node of a tree -/

mutual

/-- A tree and the node it gives: where the tree has a call, the node has the parameters, the name
and the text that the call gives alone, and children in the places of its children. -/
inductive CallTree.Mirrors (scope : Scope) : CallTree ε → Node → Prop
  | node (finished : Node) : CallTree.Mirrors scope (.node finished) finished
  | call {target : Target} {args : List (Argument ε)} {children : List (CallTree ε)}
      {failure : Option String} {o : Operation} {settings : Settings} {nodes : List Node}
      (alone : ((Call.childless target args failure).build : Run Context Operation).outcome scope =
        .ok o)
      (parameters : settings = o.settings)
      (name : (Node.operation settings nodes).name = o.name)
      (text : (Node.operation settings nodes).canonicalText = o.canonicalText)
      (below : CallTree.MirrorsAll scope children nodes) :
      CallTree.Mirrors scope (.call target args children failure) (.operation settings nodes)

/-- Several trees and the nodes they give, one by one. -/
inductive CallTree.MirrorsAll (scope : Scope) : List (CallTree ε) → List Node → Prop
  | nil : CallTree.MirrorsAll scope [] []
  | cons {tree : CallTree ε} {trees : List (CallTree ε)} {node : Node} {nodes : List Node}
      (head : CallTree.Mirrors scope tree node) (tail : CallTree.MirrorsAll scope trees nodes) :
      CallTree.MirrorsAll scope (tree :: trees) (node :: nodes)

end

mutual

/-- A tree that is built gives a node of its shape. -/
lemma CallTree.mirrors_of_build : ∀ (tree : CallTree ε) {scope : Scope} {n : Node},
    (tree.build : Run Context Node).outcome scope = .ok n → tree.Mirrors scope n
  | .node finished, scope, n, h => by
      obtain rfl : finished = n := Except.ok.inj h
      exact .node finished
  | .call target args children failure, scope, n, h => by
      rw [CallTree.build_call, Run.outcome_bind_eq_ok_iff (CallTree.scoped_buildAll children)
        fun nodes => (Call.scoped_build _).bind fun o => Run.scoped_pure _] at h
      obtain ⟨nodes, hnodes, h⟩ := h
      rw [Run.outcome_bind_eq_ok_iff (Call.scoped_build _) fun o => Run.scoped_pure _] at h
      obtain ⟨o, ho, h⟩ := h
      obtain rfl : Node.operation o.settings nodes = n := Except.ok.inj h
      exact .call ho rfl rfl rfl (CallTree.mirrorsAll_of_buildAll children hnodes)

lemma CallTree.mirrorsAll_of_buildAll : ∀ (trees : List (CallTree ε)) {scope : Scope}
    {nodes : List Node}, (CallTree.buildAll trees : Run Context (List Node)).outcome scope =
      .ok nodes → CallTree.MirrorsAll scope trees nodes
  | [], scope, nodes, h => by
      obtain rfl : [] = nodes := Except.ok.inj h
      exact .nil
  | tree :: trees, scope, nodes, h => by
      rw [CallTree.buildAll, Run.outcome_bind_eq_ok_iff (CallTree.scoped_build tree)
        fun node => (CallTree.scoped_buildAll trees).bind fun nodes => Run.scoped_pure _] at h
      obtain ⟨node, hnode, h⟩ := h
      rw [Run.outcome_bind_eq_ok_iff (CallTree.scoped_buildAll trees)
        fun nodes => Run.scoped_pure _] at h
      obtain ⟨rest, hrest, h⟩ := h
      obtain rfl : node :: rest = nodes := Except.ok.inj h
      exact .cons (CallTree.mirrors_of_build tree hnode)
        (CallTree.mirrorsAll_of_buildAll trees hrest)

end

/-! ## Composition -/

/-- **Call trees are built compositionally.**  A build succeeds if and only if every call of the
tree succeeds alone in the same scope.  Then the node mirrors the tree, and the diagnostics added
are those of its calls alone, in post-order.  Otherwise the error is that of the first call in
post-order that fails alone, and the diagnostics added are those of the calls up to and including
it. -/
theorem CallTree.build_compositional (tree : CallTree ε) (c : Context) :
    ((∃ n, (tree.build.perform c).1 = .ok n) ↔ ∀ call ∈ tree.calls, call.Succeeds c.scope) ∧
    (∀ n c', tree.build.perform c = (.ok n, c') →
      tree.Mirrors c.scope n ∧ c' = c.extend (Call.reportsOfAll tree.calls c.scope)) ∧
    ∀ before call after e, tree.calls = before ++ call :: after →
      (∀ b ∈ before, b.Succeeds c.scope) →
      (call.build : Run Context Operation).outcome c.scope = .error e →
      tree.build.perform c =
        (.error e, c.extend (Call.reportsOfAll (before ++ [call]) c.scope)) := by
  have hsequence := tree.perform_performAll_calls c
  have hfailure : ∀ before call after e, tree.calls = before ++ call :: after →
      (∀ b ∈ before, b.Succeeds c.scope) →
      (call.build : Run Context Operation).outcome c.scope = .error e →
      tree.build.perform c =
        (.error e, c.extend (Call.reportsOfAll (before ++ [call]) c.scope)) := by
    intro before call after e hcalls hbefore hcall
    rw [hcalls, Call.perform_performAll_of_error hbefore hcall] at hsequence
    rcases hbuild : tree.build.perform c with ⟨r, c'⟩
    rw [hbuild, Prod.mk.injEq] at hsequence
    obtain ⟨hr, rfl⟩ := hsequence
    cases r with
    | ok n => cases hr
    | error e' =>
        obtain rfl : e = e' := Except.error.inj hr
        rfl
  have hsuccess : (∃ n, (tree.build.perform c).1 = .ok n) ↔
      ∀ call ∈ tree.calls, call.Succeeds c.scope := by
    constructor
    · rintro ⟨n, hn⟩
      rcases Call.succeed_or_first_failure tree.calls c.scope with h | h
      · exact h
      · obtain ⟨before, call, after, e, hcalls, hbefore, hcall⟩ := h
        rw [hfailure before call after e hcalls hbefore hcall] at hn
        cases hn
    · intro h
      rw [Call.perform_performAll_of_ok h] at hsequence
      rcases hbuild : tree.build.perform c with ⟨r, c'⟩
      rw [hbuild] at hsequence
      cases r with
      | ok n => exact ⟨n, rfl⟩
      | error e => cases (Prod.ext_iff.mp hsequence).1
  refine ⟨hsuccess, fun n c' hbuild => ⟨?_, ?_⟩, hfailure⟩
  · have hn := tree.scoped_build c
    rw [hbuild, Prod.mk.injEq] at hn
    exact CallTree.mirrors_of_build tree hn.1.symm
  · rw [Call.perform_performAll_of_ok (hsuccess.mp ⟨n, by rw [hbuild]⟩), hbuild] at hsequence
    exact (Prod.ext_iff.mp hsequence).2.symm

/-- Two trees with a call of `hull` on top.  In the first one the second call in post-order fails,
after a call that warns and before one that is never made.  In the second tree every call succeeds,
one with a finished node below it and one that is directed to its operator. -/
theorem CallTree.build_compositional_of_nested_calls :
    ((CallTree.call (.named "hull") [⟨none, .expression (.var "unknown")⟩]
        [.call (.named "subdiv") [⟨some "level", .expression (.var "n")⟩]
            [.node (.foreign "cube" "cube()")] none,
          .call (.named "glide") [⟨some "depth", .failing "not evaluated"⟩] [] none,
          .call (.named "sphere") [] [] none] none :
        CallTree (Fallible Expression)).build.perform (Context.ofScope Scope.empty) =
      (.error (.missingArgument "path" "glide"), ⟨Scope.empty,
        [.warning "Ignoring unknown variable 'n'",
          .warning "glide(): ignoring unknown argument 'depth'"]⟩)) ∧
    ((CallTree.call (.named "hull") [⟨none, .expression (.var "unknown")⟩]
        [.call (.named "subdiv") [⟨some "level", .expression (.var "n")⟩]
            [.node (.foreign "cube" "cube()")] none,
          .call (.operator .glide) [⟨none, .expression (.vector [.var "m"])⟩] [] none] none :
        CallTree (Fallible Expression)).build.perform (Context.ofScope Scope.empty) =
      (.ok (.operation .hull
          [.operation (.subdivision 0 1 .catmullClark) [.foreign "cube" "cube()"],
            .operation (.glide 0 (.vector [.undefined])) []]),
        ⟨Scope.empty, [.warning "Ignoring unknown variable 'n'",
          .warning "Ignoring unknown variable 'm'",
          .warning "hull(): ignoring extra positional argument"]⟩)) ∧
    CallTree.Mirrors Scope.empty
      (CallTree.call (.named "hull") [⟨none, .expression (.var "unknown")⟩]
        [.call (.named "subdiv") [⟨some "level", .expression (.var "n")⟩]
            [.node (.foreign "cube" "cube()")] none,
          .call (.operator .glide) [⟨none, .expression (.vector [.var "m"])⟩] [] none] none :
        CallTree (Fallible Expression))
      (.operation .hull
        [.operation (.subdivision 0 1 .catmullClark) [.foreign "cube" "cube()"],
          .operation (.glide 0 (.vector [.undefined])) []]) := by
  constructor
  · refine ((CallTree.build_compositional (ε := Fallible Expression) _ _).2.2
      [_] _ [_, _] _ rfl ?_ rfl).trans ?_
    · intro call hcall
      rw [List.mem_singleton.mp hcall]
      exact ⟨⟨.subdivision 0 1 .catmullClark, []⟩, rfl⟩
    · rfl
  · obtain ⟨hsucceeds, hbuilt, -⟩ := CallTree.build_compositional (ε := Fallible Expression)
      (.call (.named "hull") [⟨none, .expression (.var "unknown")⟩]
        [.call (.named "subdiv") [⟨some "level", .expression (.var "n")⟩]
            [.node (.foreign "cube" "cube()")] none,
          .call (.operator .glide) [⟨none, .expression (.vector [.var "m"])⟩] [] none] none)
      (Context.ofScope Scope.empty)
    obtain ⟨n, hn⟩ := hsucceeds.mpr fun call hcall => by
      fin_cases hcall <;> exact ⟨_, rfl⟩
    obtain ⟨hmirrors, hreports⟩ := hbuilt n _ (Prod.ext hn rfl)
    obtain rfl := Except.ok.inj hn
    exact ⟨Prod.ext rfl hreports, hmirrors⟩

end Scoped

end SolidOps
