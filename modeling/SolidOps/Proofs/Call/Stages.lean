import SolidOps.Call
import SolidOps.Proofs.Binding.Placing

/-!
# The stages of a call

A call goes through five stages: its name is looked up, its arguments are evaluated, missing
parameters are found, the settings are read, and the children are asked for.  Each can be the last
one, and each leaves its own prefix of diagnostics behind.

* `KeywordTable.lookup?_builtin_eq_some_iff`: the registry knows the keywords and nothing else.
* `Operator.perform_evaluate_eq_ok_iff`: a call succeeds when all stages do, in any state.
* `Operator.perform_evaluate_of_error`, `Operator.perform_evaluate_of_ok`: how a call ends when its
  arguments cannot be bound, and what it comes to when they can.
* **`instantiate_stages`** is the whole order of effects.

That children are *not* asked for is said by leaving them arbitrary: they are an action on the
context, free to report and to fail, and the outcome is the same for all of them.
-/

namespace SolidOps

/-! ## The registry -/

namespace KeywordTable

lemma builtin_entries : builtin.entries =
    [("glide", .glide), ("hull", .hull), ("minkowski", .minkowski), ("resize", .resize),
      ("subdiv", .subdivision)] := by
  decide

/-- A name is looked up successfully exactly when it is the keyword of the operator found. -/
lemma lookup?_builtin_eq_some_iff {name : String} {op : Operator} :
    builtin.lookup? name = some op ↔ name = op.keyword := by
  rw [lookup?, builtin_entries]
  constructor
  · intro h
    obtain ⟨before, _, heq, _⟩ := List.lookup_eq_some_iff.mp h
    have hmem : (name, op) ∈ [("glide", Operator.glide), ("hull", .hull),
        ("minkowski", .minkowski), ("resize", .resize), ("subdiv", .subdivision)] := by
      rw [heq]
      simp
    fin_cases hmem <;> rfl
  · rintro rfl
    cases op <;> rfl

lemma lookup?_builtin_eq_none {name : String} (h : ∀ op : Operator, name ≠ op.keyword) :
    builtin.lookup? name = none := by
  rw [Option.eq_none_iff_forall_ne_some]
  exact fun op hop => h op (lookup?_builtin_eq_some_iff.mp hop)

end KeywordTable

/-- The settings read for an operator are settings of that operator. -/
lemma Settings.operator_ofBindings (op : Operator) (b : Bindings) :
    (Settings.ofBindings op b).1.operator = op := by
  cases op <;> rfl

/-! ## Evaluating a call site -/

section Success

variable {σ ε : Type} [Sink σ] [Evaluator σ ε]

lemma instantiate_of_keyword (op : Operator) (args : List (Argument ε))
    (children : Run σ (List Node)) :
    instantiate ⟨op.keyword, args, children⟩ = op.evaluate ⟨op.keyword, args, children⟩ := by
  rw [instantiate, KeywordTable.lookup?_builtin_eq_some_iff.mpr rfl]

/-- A call that succeeds bound its arguments, read its settings from the bindings and was given its
children, one after the other. -/
lemma Operator.perform_evaluate_eq_ok_iff {op : Operator} {site : CallSite σ ε} {s t : σ}
    {o : Operation} :
    (op.evaluate site).perform s = (.ok o, t) ↔
      ∃ b u, (bind op.keyword op.signature site.arguments).perform s = (.ok b, u) ∧
        site.children.perform ((Settings.ofBindings op b).2.foldl (fun v d => Sink.report d v) u) =
          (.ok o.children, t) ∧
        o.settings = (Settings.ofBindings op b).1 := by
  rw [Operator.evaluate, Run.perform_bind_eq_ok_iff]
  refine exists_congr fun b => exists_congr fun u => and_congr_right fun _ => ?_
  rw [Run.perform_bind_of_ok (Run.perform_reportAll _ u), Run.perform_bind_eq_ok_iff]
  constructor
  · rintro ⟨nodes, v, hchildren, ho⟩
    cases ho
    exact ⟨hchildren, rfl⟩
  · rintro ⟨hchildren, hsettings⟩
    exact ⟨o.children, t, hchildren, by rw [← hsettings, Run.perform_pure]⟩

end Success

section Evaluation

variable {ε : Type} [Evaluator Context ε]

/-- A name that is no keyword ends the call at once. -/
lemma perform_instantiate_of_unknown (site : CallSite Context ε) (c : Context)
    (h : ∀ op : Operator, site.name ≠ op.keyword) :
    (instantiate site).perform c = (.error (.unknownOperator site.name), c) := by
  rw [instantiate, KeywordTable.lookup?_builtin_eq_none h, Run.perform_throw]

variable [ScopedEvaluator ε] {op : Operator}

/-- The binding of a call's arguments to the parameters of an operator. -/
def CallSite.binding (site : CallSite Context ε) (op : Operator) : Run Context Bindings :=
  bind op.keyword op.signature site.arguments

lemma CallSite.perform_binding (site : CallSite Context ε) (op : Operator) (c : Context) :
    (site.binding op).perform c =
      ((site.binding op).outcome c.scope, c.extend ((site.binding op).reports c.scope)) :=
  (Binding.bind_readings op.keyword op.signature site.arguments).1 c

/-- A call whose arguments cannot be bound ends there, with the diagnostics of the binding. -/
lemma Operator.perform_evaluate_of_error (site : CallSite Context ε) {c : Context}
    {e : CallError} (h : (site.binding op).outcome c.scope = .error e) :
    (op.evaluate site).perform c = (.error e, c.extend ((site.binding op).reports c.scope)) := by
  have hbind := site.perform_binding op c
  rw [h] at hbind
  exact Run.perform_bind_of_error hbind _

/-- A call whose arguments are bound reports what reading the settings reports, and then it is up
to the children. -/
lemma Operator.perform_evaluate_of_ok (site : CallSite Context ε) {c : Context} {b : Bindings}
    (h : (site.binding op).outcome c.scope = .ok b) :
    (op.evaluate site).perform c =
      (site.children >>= fun nodes => pure ⟨(Settings.ofBindings op b).1, nodes⟩).perform
        (c.extend ((site.binding op).reports c.scope ++ (Settings.ofBindings op b).2)) := by
  have hbind := site.perform_binding op c
  rw [h] at hbind
  refine (Run.perform_bind_of_ok hbind _).trans ?_
  refine (Run.perform_bind_of_ok (Run.perform_reportAll _ _) _).trans ?_
  rw [Context.foldl_report, Context.extend_extend]
  rfl

/-- What a call of an operator comes to for children that are given: it succeeds when binding does
and the children are had, and its diagnostics are those of binding and, once the arguments are
bound, those of reading the settings. -/
lemma Operator.perform_instantiate_keyword (op : Operator) (args : List (Argument ε))
    (children : Except CallError (List Node)) (c : Context) :
    let binding : Run Context Bindings := bind op.keyword op.signature args
    (instantiate ⟨op.keyword, args, MonadExcept.ofExcept children⟩).perform c =
      (binding.outcome c.scope >>= fun b =>
          children.map (Operation.mk (Settings.ofBindings op b).1),
        c.extend (binding.reports c.scope ++ Run.reportsAfter (binding.outcome c.scope) fun b =>
          (Settings.ofBindings op b).2)) := by
  intro binding
  let site : CallSite Context ε := ⟨op.keyword, args, MonadExcept.ofExcept children⟩
  rw [instantiate_of_keyword]
  cases h : binding.outcome c.scope with
  | error e =>
      rw [Operator.perform_evaluate_of_error site h, Run.reportsAfter_error, List.append_nil]
      rfl
  | ok b =>
      rw [Operator.perform_evaluate_of_ok site h, Run.reportsAfter_ok]
      cases children with
      | ok nodes => rfl
      | error e => rfl

/-- **The order of effects and errors of a call.**

A name that is no keyword is the error, and nothing is reported, whatever the arguments and the
children are.  A keyword calls its operator.  When the arguments cannot be bound, the error is that
of the binding and so are the diagnostics, whatever the children are.  When they can, the
diagnostics of reading the settings follow, whether the children then fail or not; and when they do
not, the operation has the settings read, the children as given and the keyword of its operator for
a name. -/
theorem instantiate_stages (name : String) (args : List (Argument ε)) (c : Context) :
    (∀ op : Operator, KeywordTable.builtin.lookup? name = some op ↔ name = op.keyword) ∧
    ((∀ op : Operator, name ≠ op.keyword) → ∀ children : Run Context (List Node),
      (instantiate ⟨name, args, children⟩).perform c = (.error (.unknownOperator name), c)) ∧
    (∀ op : Operator, name = op.keyword → ∀ children : Run Context (List Node),
      (instantiate ⟨name, args, children⟩).perform c =
        (op.evaluate ⟨name, args, children⟩).perform c) ∧
    ∀ op : Operator,
      let binding : Run Context Bindings := bind op.keyword op.signature args
      binding.perform c = (binding.outcome c.scope, c.extend (binding.reports c.scope)) ∧
      (∀ e, binding.outcome c.scope = .error e → ∀ children : Run Context (List Node),
        (op.evaluate ⟨name, args, children⟩).perform c =
          (.error e, c.extend (binding.reports c.scope))) ∧
      ∀ b, binding.outcome c.scope = .ok b →
        let reports := binding.reports c.scope ++ (Settings.ofBindings op b).2
        (∀ e, (op.evaluate ⟨name, args, throw e⟩).perform c = (.error e, c.extend reports)) ∧
        ∀ nodes, ∃ o : Operation,
          (op.evaluate ⟨name, args, pure nodes⟩).perform c = (.ok o, c.extend reports) ∧
            o.settings = (Settings.ofBindings op b).1 ∧ o.children = nodes ∧
            o.operator = op ∧ o.name = op.keyword := by
  refine ⟨fun op => KeywordTable.lookup?_builtin_eq_some_iff, ?_, ?_, fun op => ⟨?_, ?_, ?_⟩⟩
  · exact fun h children => perform_instantiate_of_unknown ⟨name, args, children⟩ c h
  · rintro op rfl children
    rw [instantiate_of_keyword]
  · exact (Binding.bind_readings op.keyword op.signature args).1 c
  · intro e he children
    exact Operator.perform_evaluate_of_error ⟨name, args, children⟩ he
  · intro b hb
    refine ⟨fun e => ?_, fun nodes => ?_⟩
    · rw [Operator.perform_evaluate_of_ok ⟨name, args, throw e⟩ hb]
      rfl
    · refine ⟨⟨(Settings.ofBindings op b).1, nodes⟩, ?_, rfl, rfl, ?_, ?_⟩
      · rw [Operator.perform_evaluate_of_ok ⟨name, args, pure nodes⟩ hb]
        rfl
      · exact Settings.operator_ofBindings op b
      · exact congrArg Operator.keyword (Settings.operator_ofBindings op b)

/-- A call of which every stage has something to say: an argument is ignored, the level is below
zero, and then the children fail. -/
theorem instantiate_stages_of_failing_children :
    (Operator.subdivision.evaluate
        ⟨"subdiv", ([⟨some "level", .expression (.literal (.number ⟨0xBFF0000000000000⟩))⟩,
          ⟨some "depth", .failing "not evaluated"⟩] : List (Argument (Fallible Expression))),
          throw (.unknownOperator "cube")⟩).perform (Context.ofScope Scope.empty) =
      (.error (.unknownOperator "cube"), ⟨Scope.empty,
        [.warning "subdiv(): ignoring unknown argument 'depth'", Resolution.negativeLevel]⟩) := by
  have hbind : (bind Operator.subdivision.keyword Operator.subdivision.signature
      ([⟨some "level", .expression (.literal (.number ⟨0xBFF0000000000000⟩))⟩,
        ⟨some "depth", .failing "not evaluated"⟩] : List (Argument (Fallible Expression))) :
        Run Context Bindings).outcome Scope.empty =
      .ok ⟨[("level", .number ⟨0xBFF0000000000000⟩), ("type", .undefined),
        ("convexity", .undefined)]⟩ := rfl
  exact (((instantiate_stages "subdiv" _ (Context.ofScope Scope.empty)).2.2.2 .subdivision).2.2 _
    hbind).1 (.unknownOperator "cube")

end Evaluation

end SolidOps
