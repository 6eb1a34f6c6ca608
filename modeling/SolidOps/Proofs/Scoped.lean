import SolidOps.Expression
import SolidOps.Proofs.Run

/-!
# Actions that see only the scope

Evaluating an expression, binding the arguments of a call and building a node all act on a
`Context`, and all share one trait: of the context they read nothing but the scope, the scope they
leave alone, and to the diagnostics they only add.  Such an action is called *scoped* here.

What a scoped action does is settled by what it does in a fresh context of the same scope:

* `Run.outcome` is the outcome there and `Run.reports` the diagnostics it leaves there;
* **`Run.Scoped`** says that from any context the outcome is the same and the reports come after
  the diagnostics already collected.

Scoped actions are closed under everything the library builds actions with, and the two readings
are computed along: `Run.outcome_bind` and `Run.reports_bind` turn a sequence of actions into an
`Except` computation and a concatenation of lists.

Which expressions stand as arguments is left open.  `ScopedEvaluator` says that evaluating them is
scoped; the expressions of the language have it, and so do expressions that may fail.  Those of the
language never do (`Expression.exists_value`).
-/

namespace SolidOps

/-- The context with further diagnostics after its own. -/
def Context.extend (c : Context) (ds : List Diagnostic) : Context :=
  { c with diagnostics := c.diagnostics ++ ds }

namespace Context

@[simp] lemma extend_scope (c : Context) (ds : List Diagnostic) : (c.extend ds).scope = c.scope :=
  rfl

@[simp] lemma extend_diagnostics (c : Context) (ds : List Diagnostic) :
    (c.extend ds).diagnostics = c.diagnostics ++ ds := rfl

@[simp] lemma extend_nil (c : Context) : c.extend [] = c := by simp [extend]

@[simp] lemma extend_extend (c : Context) (ds es : List Diagnostic) :
    (c.extend ds).extend es = c.extend (ds ++ es) := by simp [extend]

@[simp] lemma ofScope_scope (scope : Scope) : (ofScope scope).scope = scope := rfl

lemma ofScope_extend (scope : Scope) (ds : List Diagnostic) :
    (ofScope scope).extend ds = ⟨scope, ds⟩ := rfl

lemma report_eq_extend (d : Diagnostic) (c : Context) : Sink.report d c = c.extend [d] := rfl

lemma foldl_report (ds : List Diagnostic) (c : Context) :
    ds.foldl (fun t d => Sink.report d t) c = c.extend ds := by
  induction ds generalizing c with
  | nil => simp
  | cons d ds ih => rw [List.foldl_cons, ih, report_eq_extend, extend_extend, List.singleton_append]

end Context

namespace Run

variable {α β : Type}

/-! ## Readings of an action -/

/-- The outcome of an action in a fresh context of the given scope. -/
def outcome (action : Run Context α) (scope : Scope) : Except CallError α :=
  (action.perform (Context.ofScope scope)).1

/-- The diagnostics that an action adds in a fresh context of the given scope. -/
def reports (action : Run Context α) (scope : Scope) : List Diagnostic :=
  (action.perform (Context.ofScope scope)).2.diagnostics

/-- From every context the action has the outcome that its scope settles, leaves the scope and adds
the reports that its scope settles. -/
def Scoped (action : Run Context α) : Prop :=
  ∀ c : Context, action.perform c = (action.outcome c.scope, c.extend (action.reports c.scope))

/-- To show an action scoped and to compute its readings are one and the same. -/
lemma readings {action : Run Context α} {outcome : Scope → Except CallError α}
    {reports : Scope → List Diagnostic}
    (h : ∀ c : Context, action.perform c = (outcome c.scope, c.extend (reports c.scope))) :
    action.Scoped ∧ action.outcome = outcome ∧ action.reports = reports := by
  have houtcome : action.outcome = outcome := by
    funext scope
    rw [Run.outcome, h, Context.ofScope_scope]
  have hreports : action.reports = reports := by
    funext scope
    rw [Run.reports, h, Context.ofScope_scope, Context.ofScope_extend]
  refine ⟨fun c => ?_, houtcome, hreports⟩
  rw [houtcome, hreports]
  exact h c

/-! ## Single actions -/

lemma scoped_pure (a : α) : (pure a : Run Context α).Scoped := fun c => by
  simp [outcome, reports, Context.ofScope]

@[simp] lemma outcome_pure (a : α) (scope : Scope) :
    (pure a : Run Context α).outcome scope = .ok a := rfl

@[simp] lemma reports_pure (a : α) (scope : Scope) :
    (pure a : Run Context α).reports scope = [] := rfl

lemma scoped_throw (e : CallError) : (throw e : Run Context α).Scoped := fun c => by
  simp [outcome, reports, Context.ofScope]

@[simp] lemma outcome_throw (e : CallError) (scope : Scope) :
    (throw e : Run Context α).outcome scope = .error e := rfl

@[simp] lemma reports_throw (e : CallError) (scope : Scope) :
    (throw e : Run Context α).reports scope = [] := rfl

lemma scoped_ofExcept (r : Except CallError α) :
    (MonadExcept.ofExcept r : Run Context α).Scoped := fun c => by
  simp [outcome, reports, Context.ofScope]

@[simp] lemma outcome_ofExcept (r : Except CallError α) (scope : Scope) :
    (MonadExcept.ofExcept r : Run Context α).outcome scope = r := by
  cases r <;> rfl

@[simp] lemma reports_ofExcept (r : Except CallError α) (scope : Scope) :
    (MonadExcept.ofExcept r : Run Context α).reports scope = [] := by
  cases r <;> rfl

lemma scoped_report (d : Diagnostic) : (report d : Run Context Unit).Scoped := fun _ => rfl

@[simp] lemma outcome_report (d : Diagnostic) (scope : Scope) :
    (report d : Run Context Unit).outcome scope = .ok () := rfl

@[simp] lemma reports_report (d : Diagnostic) (scope : Scope) :
    (report d : Run Context Unit).reports scope = [d] := rfl

private lemma reportAll_readings (ds : List Diagnostic) :
    (reportAll ds : Run Context Unit).Scoped ∧
      (reportAll ds : Run Context Unit).outcome = (fun _ => .ok ()) ∧
      (reportAll ds : Run Context Unit).reports = (fun _ => ds) :=
  readings fun c => by rw [perform_reportAll, Context.foldl_report]

lemma scoped_reportAll (ds : List Diagnostic) : (reportAll ds : Run Context Unit).Scoped :=
  (reportAll_readings ds).1

@[simp] lemma outcome_reportAll (ds : List Diagnostic) (scope : Scope) :
    (reportAll ds : Run Context Unit).outcome scope = .ok () :=
  congrFun (reportAll_readings ds).2.1 scope

@[simp] lemma reports_reportAll (ds : List Diagnostic) (scope : Scope) :
    (reportAll ds : Run Context Unit).reports scope = ds :=
  congrFun (reportAll_readings ds).2.2 scope

/-! ## Sequences -/

/-- The diagnostics of what follows an action; nothing follows one that failed. -/
def reportsAfter (r : Except CallError α) (f : α → List Diagnostic) : List Diagnostic :=
  match r with
  | .ok a => f a
  | .error _ => []

@[simp] lemma reportsAfter_ok (a : α) (f : α → List Diagnostic) :
    reportsAfter (.ok a) f = f a := rfl

@[simp] lemma reportsAfter_error (e : CallError) (f : α → List Diagnostic) :
    reportsAfter (.error e) f = [] := rfl

@[simp] lemma reportsAfter_nil (r : Except CallError α) : reportsAfter r (fun _ => []) = [] := by
  cases r <;> rfl

section Bind

variable {x : Run Context α} {f : α → Run Context β}

private lemma bind_readings (hx : x.Scoped) (hf : ∀ a, (f a).Scoped) :
    (x >>= f).Scoped ∧
      (x >>= f).outcome = (fun scope => x.outcome scope >>= fun a => (f a).outcome scope) ∧
      (x >>= f).reports = (fun scope =>
        x.reports scope ++ reportsAfter (x.outcome scope) fun a => (f a).reports scope) := by
  refine readings fun c => ?_
  have h := hx c
  cases hr : x.outcome c.scope with
  | ok a =>
      rw [hr] at h
      rw [perform_bind_of_ok h, hf a, Context.extend_extend]
      rfl
  | error e =>
      rw [hr] at h
      rw [perform_bind_of_error h, reportsAfter_error, List.append_nil]
      rfl

lemma Scoped.bind (hx : x.Scoped) (hf : ∀ a, (f a).Scoped) : (x >>= f).Scoped :=
  (bind_readings hx hf).1

lemma outcome_bind (hx : x.Scoped) (hf : ∀ a, (f a).Scoped) (scope : Scope) :
    (x >>= f).outcome scope = x.outcome scope >>= fun a => (f a).outcome scope :=
  congrFun (bind_readings hx hf).2.1 scope

lemma reports_bind (hx : x.Scoped) (hf : ∀ a, (f a).Scoped) (scope : Scope) :
    (x >>= f).reports scope =
      x.reports scope ++ reportsAfter (x.outcome scope) fun a => (f a).reports scope :=
  congrFun (bind_readings hx hf).2.2 scope

lemma outcome_bind_eq_ok_iff (hx : x.Scoped) (hf : ∀ a, (f a).Scoped) {scope : Scope} {b : β} :
    (x >>= f).outcome scope = .ok b ↔
      ∃ a, x.outcome scope = .ok a ∧ (f a).outcome scope = .ok b := by
  rw [outcome_bind hx hf]
  cases x.outcome scope with
  | ok a => simp [Bind.bind, Except.bind]
  | error e => simp [Bind.bind, Except.bind]

end Bind

end Run

/-! ## Expressions -/

/-- Expressions whose evaluation sees only the scope. -/
class ScopedEvaluator (ε : Type) [Evaluator Context ε] : Prop where
  evaluate_scoped : ∀ e : ε, (Evaluator.evaluate e : Run Context Value).Scoped

namespace Expression

lemma perform_lookUp_of_some {name : String} {value : Value} {c : Context}
    (h : c.scope.get? name = some value) : (lookUp name).perform c = (.ok value, c) := by
  rw [lookUp, Run.perform_bind_of_ok (Run.perform_get c), h, Run.perform_pure]

lemma perform_lookUp_of_none {name : String} {c : Context} (h : c.scope.get? name = none) :
    (lookUp name).perform c =
      (.ok .undefined, c.extend [.warning ("Ignoring unknown variable '" ++ name ++ "'")]) := by
  rw [lookUp, Run.perform_bind_of_ok (Run.perform_get c), h,
    Run.perform_bind_of_ok (Run.perform_warn _ c), Run.perform_pure, Context.report_eq_extend]

lemma scoped_lookUp (name : String) : (lookUp name).Scoped := by
  intro c
  have hscope : (Context.ofScope c.scope).scope = c.scope := rfl
  rw [Run.outcome, Run.reports]
  cases h : c.scope.get? name with
  | some value =>
      rw [perform_lookUp_of_some h, perform_lookUp_of_some (hscope ▸ h)]
      simp [Context.ofScope]
  | none =>
      rw [perform_lookUp_of_none h, perform_lookUp_of_none (hscope ▸ h)]
      simp [Context.ofScope]

mutual

lemma scoped_evaluate : ∀ e : Expression, (evaluate e).Scoped
  | .literal value => Run.scoped_pure value
  | .var name => scoped_lookUp name
  | .vector items => by
      rw [evaluate]
      exact (scoped_evaluateItems items).bind fun values => Run.scoped_pure _

lemma scoped_evaluateItems : ∀ items : List Expression, (evaluateItems items).Scoped
  | [] => Run.scoped_pure []
  | item :: items => by
      rw [evaluateItems]
      exact (scoped_evaluate item).bind fun value =>
        (scoped_evaluateItems items).bind fun values => Run.scoped_pure _

end

mutual

/-- Expressions of the language do not fail. -/
lemma exists_value : ∀ (e : Expression) (scope : Scope), ∃ v, (evaluate e).outcome scope = .ok v
  | .literal value, _ => ⟨value, rfl⟩
  | .var name, scope => by
      have hscope : (Context.ofScope scope).scope = scope := rfl
      rw [evaluate, Run.outcome]
      cases h : scope.get? name with
      | some value => exact ⟨value, by rw [perform_lookUp_of_some (hscope ▸ h)]⟩
      | none => exact ⟨.undefined, by rw [perform_lookUp_of_none (hscope ▸ h)]⟩
  | .vector items, scope => by
      obtain ⟨values, hvalues⟩ := exists_values items scope
      refine ⟨.vector values, ?_⟩
      rw [evaluate, Run.outcome_bind (scoped_evaluateItems items) fun _ => Run.scoped_pure _,
        hvalues]
      rfl

lemma exists_values : ∀ (items : List Expression) (scope : Scope),
    ∃ values, (evaluateItems items).outcome scope = .ok values
  | [], _ => ⟨[], rfl⟩
  | item :: items, scope => by
      obtain ⟨value, hvalue⟩ := exists_value item scope
      obtain ⟨values, hvalues⟩ := exists_values items scope
      refine ⟨value :: values, ?_⟩
      have hitems (v : Value) : (evaluateItems items >>= fun vs => pure (v :: vs)).Scoped :=
        (scoped_evaluateItems items).bind fun vs => Run.scoped_pure _
      rw [evaluateItems, Run.outcome_bind_eq_ok_iff (scoped_evaluate item) hitems]
      refine ⟨value, hvalue, ?_⟩
      rw [Run.outcome_bind (scoped_evaluateItems items) fun _ => Run.scoped_pure _, hvalues]
      rfl

end

end Expression

instance : ScopedEvaluator Expression := ⟨Expression.scoped_evaluate⟩

/-- Where expressions are scoped, so are expressions that may also fail. -/
instance {ε : Type} [Evaluator Context ε] [ScopedEvaluator ε] : ScopedEvaluator (Fallible ε) where
  evaluate_scoped
    | .expression e => ScopedEvaluator.evaluate_scoped e
    | .failing reason => Run.scoped_throw (.evaluationFailed reason)

end SolidOps
