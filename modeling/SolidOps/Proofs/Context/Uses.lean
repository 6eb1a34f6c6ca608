import SolidOps.Proofs.Call.Inlining
import SolidOps.Proofs.Scope.History

/-!
# Many uses of one context

A context is used again and again: its scope is changed, expressions are evaluated in it, arguments
are bound, settings read, calls made.  Some of this fails, and the context is used all the same.
The uses have nothing to do with each other except through the scope.

* `Context.Use` is one use and `Context.after` what is left of a context after several.
* `diagnostics_after` and `scope_after` say what every run keeps: the diagnostics there are stay
  where they are, and the scope stays the same but for changes of the scope.
* `Use.actsAlike` says what a use can see: of two contexts whose scopes know the same names with the
  same values it cannot tell one from the other, neither by how deep the scopes are nor by what was
  reported before.

**`Context.uses_do_not_interfere`** puts these together for contexts that have a history.
-/

namespace SolidOps.Context

/-- A use of a context. -/
inductive Use
  /-- Opens a level, closes one or defines a variable. -/
  | change (x : Scope.Change)
  | report (d : Diagnostic)
  | evaluate (e : Fallible Expression)
  | bind (operator : String) (s : Signature) (args : List (Argument (Fallible Expression)))
  /-- Reads the settings of an operator from bindings. -/
  | resolve (op : Operator) (b : Bindings)
  | instantiate (name : String) (args : List (Argument (Fallible Expression)))
      (children : Except CallError (List Node))

/-- What a use gives when it does not fail. -/
inductive Use.Gain
  | nothing
  | value (v : Value)
  | bindings (b : Bindings)
  | settings (p : Settings)
  | operation (o : Operation)

/-- The action of a use. -/
def Use.run : Use → Run Context Use.Gain
  | change x => do
    modify fun c => { c with scope := x.apply c.scope }
    return .nothing
  | report d => do
    Run.report d
    return .nothing
  | evaluate e => do return .value (← Evaluator.evaluate e)
  | bind operator s args => do return .bindings (← SolidOps.bind operator s args)
  | resolve op b => do
    let (settings, reports) := Settings.ofBindings op b
    Run.reportAll reports
    return .settings settings
  | instantiate name args children => do
    return .operation (← SolidOps.instantiate ⟨name, args, MonadExcept.ofExcept children⟩)

/-- The context after several uses in order, whether they succeed or fail. -/
def after (c : Context) (uses : List Use) : Context := uses.foldl (fun c u => (u.run.perform c).2) c

lemma after_append (c : Context) (xs ys : List Use) : c.after (xs ++ ys) = (c.after xs).after ys :=
  List.foldl_append

/-! ## What a use sees -/

/-- **A use that does not change the scope sees nothing of it but the values of names.** -/
lemma Use.actsAlike {u : Use} (hu : ∀ x, u ≠ .change x) {S T : Scope}
    (h : ∀ name, S.get? name = T.get? name) : u.run.ActsAlike S u.run T := by
  cases u with
  | change x => exact absurd rfl (hu x)
  | report d =>
      exact (Run.ActsAlike.report d S T).bind fun _ => Run.ActsAlike.pure _ S T
  | evaluate e =>
      exact (e.evaluate_of_agree fun name _ => h name).bind fun v => Run.ActsAlike.pure _ S T
  | bind operator s args =>
      exact (Binding.bind_of_agree operator s fun name _ => h name).bind fun b =>
        Run.ActsAlike.pure _ S T
  | resolve op b =>
      exact (Run.ActsAlike.reportAll (Settings.ofBindings op b).2 S T).bind fun _ =>
        Run.ActsAlike.pure _ S T
  | instantiate name args children =>
      exact (instantiate_of_agree name children fun name _ => h name).bind fun o =>
        Run.ActsAlike.pure _ S T

/-! ## What a use leaves -/

lemma perform_change (x : Scope.Change) (c : Context) :
    (Use.change x).run.perform c = (.ok .nothing, { c with scope := x.apply c.scope }) := rfl

/-- A use that does not change the scope adds diagnostics and does nothing else to the context. -/
lemma exists_perform_eq {u : Use} (hu : ∀ x, u ≠ .change x) (c : Context) :
    ∃ result reports, u.run.perform c = (result, c.extend reports) := by
  obtain ⟨result, reports, hperform, -⟩ := Use.actsAlike hu fun name => rfl (a := c.scope.get? name)
  exact ⟨result, reports, hperform c rfl⟩

lemma diagnostics_perform (u : Use) (c : Context) :
    c.diagnostics <+: (u.run.perform c).2.diagnostics := by
  by_cases hu : ∀ x, u ≠ .change x
  · obtain ⟨result, reports, hperform⟩ := exists_perform_eq hu c
    rw [hperform]
    exact List.prefix_append c.diagnostics reports
  · push Not at hu
    obtain ⟨x, rfl⟩ := hu
    rw [perform_change]

lemma scope_perform {u : Use} (hu : ∀ x, u ≠ .change x) (c : Context) :
    (u.run.perform c).2.scope = c.scope := by
  obtain ⟨result, reports, hperform⟩ := exists_perform_eq hu c
  rw [hperform, extend_scope]

/-- **Diagnostics stay**, in a run of any uses. -/
lemma diagnostics_after (c : Context) (uses : List Use) :
    c.diagnostics <+: (c.after uses).diagnostics := by
  induction uses generalizing c with
  | nil => exact List.prefix_rfl
  | cons u uses ih => exact (diagnostics_perform u c).trans (ih _)

/-- **The scope stays**, in a run of uses that do not change it. -/
lemma scope_after (c : Context) {uses : List Use} (h : ∀ u ∈ uses, ∀ x, u ≠ .change x) :
    (c.after uses).scope = c.scope := by
  induction uses generalizing c with
  | nil => rfl
  | cons u uses ih =>
      rw [List.forall_mem_cons] at h
      exact (ih _ h.2).trans (scope_perform h.1 c)

/-! ## The law -/

/-- **Uses of a context do not interfere.**

After any uses, further uses leave the diagnostics collected so far as a prefix of those then
collected, and leave the scope unless they are changes of it.  Of any two contexts, each after any
uses of its own, whose scopes give every name the same value, a use that is no change of the scope
has the same outcome and adds the same diagnostics. -/
theorem uses_do_not_interfere :
    (∀ (c : Context) (before later : List Use),
      (c.after before).diagnostics <+: (c.after (before ++ later)).diagnostics ∧
      ((∀ u ∈ later, ∀ x, u ≠ .change x) →
        (c.after (before ++ later)).scope = (c.after before).scope)) ∧
    ∀ (c d : Context) (before before' : List Use),
      (∀ name, (c.after before).scope.get? name = (d.after before').scope.get? name) →
      ∀ u : Use, (∀ x, u ≠ .change x) → ∃ result reports,
        u.run.perform (c.after before) = (result, (c.after before).extend reports) ∧
        u.run.perform (d.after before') = (result, (d.after before').extend reports) := by
  constructor
  · intro c before later
    rw [after_append]
    exact ⟨diagnostics_after _ later, scope_after _⟩
  · intro c d before before' hagree u hu
    obtain ⟨result, reports, hc, hd⟩ := Use.actsAlike hu hagree
    exact ⟨result, reports, hc _ rfl, hd _ rfl⟩

/-- One context has a level more than the other and has seen an evaluation with a warning and a
binding that failed.  The call is the same in both, and leaves the scope of the first as it is. -/
theorem uses_do_not_interfere_of_other_depth :
    ((default : Context).after [.change (.define "x" (.boolean true)), .change .openLevel,
        .evaluate (.expression (.var "lost")), .bind "m" [.mandatory "p"] [],
        .instantiate "glide" [⟨none, .expression (.vector [.var "x", .var "y"])⟩] (.ok [])]).scope =
      ⟨[[]], [("x", .boolean true)]⟩ ∧
    (Use.instantiate "glide" [⟨none, .expression (.vector [.var "x", .var "y"])⟩]
        (.ok [])).run.perform
      ((default : Context).after [.change (.define "x" (.boolean true)), .change .openLevel,
        .evaluate (.expression (.var "lost")), .bind "m" [.mandatory "p"] []]) =
      (.ok (.operation ⟨.glide 0 (.vector [.boolean true, .undefined]), []⟩),
        ⟨⟨[[]], [("x", .boolean true)]⟩,
          [.warning "Ignoring unknown variable 'lost'",
            .warning "Ignoring unknown variable 'y'"]⟩) ∧
    (Use.instantiate "glide" [⟨none, .expression (.vector [.var "x", .var "y"])⟩]
        (.ok [])).run.perform
      ((default : Context).after [.change (.define "x" (.boolean true))]) =
      (.ok (.operation ⟨.glide 0 (.vector [.boolean true, .undefined]), []⟩),
        ⟨⟨[], [("x", .boolean true)]⟩, [.warning "Ignoring unknown variable 'y'"]⟩) := by
  have hscope := (uses_do_not_interfere.1 default [.change (.define "x" (.boolean true)),
    .change .openLevel, .evaluate (.expression (.var "lost")), .bind "m" [.mandatory "p"] []]
    [.instantiate "glide" [⟨none, .expression (.vector [.var "x", .var "y"])⟩] (.ok [])]).2 (by
      intro u hu x
      rw [List.mem_singleton.mp hu]
      rintro ⟨⟩)
  obtain ⟨result, reports, hdeep, hflat⟩ := uses_do_not_interfere.2 default default
    [.change (.define "x" (.boolean true)), .change .openLevel,
      .evaluate (.expression (.var "lost")), .bind "m" [.mandatory "p"] []]
    [.change (.define "x" (.boolean true))]
    (fun name => Scope.get?_lower_push ⟨[], [("x", .boolean true)]⟩ 0 name)
    (.instantiate "glide" [⟨none, .expression (.vector [.var "x", .var "y"])⟩] (.ok []))
    (by rintro x ⟨⟩)
  have hresult : result = .ok (.operation ⟨.glide 0 (.vector [.boolean true, .undefined]), []⟩) :=
    (congrArg Prod.fst hflat).symm
  have hreports : reports = [.warning "Ignoring unknown variable 'y'"] :=
    (congrArg (fun r => r.2.diagnostics) hflat).symm
  rw [hresult, hreports] at hdeep hflat
  exact ⟨hscope, hdeep, hflat⟩

end SolidOps.Context
