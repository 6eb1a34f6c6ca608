import SolidOps.Proofs.Call.Inlining

/-!
# What an expression means

Evaluation goes through an expression once, looks variables up and reports the unknown ones on its
way.  Here its two results are said apart, with no mention of a context that changes.

* `Scope.Finds` is what a scope finds for a name from the innermost level outwards, and
  `Scope.Unknown` that it finds nothing.
* `Expression.Means` relates an expression in a scope to its value: a known variable to what is
  found, an unknown one to `undef`, and a vector item by item to a vector.
* `Expression.unknownReports` are the warnings of the unknown variables among some names, one for
  each time a name is there.  `Expression.varNames` names the variables of an expression as they
  stand, from left to right.

**`Expression.evaluation_law`**: an expression has one meaning in a scope, evaluation gives it, and
it adds the warnings of the unknown variables that occur.

An item of a vector is evaluated in the context that the items before it left.  That context has
the same scope, and only the scope has a say in the meaning and in the warnings; this is what
carries `perform_evaluateItems` from one item to the next.
-/

namespace SolidOps

/-! ## Finding a name -/

namespace Scope

/-- The scope finds a value for a name: a level gives it, and no level further in knows the name. -/
def Finds (s : Scope) (name : String) (value : Value) : Prop :=
  ∃ inner level outer, s.levels = inner ++ level :: outer ∧ level.lookup name = some value ∧
    ∀ l ∈ inner, l.lookup name = none

/-- No level knows the name. -/
def Unknown (s : Scope) (name : String) : Prop :=
  ∀ level ∈ s.levels, level.lookup name = none

instance (s : Scope) (name : String) : Decidable (s.Unknown name) :=
  inferInstanceAs (Decidable (∀ level ∈ s.levels, level.lookup name = none))

variable {s : Scope} {name : String} {value : Value}

lemma get?_eq_some_iff : s.get? name = some value ↔ s.Finds name value :=
  List.findSome?_eq_some_iff

lemma get?_eq_none_iff : s.get? name = none ↔ s.Unknown name :=
  List.findSome?_eq_none_iff

lemma finds_or_unknown (s : Scope) (name : String) :
    (∃ value, s.Finds name value) ∨ s.Unknown name := by
  cases h : s.get? name with
  | some value => exact .inl ⟨value, get?_eq_some_iff.mp h⟩
  | none => exact .inr (get?_eq_none_iff.mp h)

lemma Finds.unique {value' : Value} (h : s.Finds name value) (h' : s.Finds name value') :
    value = value' := by
  rw [← get?_eq_some_iff] at h h'
  exact Option.some.inj (h.symm.trans h')

lemma Finds.not_unknown (h : s.Finds name value) : ¬s.Unknown name := by
  rw [← get?_eq_some_iff] at h
  rw [← get?_eq_none_iff, h]
  exact Option.some_ne_none value

end Scope

namespace Expression

/-! ## Meaning -/

/-- The meaning of expressions in a scope. -/
inductive Means (scope : Scope) : Expression → Value → Prop
  | literal (value : Value) : Means scope (.literal value) value
  | known {name : String} {value : Value} (h : scope.Finds name value) :
      Means scope (.var name) value
  | unknown {name : String} (h : scope.Unknown name) : Means scope (.var name) .undefined
  | vector {items : List Expression} {values : List Value}
      (h : List.Forall₂ (Means scope) items values) : Means scope (.vector items) (.vector values)

mutual

/-- An expression means at most one value. -/
lemma Means.unique {scope : Scope} : ∀ {e : Expression} {v w : Value},
    e.Means scope v → e.Means scope w → v = w
  | .literal _, _, _, hv, hw => by
      cases hv
      cases hw
      rfl
  | .var _, _, _, hv, hw => by
      cases hv with
      | known hv =>
          cases hw with
          | known hw => exact hv.unique hw
          | unknown hw => exact absurd hw hv.not_unknown
      | unknown hv =>
          cases hw with
          | known hw => exact absurd hv hw.not_unknown
          | unknown hw => rfl
  | .vector items, _, _, hv, hw => by
      cases hv with
      | vector hv =>
          cases hw with
          | vector hw => exact congrArg Value.vector (Means.unique_items hv hw)

lemma Means.unique_items {scope : Scope} : ∀ {items : List Expression} {vs ws : List Value},
    List.Forall₂ (Means scope) items vs → List.Forall₂ (Means scope) items ws → vs = ws
  | [], _, _, .nil, .nil => rfl
  | _ :: _, _, _, .cons hv hvs, .cons hw hws => by
      rw [Means.unique hv hw, Means.unique_items hvs hws]

end

/-! ## Warnings -/

/-- The warnings of the names in a list that the scope does not know, in order. -/
def unknownReports (scope : Scope) (names : List String) : List Diagnostic :=
  (names.filter fun name => scope.Unknown name).map fun name =>
    .warning ("Ignoring unknown variable '" ++ name ++ "'")

section Reports

variable {scope : Scope} {name : String}

@[simp] lemma unknownReports_nil (scope : Scope) : unknownReports scope [] = [] := rfl

lemma unknownReports_append (scope : Scope) (xs ys : List String) :
    unknownReports scope (xs ++ ys) = unknownReports scope xs ++ unknownReports scope ys := by
  rw [unknownReports, List.filter_append, List.map_append, unknownReports, unknownReports]

lemma unknownReports_of_finds {value : Value} (h : scope.Finds name value) :
    unknownReports scope [name] = [] := by
  rw [unknownReports, List.filter_singleton, decide_eq_false h.not_unknown]
  rfl

lemma unknownReports_of_unknown (h : scope.Unknown name) :
    unknownReports scope [name] =
      [.warning ("Ignoring unknown variable '" ++ name ++ "'")] := by
  rw [unknownReports, List.filter_singleton, decide_eq_true h]
  rfl

end Reports

/-! ## Evaluation -/

lemma perform_lookUp (name : String) (c : Context) :
    ∃ v, (var name).Means c.scope v ∧
      (lookUp name).perform c = (.ok v, c.extend (unknownReports c.scope [name])) := by
  rcases c.scope.finds_or_unknown name with ⟨value, h⟩ | h
  · refine ⟨value, .known h, ?_⟩
    rw [perform_lookUp_of_some (Scope.get?_eq_some_iff.mpr h), unknownReports_of_finds h,
      Context.extend_nil]
  · refine ⟨.undefined, .unknown h, ?_⟩
    rw [perform_lookUp_of_none (Scope.get?_eq_none_iff.mpr h), unknownReports_of_unknown h]

mutual

/-- Evaluation gives what an expression means and reports the unknown variables in it. -/
lemma perform_evaluate : ∀ (e : Expression) (c : Context),
    ∃ v, e.Means c.scope v ∧
      (evaluate e).perform c = (.ok v, c.extend (unknownReports c.scope e.varNames))
  | .literal value, c => ⟨value, .literal value, by
      rw [evaluate, Run.perform_pure, varNames, unknownReports_nil, Context.extend_nil]⟩
  | .var name, c => by
      rw [evaluate, varNames]
      exact perform_lookUp name c
  | .vector items, c => by
      obtain ⟨values, hmeans, hperform⟩ := perform_evaluateItems items c
      refine ⟨.vector values, .vector hmeans, ?_⟩
      rw [evaluate, Run.perform_bind_of_ok hperform, Run.perform_pure, varNames]

lemma perform_evaluateItems : ∀ (items : List Expression) (c : Context),
    ∃ values, List.Forall₂ (Means c.scope) items values ∧
      (evaluateItems items).perform c =
        (.ok values, c.extend (unknownReports c.scope (varNamesOfItems items)))
  | [], c => ⟨[], .nil, by
      rw [evaluateItems, Run.perform_pure, varNamesOfItems, unknownReports_nil,
        Context.extend_nil]⟩
  | item :: items, c => by
      obtain ⟨value, hvalue, hitem⟩ := perform_evaluate item c
      -- the rest starts from the context that the item left, which has the same scope
      obtain ⟨values, hvalues, hitems⟩ :=
        perform_evaluateItems items (c.extend (unknownReports c.scope item.varNames))
      rw [Context.extend_scope] at hvalues hitems
      refine ⟨value :: values, .cons hvalue hvalues, ?_⟩
      rw [evaluateItems, Run.perform_bind_of_ok hitem, Run.perform_bind_of_ok hitems,
        Run.perform_pure, Context.extend_extend, varNamesOfItems, unknownReports_append]

end

/-- **The law of evaluation.**

Evaluating an expression succeeds.  Its value is the one value that the expression means: each
variable stands for what the scope finds for it from the innermost level outwards, or for `undef`
when it finds nothing, and vectors stay as they are.  The scope and the diagnostics collected before
are left, and the only further ones are the warnings of the unknown variables, one for each
occurrence and from left to right. -/
theorem evaluation_law (e : Expression) (c : Context) :
    ∃ v, (∀ w, e.Means c.scope w ↔ w = v) ∧
      (evaluate e).perform c =
        (.ok v, ⟨c.scope, c.diagnostics ++ unknownReports c.scope e.varNames⟩) := by
  obtain ⟨v, hmeans, hperform⟩ := perform_evaluate e c
  refine ⟨v, fun w => ⟨fun hw => hw.unique hmeans, ?_⟩, hperform⟩
  rintro rfl
  exact hmeans

/-- A vector two levels deep in which an unknown name occurs twice, around a variable that an inner
level shadows and one that only the global level knows. -/
theorem evaluation_law_of_repeated_name :
    (evaluate (vector [var "lost", vector [var "n", var "far", vector []], literal .undefined,
        vector [var "lost"]])).perform
      ⟨.ofLevels [[("n", .boolean true), ("far", .string "out")], [("n", .string "in")]],
        [.warning "older"]⟩ =
      (.ok (.vector [.undefined, .vector [.string "in", .string "out", .vector []], .undefined,
        .vector [.undefined]]),
      ⟨.ofLevels [[("n", .boolean true), ("far", .string "out")], [("n", .string "in")]],
        [.warning "older", .warning "Ignoring unknown variable 'lost'",
          .warning "Ignoring unknown variable 'lost'"]⟩) := by
  obtain ⟨v, hmeans, hperform⟩ := evaluation_law
    (vector [var "lost", vector [var "n", var "far", vector []], literal .undefined,
      vector [var "lost"]])
    ⟨.ofLevels [[("n", .boolean true), ("far", .string "out")], [("n", .string "in")]],
      [.warning "older"]⟩
  rw [hperform]
  have hn : (Scope.ofLevels [[("n", .boolean true), ("far", .string "out")],
      [("n", .string "in")]]).Finds "n" (.string "in") := Scope.get?_eq_some_iff.mp rfl
  have hfar : (Scope.ofLevels [[("n", .boolean true), ("far", .string "out")],
      [("n", .string "in")]]).Finds "far" (.string "out") := Scope.get?_eq_some_iff.mp rfl
  have hlost : (Scope.ofLevels [[("n", .boolean true), ("far", .string "out")],
      [("n", .string "in")]]).Unknown "lost" := Scope.get?_eq_none_iff.mp rfl
  have hinner := Means.vector (.cons (.known hn) (.cons (.known hfar) (.cons (.vector .nil) .nil)))
  obtain rfl := (hmeans _).mp (.vector (.cons (.unknown hlost) (.cons hinner
    (.cons (.literal _) (.cons (.vector (.cons (.unknown hlost) .nil)) .nil)))))
  rfl

end Expression

end SolidOps
