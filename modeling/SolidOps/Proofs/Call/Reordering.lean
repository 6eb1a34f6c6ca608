import SolidOps.Proofs.Binding.Reordering
import SolidOps.Proofs.Call.Stages

/-!
# Calls with their arguments reordered

What is known of bindings (`Binding.bind_reordering`) goes over to whole calls.  Reading the
settings sees the bindings alone, so it gives the same for both orders and reports the same, and it
does so after all arguments are bound.  The children are asked for at last.

Expressions of the language have values in every scope, so nothing is assumed of them here.
-/

namespace SolidOps.Binding

variable {A B : List (Argument Expression)}

/-- **The order of arguments matters only where it must.**

Let the arguments of a call be reordered, but so that positional arguments stay in order and those
of each name do.  Then binding has the same outcome, which is bindings or a missing argument, and
the same diagnostics are added in some order.  A call with either list and the same children has the
same outcome, and in both the diagnostics of reading the settings come after those of binding. -/
theorem Reordering.immaterial (h : Reordering A B) (c : Context) :
    (∀ (operator : String) (s : Signature), ∃ bound dA dB, dA.Perm dB ∧
      (bind operator s A : Run Context Bindings).perform c = (bound, c.extend dA) ∧
      (bind operator s B : Run Context Bindings).perform c = (bound, c.extend dB) ∧
      ∀ e, bound = .error e → ∃ name ∈ s.names, e = .missingArgument name operator) ∧
    ∀ (op : Operator) (children : Except CallError (List Node)),
      ∃ bound dA dB result, dA.Perm dB ∧
      (bind op.keyword op.signature A : Run Context Bindings).perform c = (bound, c.extend dA) ∧
      (bind op.keyword op.signature B : Run Context Bindings).perform c = (bound, c.extend dB) ∧
      (instantiate ⟨op.keyword, A, MonadExcept.ofExcept children⟩).perform c =
        (result,
          c.extend (dA ++ Run.reportsAfter bound fun b => (Settings.ofBindings op b).2)) ∧
      (instantiate ⟨op.keyword, B, MonadExcept.ofExcept children⟩).perform c =
        (result,
          c.extend (dB ++ Run.reportsAfter bound fun b => (Settings.ofBindings op b).2)) := by
  have hvalue : ∀ e : Expression, ∃ v, evaluated c.scope e = .ok v := fun e =>
    e.exists_value c.scope
  have hsame (operator : String) (s : Signature) := bind_reordering operator hvalue h s
  have hscoped (operator : String) (s : Signature) (C : List (Argument Expression)) :=
    (bind_readings operator s C).1 c
  constructor
  · intro operator s
    refine ⟨_, _, _, (hsame operator s).reports, hscoped operator s A, ?_, fun e he => ?_⟩
    · rw [(hsame operator s).outcome]
      exact hscoped operator s B
    · exact outcome_bind_eq_error operator hvalue he
  · intro op children
    have hop := hsame op.keyword op.signature
    refine ⟨_, _, _, _, hop.reports, hscoped _ _ A, ?_,
      op.perform_instantiate_keyword A children c, ?_⟩
    · rw [hop.outcome]
      exact hscoped _ _ B
    · rw [hop.outcome]
      exact op.perform_instantiate_keyword B children c

/-- A name moved in front of a positional argument.  Both evaluations warn, each call in its own
order; the bindings and the operation are the same, and the warnings about the type come last. -/
theorem Reordering.immaterial_of_moved_name :
    ((bind "subdiv" Operator.subdivision.signature
        [⟨none, Expression.var "x"⟩, ⟨some "type", Expression.vector [.var "y"]⟩] :
          Run Context Bindings).perform (Context.ofScope Scope.empty) =
      (.ok ⟨[("level", .undefined), ("type", .vector [.undefined]), ("convexity", .undefined)]⟩,
        ⟨Scope.empty, [.warning "Ignoring unknown variable 'x'",
          .warning "Ignoring unknown variable 'y'"]⟩) ∧
    (bind "subdiv" Operator.subdivision.signature
        [⟨some "type", Expression.vector [.var "y"]⟩, ⟨none, Expression.var "x"⟩] :
          Run Context Bindings).perform (Context.ofScope Scope.empty) =
      (.ok ⟨[("level", .undefined), ("type", .vector [.undefined]), ("convexity", .undefined)]⟩,
        ⟨Scope.empty, [.warning "Ignoring unknown variable 'y'",
          .warning "Ignoring unknown variable 'x'"]⟩)) ∧
    (instantiate ⟨"subdiv", [⟨none, Expression.var "x"⟩,
        ⟨some "type", Expression.vector [.var "y"]⟩], MonadExcept.ofExcept (.ok [])⟩).perform
          (Context.ofScope Scope.empty) =
      (.ok ⟨.subdivision 0 1 .catmullClark, []⟩,
        ⟨Scope.empty, [.warning "Ignoring unknown variable 'x'",
          .warning "Ignoring unknown variable 'y'", Resolution.unknownScheme "[undef]",
          Resolution.schemeReplaced]⟩) ∧
    (instantiate ⟨"subdiv", [⟨some "type", Expression.vector [.var "y"]⟩,
        ⟨none, Expression.var "x"⟩], MonadExcept.ofExcept (.ok [])⟩).perform
          (Context.ofScope Scope.empty) =
      (.ok ⟨.subdivision 0 1 .catmullClark, []⟩,
        ⟨Scope.empty, [.warning "Ignoring unknown variable 'y'",
          .warning "Ignoring unknown variable 'x'", Resolution.unknownScheme "[undef]",
          Resolution.schemeReplaced]⟩) := by
  have hreordering : Reordering
      [⟨none, Expression.var "x"⟩, ⟨some "type", Expression.vector [.var "y"]⟩]
      [⟨some "type", Expression.vector [.var "y"]⟩, ⟨none, Expression.var "x"⟩] := by
    refine ⟨.swap _ _ [], rfl, fun name => ?_⟩
    simp [namesakes, List.filter_cons]
  obtain ⟨bound, dA, dB, result, -, hA, hB, hcall, hcall'⟩ :=
    (Reordering.immaterial hreordering (Context.ofScope Scope.empty)).2 .subdivision (.ok [])
  have hbound : bound = .ok ⟨[("level", .undefined), ("type", .vector [.undefined]),
      ("convexity", .undefined)]⟩ := (congrArg Prod.fst hA).symm
  have hA' : dA = [.warning "Ignoring unknown variable 'x'",
      .warning "Ignoring unknown variable 'y'"] :=
    (congrArg (fun r => r.2.diagnostics) hA).symm
  have hB' : dB = [.warning "Ignoring unknown variable 'y'",
      .warning "Ignoring unknown variable 'x'"] :=
    (congrArg (fun r => r.2.diagnostics) hB).symm
  have hresult : result = .ok ⟨.subdivision 0 1 .catmullClark, []⟩ :=
    (congrArg Prod.fst hcall).symm
  subst hbound hA' hB' hresult
  exact ⟨⟨hA, hB⟩, hcall, hcall'⟩

end SolidOps.Binding
