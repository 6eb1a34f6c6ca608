import SolidOps.Proofs.Scoped

/-!
# Actions that act alike

Two actions in two scopes act alike when nobody can tell them apart by what they give and what they
report: in any context of the one scope the first has the same outcome, and adds the same
diagnostics in the same order, as the second in any context of the other scope.  What the contexts
collected before does not matter, and neither action changes its scope.

`Run.ActsAlike` is this relation.  It says of a single action that it is scoped, and of two that
they agree, so it is closed under sequencing with no side conditions (`ActsAlike.bind`), and
statements about long actions are put together from statements about their parts.
-/

namespace SolidOps.Run

variable {α β : Type}

/-- In contexts of the scope `S` the action `x` does what `y` does in contexts of the scope `T`. -/
def ActsAlike (x : Run Context α) (S : Scope) (y : Run Context α) (T : Scope) : Prop :=
  ∃ result reports,
    (∀ c : Context, c.scope = S → x.perform c = (result, c.extend reports)) ∧
      ∀ d : Context, d.scope = T → y.perform d = (result, d.extend reports)

namespace ActsAlike

variable {x y z : Run Context α} {S T U : Scope}

/-! ## An equivalence -/

lemma symm (h : x.ActsAlike S y T) : y.ActsAlike T x S := by
  obtain ⟨result, reports, hx, hy⟩ := h
  exact ⟨result, reports, hy, hx⟩

lemma trans (h : x.ActsAlike S y T) (h' : y.ActsAlike T z U) : x.ActsAlike S z U := by
  obtain ⟨result, reports, hx, hy⟩ := h
  obtain ⟨result', reports', hy', hz⟩ := h'
  -- what the middle action does can be read off in a fresh context
  have hfresh := (hy (Context.ofScope T) rfl).symm.trans (hy' (Context.ofScope T) rfl)
  rw [Context.ofScope_extend, Context.ofScope_extend, Prod.mk.injEq, Context.mk.injEq] at hfresh
  obtain ⟨rfl, -, rfl⟩ := hfresh
  exact ⟨result, reports, hx, hz⟩

/-! ## Building actions -/

lemma pure (a : α) (S T : Scope) : (Pure.pure a : Run Context α).ActsAlike S (Pure.pure a) T :=
  ⟨.ok a, [], fun c _ => by simp, fun d _ => by simp⟩

lemma throw (e : CallError) (S T : Scope) :
    (MonadExcept.throw e : Run Context α).ActsAlike S (MonadExcept.throw e) T :=
  ⟨.error e, [], fun c _ => by simp, fun d _ => by simp⟩

lemma ofExcept (r : Except CallError α) (S T : Scope) :
    (MonadExcept.ofExcept r : Run Context α).ActsAlike S (MonadExcept.ofExcept r) T := by
  cases r with
  | ok a => exact pure a S T
  | error e => exact throw e S T

lemma report (d : Diagnostic) (S T : Scope) :
    (Run.report d : Run Context Unit).ActsAlike S (Run.report d) T :=
  ⟨.ok (), [d], fun _ _ => rfl, fun _ _ => rfl⟩

lemma reportAll (ds : List Diagnostic) (S T : Scope) :
    (Run.reportAll ds : Run Context Unit).ActsAlike S (Run.reportAll ds) T :=
  ⟨.ok (), ds, fun c _ => by rw [perform_reportAll, Context.foldl_report],
    fun d _ => by rw [perform_reportAll, Context.foldl_report]⟩

/-- **Actions that act alike may be followed by actions that act alike.** -/
lemma bind {f g : α → Run Context β} (h : x.ActsAlike S y T)
    (hfollow : ∀ a, (f a).ActsAlike S (g a) T) : (x >>= f).ActsAlike S (y >>= g) T := by
  obtain ⟨result, reports, hx, hy⟩ := h
  cases result with
  | error e =>
      refine ⟨.error e, reports, fun c hc => ?_, fun d hd => ?_⟩
      · rw [perform_bind_of_error (hx c hc)]
      · rw [perform_bind_of_error (hy d hd)]
  | ok a =>
      obtain ⟨result, further, hf, hg⟩ := hfollow a
      refine ⟨result, reports ++ further, fun c hc => ?_, fun d hd => ?_⟩
      · rw [perform_bind_of_ok (hx c hc), hf (c.extend reports) hc, Context.extend_extend]
      · rw [perform_bind_of_ok (hy d hd), hg (d.extend reports) hd, Context.extend_extend]

end ActsAlike

end SolidOps.Run
