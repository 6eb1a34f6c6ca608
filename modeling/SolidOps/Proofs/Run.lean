import Mathlib
import SolidOps.Run

/-!
# Performing an action

A `Run` is an exception transformer over a state, and `Run.perform` takes both layers off at once:
an outcome and the state left behind.  The lemmas here say what `perform` does to each way of
building an action.  With them the monads never have to be opened again: a statement about an
action is a statement about pairs.

The state survives a failure, which is visible in `perform_bind`: when the first action fails, the
second one is not performed and the state is the one that the first left.
-/

namespace SolidOps.Run

variable {σ α β : Type}

@[simp] lemma perform_pure (a : α) (s : σ) : (pure a : Run σ α).perform s = (.ok a, s) := rfl

@[simp] lemma perform_throw (e : CallError) (s : σ) :
    (throw e : Run σ α).perform s = (.error e, s) := rfl

@[simp] lemma perform_ofExcept (r : Except CallError α) (s : σ) :
    (MonadExcept.ofExcept r : Run σ α).perform s = (r, s) := by
  cases r <;> rfl

@[simp] lemma perform_get (s : σ) : (get : Run σ σ).perform s = (.ok s, s) := rfl

@[simp] lemma perform_set (s t : σ) : (set t : Run σ PUnit).perform s = (.ok ⟨⟩, t) := rfl

lemma perform_bind (x : Run σ α) (f : α → Run σ β) (s : σ) :
    (x >>= f).perform s =
      match x.perform s with
      | (.ok a, t) => (f a).perform t
      | (.error e, t) => (.error e, t) := by
  show StateT.run (ExceptT.run (x >>= f)) s = _
  rw [ExceptT.run_bind, StateT.run_bind]
  rcases h : x.perform s with ⟨r, t⟩
  have hx : StateT.run (ExceptT.run x) s = (r, t) := h
  cases r with
  | ok a => rw [hx]; rfl
  | error e => rw [hx]; rfl

lemma perform_bind_of_ok {x : Run σ α} {a : α} {s t : σ} (h : x.perform s = (.ok a, t))
    (f : α → Run σ β) : (x >>= f).perform s = (f a).perform t := by
  rw [perform_bind, h]

lemma perform_bind_of_error {x : Run σ α} {e : CallError} {s t : σ}
    (h : x.perform s = (.error e, t)) (f : α → Run σ β) :
    (x >>= f).perform s = (.error e, t) := by
  rw [perform_bind, h]

/-- A sequence of two actions succeeds when both do. -/
lemma perform_bind_eq_ok_iff {x : Run σ α} {f : α → Run σ β} {s u : σ} {b : β} :
    (x >>= f).perform s = (.ok b, u) ↔
      ∃ a t, x.perform s = (.ok a, t) ∧ (f a).perform t = (.ok b, u) := by
  rw [perform_bind]
  rcases x.perform s with ⟨r, t⟩
  cases r with
  | ok a => simp
  | error e => simp

/-- What is made of an outcome does not matter to the state. -/
lemma perform_bind_pure_snd (x : Run σ α) (f : α → β) (s : σ) :
    ((x >>= fun a => pure (f a)).perform s).2 = (x.perform s).2 := by
  rw [perform_bind]
  rcases x.perform s with ⟨r, t⟩
  cases r <;> rfl

/-- What follows an action need only be known for what the action can give. -/
lemma bind_congr_of_perform {x : Run σ α} {f g : α → Run σ β}
    (h : ∀ s a t, x.perform s = (.ok a, t) → f a = g a) : x >>= f = x >>= g := by
  refine ExceptT.ext (StateT.ext fun s => ?_)
  show (x >>= f).perform s = (x >>= g).perform s
  rw [perform_bind, perform_bind]
  rcases hx : x.perform s with ⟨r, t⟩
  cases r with
  | ok a => exact congrArg (Run.perform · t) (h s a t hx)
  | error e => rfl

/-! ## Reports -/

section Reports

variable [Sink σ]

@[simp] lemma perform_report (d : Diagnostic) (s : σ) :
    (report d).perform s = (.ok (), Sink.report d s) := rfl

@[simp] lemma perform_warn (message : String) (s : σ) :
    (warn message).perform s = (.ok (), Sink.report (.warning message) s) := rfl

@[simp] lemma perform_reportAll (ds : List Diagnostic) (s : σ) :
    (reportAll ds).perform s = (.ok (), ds.foldl (fun t d => Sink.report d t) s) := by
  induction ds generalizing s with
  | nil => rfl
  | cons d ds ih =>
      rw [reportAll, perform_bind_of_ok (perform_report d s), ih]
      rfl

end Reports

end SolidOps.Run
