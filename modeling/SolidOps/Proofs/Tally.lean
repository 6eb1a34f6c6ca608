import SolidOps.Proofs.Run

/-!
# Warnings beside a state

Binding reports to the state it acts on, and so do the expressions that it evaluates there.  In the
state the two cannot be told apart.  They differ in what they act on: the binder reports wherever it
is run, while an expression is evaluated in the states it was made for.

A `Tally` is a state with a list of warnings beside it.  What is reported to a tally is written
down and goes on to the state; expressions are evaluated in the state, and what they report there is
not written down.  An action that works in any state works in a tally, and leaves there what it
reported itself.

Nothing reads what is written down.  **`Tally.Forgets`** says so: without the tally an action has
the same outcome and leaves the same state.  It is closed under what the library builds actions
with, so to prove it for an action is to go through the parts of the action once.
-/

namespace SolidOps

/-- A state, and beside it the warnings that were reported to it, oldest first. -/
structure Tally (σ : Type) where
  state : σ
  warned : List Diagnostic

namespace Tally

variable {σ ε α β : Type}

/-- A state with no warnings yet. -/
def ofState (c : σ) : Tally σ := ⟨c, []⟩

/-- A report goes to the state and is written down beside it. -/
instance [Sink σ] : Sink (Tally σ) where
  report d t := ⟨Sink.report d t.state, t.warned ++ [d]⟩

/-- Expressions are evaluated in the state; nothing of this is written down. -/
instance [Evaluator σ ε] : Evaluator (Tally σ) ε where
  evaluate e := do
    let t ← get
    let (outcome, state) := (Evaluator.evaluate e : Run σ Value).perform t.state
    set { t with state := state }
    MonadExcept.ofExcept outcome

lemma perform_evaluate [Evaluator σ ε] (e : ε) (t : Tally σ) :
    (Evaluator.evaluate e : Run (Tally σ) Value).perform t =
      (((Evaluator.evaluate e : Run σ Value).perform t.state).1,
        ⟨((Evaluator.evaluate e : Run σ Value).perform t.state).2, t.warned⟩) := by
  show (_ >>= _ : Run (Tally σ) Value).perform t = _
  rw [Run.perform_bind_of_ok (Run.perform_get t), Run.perform_bind_of_ok (Run.perform_set t _),
    Run.perform_ofExcept]

section Reports

variable [Sink σ]

lemma foldl_report (ds : List Diagnostic) (t : Tally σ) :
    ds.foldl (fun u d => Sink.report d u) t =
      ⟨ds.foldl (fun u d => Sink.report d u) t.state, t.warned ++ ds⟩ := by
  induction ds generalizing t with
  | nil => simp
  | cons d ds ih =>
      rw [List.foldl_cons, ih, List.foldl_cons]
      simp [Sink.report]

lemma perform_reportAll (ds : List Diagnostic) (t : Tally σ) :
    (Run.reportAll ds).perform t =
      (.ok (), ⟨ds.foldl (fun u d => Sink.report d u) t.state, t.warned ++ ds⟩) := by
  rw [Run.perform_reportAll, foldl_report]

end Reports

/-- An action on tallies does to the state what another action does, and has its outcome. -/
def Forgets (x : Run (Tally σ) α) (y : Run σ α) : Prop :=
  ∀ t : Tally σ, (x.perform t).map id state = y.perform t.state

namespace Forgets

variable {x : Run (Tally σ) α} {y : Run σ α}

lemma pure (a : α) : Forgets (Pure.pure a : Run (Tally σ) α) (Pure.pure a) := fun _ => rfl

lemma ofExcept (r : Except CallError α) :
    Forgets (MonadExcept.ofExcept r : Run (Tally σ) α) (MonadExcept.ofExcept r) := fun t => by
  rw [Run.perform_ofExcept, Run.perform_ofExcept]
  rfl

lemma evaluate [Evaluator σ ε] (e : ε) :
    Forgets (Evaluator.evaluate e : Run (Tally σ) Value) (Evaluator.evaluate e) := fun t => by
  rw [perform_evaluate]
  rfl

lemma reportAll [Sink σ] (ds : List Diagnostic) :
    Forgets (Run.reportAll ds : Run (Tally σ) Unit) (Run.reportAll ds) := fun t => by
  rw [perform_reportAll, Run.perform_reportAll]
  rfl

lemma bind {f : α → Run (Tally σ) β} {g : α → Run σ β} (h : Forgets x y)
    (hfollow : ∀ a, Forgets (f a) (g a)) : Forgets (x >>= f) (y >>= g) := by
  intro t
  have ht := h t
  rcases hx : x.perform t with ⟨result, u⟩
  rw [hx] at ht
  cases result with
  | ok a =>
      rw [Run.perform_bind_of_ok hx, Run.perform_bind_of_ok ht.symm]
      exact hfollow a u
  | error e =>
      rw [Run.perform_bind_of_error hx, Run.perform_bind_of_error ht.symm]
      rfl

end Forgets

end Tally

end SolidOps
