import SolidOps.Proofs.Binding.Matching
import SolidOps.Proofs.Run

/-!
# One argument at a time

`routes` and `place` are recursions with a branch for each kind of argument.  Both take the
arguments one by one, and what they do to one of them can be said once for all kinds.

* `Binding.Destination.slot?`: the slot an argument goes to, if it goes anywhere.
* `Binding.warnings`: what is reported of an argument, given the slots filled so far.
* `Binding.placeOne`: an argument with a slot is evaluated, reported on and put there; an argument
  without one is only reported on.

**`Binding.place_cons`** says that placing a list of arguments is placing the first one and then the
others.  It holds in every state and for every kind of expression, so a statement about `place` is
an induction with one case.
-/

namespace SolidOps.Binding

/-- The slot of a destination that has one. -/
def Destination.slot? : Destination → Option Nat
  | .declared _ slot => some slot
  | .positional slot => some slot
  | .unknown _ => none
  | .surplus => none

/-! ## Where one argument goes -/

section Routes

variable {ε : Type} (s : Signature)

/-- Where one argument goes while certain slots are open, and the slots open afterwards. -/
def route : List Nat → Option String → Destination × List Nat
  | slots, some name =>
    (match s.slot? name with
      | some slot => .declared name slot
      | none => .unknown name, slots)
  | slot :: slots, none => (.positional slot, slots)
  | [], none => (.surplus, [])

lemma routed_cons (slots : List Nat) (a : Argument ε) (args : List (Argument ε)) :
    routed s slots (a :: args) =
      ((route s slots a.name).1, a.expression) :: routed s (route s slots a.name).2 args := by
  cases hname : a.name with
  | some name =>
      cases hslot : s.slot? name with
      | some slot => rw [routed_declared s hname hslot, route, hslot]
      | none => rw [routed_unknown s hname hslot, route, hslot]
  | none =>
      cases slots with
      | cons slot slots => rw [routed_positional s hname, route]
      | nil => rw [routed_surplus s hname, route]

lemma route_open_subset (slots : List Nat) (name : Option String) :
    (route s slots name).2 ⊆ slots := by
  cases name with
  | some name => exact List.Subset.refl _
  | none =>
      cases slots with
      | nil => exact List.Subset.refl _
      | cons slot slots => exact List.subset_cons_self _ _

lemma slot?_route_named (slots : List Nat) (name : String) :
    (route s slots (some name)).1.slot? = s.slot? name := by
  rw [route]
  cases s.slot? name <;> rfl

lemma slot?_route_positional (slots : List Nat) : (route s slots none).1.slot? = slots.head? := by
  cases slots <;> rfl

end Routes

/-! ## What happens to one argument -/

/-- The warning for an argument whose slot may be taken. -/
def repeatWarnings (operator name : String) (slots : Slots) (slot : Nat) : List Diagnostic :=
  if slots.isFilled slot then [.warning (repeatedArgument operator name)] else []

/-- What is reported of an argument with a given destination, while certain slots are filled.
Nothing is said about a positional argument that has a slot. -/
def warnings (operator : String) (slots : Slots) : Destination → List Diagnostic
  | .declared name slot => repeatWarnings operator name slots slot
  | .positional _ => []
  | .unknown name => [.warning (unknownArgument operator name)]
  | .surplus => [.warning (surplusArgument operator)]

/-- The slots with the value of an argument put where the argument goes. -/
def Destination.put (d : Destination) (value : Value) (slots : Slots) : Slots :=
  match d.slot? with
  | some slot => slots.set slot (some value)
  | none => slots

lemma Destination.put_of_slot {d : Destination} {slot : Nat} (h : d.slot? = some slot) (v : Value)
    (slots : Slots) : d.put v slots = slots.set slot (some v) := by
  rw [Destination.put, h]

lemma Destination.getElem?_put {d : Destination} {slot : Nat} (h : d.slot? ≠ some slot) (v : Value)
    (slots : Slots) : (d.put v slots)[slot]? = slots[slot]? := by
  rw [Destination.put]
  cases hd : d.slot? with
  | none => rfl
  | some i =>
      have hne : i ≠ slot := fun hi => h (by rw [hd, hi])
      exact List.getElem?_set_ne hne

lemma Destination.isFilled_put {d : Destination} {slot : Nat} (h : d.slot? ≠ some slot) (v : Value)
    (slots : Slots) : (d.put v slots).isFilled slot = slots.isFilled slot := by
  rw [Slots.isFilled, Slots.isFilled, Destination.getElem?_put h]

lemma Destination.put_comm {d d' : Destination} (h : ∀ i, d.slot? = some i → d'.slot? ≠ some i)
    (v v' : Value) (slots : Slots) : d'.put v' (d.put v slots) = d.put v (d'.put v' slots) := by
  simp only [Destination.put]
  cases hd : d.slot? with
  | none => cases d'.slot? <;> rfl
  | some i =>
      cases hd' : d'.slot? with
      | none => rfl
      | some j =>
          have hne : i ≠ j := fun hij => h i hd (by rw [hd', hij])
          exact List.set_comm _ _ hne

/-- A value put elsewhere is no reason for a warning. -/
lemma warnings_put (operator : String) {d d' : Destination}
    (h : ∀ i, d.slot? = some i → d'.slot? ≠ some i) (v : Value) (slots : Slots) :
    warnings operator (d.put v slots) d' = warnings operator slots d' := by
  cases d' with
  | positional slot => rfl
  | unknown name => rfl
  | surplus => rfl
  | declared name slot =>
      rw [warnings, warnings, repeatWarnings, repeatWarnings,
        Destination.isFilled_put fun hd => h slot hd rfl]

lemma assignments_cons_of_slot {ε : Type} {x : Destination × ε} {slot : Nat}
    (h : x.1.slot? = some slot) (rest : List (Destination × ε)) :
    assignments (x :: rest) = (slot, x.2) :: assignments rest := by
  obtain ⟨destination, e⟩ := x
  cases destination <;> simp_all [Destination.slot?, assignments]

lemma assignments_cons_of_no_slot {ε : Type} {x : Destination × ε} (h : x.1.slot? = none)
    (rest : List (Destination × ε)) : assignments (x :: rest) = assignments rest := by
  obtain ⟨destination, e⟩ := x
  cases destination <;> simp_all [Destination.slot?, assignments]

section Placing

variable {σ ε : Type} [Sink σ] [Evaluator σ ε]

/-- Places one argument. -/
def placeOne (operator : String) (slots : Slots) (x : Destination × ε) : Run σ Slots :=
  match x.1.slot? with
  | some slot => do
    let value ← Evaluator.evaluate x.2
    Run.reportAll (warnings operator slots x.1)
    pure (slots.set slot (some value))
  | none => do
    Run.reportAll (warnings operator slots x.1)
    pure slots

lemma reportAll_singleton (message : String) :
    (Run.reportAll [.warning message] : Run σ Unit) = Run.warn message := by
  rw [Run.reportAll, Run.reportAll, Run.warn]
  exact bind_pure _

/-- **Placing goes argument by argument.** -/
lemma place_cons (operator : String) (slots : Slots) (x : Destination × ε)
    (rest : List (Destination × ε)) :
    (place operator (x :: rest) slots : Run σ Slots) =
      placeOne operator slots x >>= place operator rest := by
  obtain ⟨destination, e⟩ := x
  cases destination with
  | declared name slot =>
      simp only [place, placeOne, Destination.slot?, warnings, repeatWarnings, bind_assoc,
        pure_bind]
      by_cases h : slots.isFilled slot = true
      · simp only [h, if_true, reportAll_singleton]
      · simp only [h]
        rfl
  | positional slot =>
      simp only [place, placeOne, Destination.slot?, warnings, Run.reportAll, bind_assoc, pure_bind]
  | unknown name =>
      simp only [place, placeOne, Destination.slot?, warnings, reportAll_singleton, bind_assoc,
        pure_bind]
  | surplus =>
      simp only [place, placeOne, Destination.slot?, warnings, reportAll_singleton, bind_assoc,
        pure_bind]

lemma place_cons_cons (operator : String) (slots : Slots) (x y : Destination × ε)
    (rest : List (Destination × ε)) :
    (place operator (x :: y :: rest) slots : Run σ Slots) =
      (placeOne operator slots x >>= fun slots' => placeOne operator slots' y) >>=
        place operator rest := by
  rw [place_cons, bind_assoc]
  exact congrArg _ (funext fun slots' => place_cons operator slots' y rest)

lemma place_append (operator : String) (xs ys : List (Destination × ε)) (slots : Slots) :
    (place operator (xs ++ ys) slots : Run σ Slots) =
      place operator xs slots >>= place operator ys := by
  induction xs generalizing slots with
  | nil => exact (pure_bind slots _).symm
  | cons x xs ih =>
      rw [List.cons_append, place_cons, place_cons, bind_assoc]
      exact congrArg _ (funext ih)

lemma placeOne_of_slot (operator : String) (slots : Slots) {x : Destination × ε} {slot : Nat}
    (h : x.1.slot? = some slot) :
    (placeOne operator slots x : Run σ Slots) =
      Evaluator.evaluate x.2 >>= fun value =>
        Run.reportAll (warnings operator slots x.1) >>= fun _ =>
          pure (slots.set slot (some value)) := by
  simp only [placeOne, h]

lemma placeOne_of_no_slot (operator : String) (slots : Slots) {x : Destination × ε}
    (h : x.1.slot? = none) :
    (placeOne operator slots x : Run σ Slots) =
      Run.reportAll (warnings operator slots x.1) >>= fun _ => pure slots := by
  simp only [placeOne, h]

/-- An argument that is placed leaves its slot with some value. -/
lemma eq_put_of_placeOne {operator : String} {slots slots' : Slots} {x : Destination × ε} {t u : σ}
    (h : (placeOne operator slots x).perform t = (.ok slots', u)) :
    ∃ v, slots' = x.1.put v slots := by
  cases hslot : x.1.slot? with
  | some slot =>
      rw [placeOne_of_slot operator slots hslot, Run.perform_bind_eq_ok_iff] at h
      obtain ⟨v, w, -, h⟩ := h
      rw [Run.perform_bind_of_ok (Run.perform_reportAll _ w), Run.perform_pure] at h
      cases h
      exact ⟨v, (Destination.put_of_slot hslot v slots).symm⟩
  | none =>
      rw [placeOne_of_no_slot operator slots hslot,
        Run.perform_bind_of_ok (Run.perform_reportAll _ t), Run.perform_pure] at h
      cases h
      exact ⟨.undefined, by rw [Destination.put, hslot]⟩

/-- An argument has the same effect wherever it goes, as long as slot and warnings are the same. -/
lemma placeOne_congr (operator : String) (slots : Slots) {d d' : Destination} (e : ε)
    (hslot : d.slot? = d'.slot?) (hwarn : warnings operator slots d = warnings operator slots d') :
    (placeOne operator slots (d, e) : Run σ Slots) = placeOne operator slots (d', e) := by
  simp only [placeOne, hslot, hwarn]

/-- What follows an argument need only be known for slots with some value where it goes. -/
lemma placeOne_bind_congr {α : Type} (operator : String) (slots : Slots) (x : Destination × ε)
    {f g : Slots → Run σ α} (h : ∀ v, f (x.1.put v slots) = g (x.1.put v slots)) :
    placeOne operator slots x >>= f = placeOne operator slots x >>= g := by
  simp only [Destination.put] at h
  cases hslot : x.1.slot? with
  | some slot =>
      simp only [hslot] at h
      simp only [placeOne_of_slot operator slots hslot, bind_assoc, pure_bind, h]
  | none =>
      simp only [hslot] at h
      simp only [placeOne_of_no_slot operator slots hslot, bind_assoc, pure_bind, h .undefined]

end Placing

end SolidOps.Binding
