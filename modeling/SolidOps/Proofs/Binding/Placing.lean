import SolidOps.Proofs.Binding.Steps
import SolidOps.Proofs.Scoped

/-!
# What binding gives

`bind` routes the arguments, places their values and completes the slots (`bind_eq_placeAll`).
Where evaluation is scoped, so are `place` and `bind`, and of the outcome only the assignments
matter: the warnings that `place` gives in between are reports and have no part in it.

* `Binding.evaluated` is the outcome of a single expression and `Binding.fill` that of a list of
  assignments; `place_readings` and `bind_readings` say that this is what binding comes to.
* `fill_isOk_iff` and `getElem?_of_fill`: filling succeeds when every assigned expression evaluates,
  and then a slot has the value of the last expression assigned to it.
* `complete_isOk`, `getElem?_of_complete`, `complete_eq_error`: completing succeeds when no required
  slot is empty, leaves values alone and makes empty slots `undef`; the first required slot that
  is empty is the error.
-/

namespace SolidOps.Binding

/-! ## The slots of a call -/

/-- The slots before any argument is placed. -/
def emptySlots (s : Signature) : Slots := List.replicate s.length none

lemma length_emptySlots (s : Signature) : (emptySlots s).length = s.length := by
  simp [emptySlots]

lemma getElem?_emptySlots {s : Signature} {i : Nat} (hi : i < s.length) :
    (emptySlots s)[i]? = some none := by
  simp [emptySlots, hi]

lemma isFilled_emptySlots (s : Signature) (slot : Nat) : (emptySlots s).isFilled slot = false := by
  rw [Slots.isFilled, emptySlots, List.getElem?_replicate]
  split <;> rfl

section Slots

variable {σ ε : Type} [Sink σ] [Evaluator σ ε]

/-- The slots that a call fills. -/
def placeAll (operator : String) (s : Signature) (args : List (Argument ε)) : Run σ Slots :=
  place operator (routed s (unclaimed s args) args) (emptySlots s)

/-- **Binding fills the slots and completes them.** -/
lemma bind_eq_placeAll (operator : String) (s : Signature) (args : List (Argument ε)) :
    (bind operator s args : Run σ Bindings) =
      placeAll operator s args >>= fun slots =>
        MonadExcept.ofExcept ((complete operator s slots).map Bindings.mk) := by
  rw [bind, destinations, openSlots_eq_unclaimed]
  refine congrArg _ (funext fun slots => ?_)
  cases complete operator s slots <;> rfl

end Slots

/-! ## Outcomes -/

section Outcomes

variable {ε : Type} [Evaluator Context ε]

/-- The outcome of an expression in a scope. -/
def evaluated (scope : Scope) (e : ε) : Except CallError Value :=
  (Evaluator.evaluate e : Run Context Value).outcome scope

/-- The slots after a list of assignments, or the error of the first expression that fails. -/
def fill (scope : Scope) : List (Nat × ε) → Slots → Except CallError Slots
  | [], slots => .ok slots
  | (slot, e) :: rest, slots => do
    let value ← evaluated scope e
    fill scope rest (slots.set slot (some value))

/-! ## Placing values -/

variable [ScopedEvaluator ε]

/-- Placing one argument is scoped.  One that has a slot has its value put there, if it has a value;
one that has none leaves the slots as they are. -/
lemma placeOne_readings (operator : String) (slots : Slots) (x : Destination × ε) :
    (placeOne operator slots x : Run Context Slots).Scoped ∧
      ∀ scope, (placeOne operator slots x : Run Context Slots).outcome scope =
        match x.1.slot? with
        | some slot => (evaluated scope x.2).map fun value => slots.set slot (some value)
        | none => .ok slots := by
  have hwarn : ∀ slots' : Slots,
      (Run.reportAll (warnings operator slots x.1) >>= fun _ => pure slots' :
        Run Context Slots).Scoped := fun slots' =>
    (Run.scoped_reportAll _).bind fun _ => Run.scoped_pure slots'
  cases h : x.1.slot? with
  | some slot =>
      rw [placeOne_of_slot operator slots h]
      have he := ScopedEvaluator.evaluate_scoped x.2
      refine ⟨he.bind fun value => hwarn _, fun scope => ?_⟩
      rw [Run.outcome_bind he fun value => hwarn _, evaluated]
      cases (Evaluator.evaluate x.2 : Run Context Value).outcome scope with
      | ok value =>
          show (_ : Run Context Slots).outcome scope = _
          rw [Run.outcome_bind (Run.scoped_reportAll _) fun _ => Run.scoped_pure _,
            Run.outcome_reportAll]
          rfl
      | error e => rfl
  | none =>
      rw [placeOne_of_no_slot operator slots h]
      refine ⟨hwarn slots, fun scope => ?_⟩
      rw [Run.outcome_bind (Run.scoped_reportAll _) fun _ => Run.scoped_pure _,
        Run.outcome_reportAll]
      rfl

/-- Placing values is scoped, and its outcome is that of the assignments. -/
lemma place_readings (operator : String) (routed : List (Destination × ε)) (slots : Slots) :
    (place operator routed slots : Run Context Slots).Scoped ∧
      ∀ scope, (place operator routed slots : Run Context Slots).outcome scope =
        fill scope (assignments routed) slots := by
  induction routed generalizing slots with
  | nil => exact ⟨Run.scoped_pure slots, fun _ => rfl⟩
  | cons x rest ih =>
      have hone := placeOne_readings operator slots x
      have hrest := fun slots' => (ih slots').1
      rw [place_cons]
      refine ⟨hone.1.bind hrest, fun scope => ?_⟩
      rw [Run.outcome_bind hone.1 hrest, hone.2 scope]
      simp only [ih]
      cases h : x.1.slot? with
      | some slot =>
          rw [assignments_cons_of_slot h, fill]
          cases evaluated scope x.2 with
          | ok value => rfl
          | error e => rfl
      | none =>
          rw [assignments_cons_of_no_slot h]
          rfl

/-- Where the values of a call end up. -/
def filled (scope : Scope) (s : Signature) (args : List (Argument ε)) : Except CallError Slots :=
  fill scope (placements s (unclaimed s args) args) (emptySlots s)

/-- Binding is scoped, and its outcome is to fill the slots and to complete them. -/
lemma bind_readings (operator : String) (s : Signature) (args : List (Argument ε)) :
    (bind operator s args : Run Context Bindings).Scoped ∧
      ∀ scope, (bind operator s args : Run Context Bindings).outcome scope =
        filled scope s args >>= fun slots => (complete operator s slots).map Bindings.mk := by
  have hplace := place_readings operator (routed s (unclaimed s args) args) (emptySlots s)
  have hcomplete (slots : Slots) :=
    Run.scoped_ofExcept ((complete operator s slots).map Bindings.mk)
  rw [bind_eq_placeAll]
  refine ⟨hplace.1.bind hcomplete, fun scope => ?_⟩
  rw [placeAll, Run.outcome_bind hplace.1 hcomplete, hplace.2 scope]
  simp only [Run.outcome_ofExcept]
  rfl

end Outcomes

/-! ## Filling slots -/

section Fill

variable {ε : Type} [Evaluator Context ε] {scope : Scope}

lemma fill_cons_eq_ok_iff {slot : Nat} {e : ε} {xs : List (Nat × ε)} {slots slots' : Slots} :
    fill scope ((slot, e) :: xs) slots = .ok slots' ↔
      ∃ v, evaluated scope e = .ok v ∧ fill scope xs (slots.set slot (some v)) = .ok slots' := by
  rw [fill]
  cases evaluated scope e with
  | ok value => simp [Bind.bind, Except.bind]
  | error err => simp [Bind.bind, Except.bind]

lemma fill_isOk_iff (xs : List (Nat × ε)) (slots : Slots) :
    (∃ slots', fill scope xs slots = .ok slots') ↔ ∀ x ∈ xs, ∃ v, evaluated scope x.2 = .ok v := by
  induction xs generalizing slots with
  | nil => simp [fill]
  | cons x xs ih =>
      obtain ⟨slot, e⟩ := x
      simp only [fill_cons_eq_ok_iff, List.forall_mem_cons]
      constructor
      · rintro ⟨slots', v, hv, hrest⟩
        exact ⟨⟨v, hv⟩, (ih _).mp ⟨slots', hrest⟩⟩
      · rintro ⟨⟨v, hv⟩, hrest⟩
        obtain ⟨slots', h⟩ := (ih (slots.set slot (some v))).mpr hrest
        exact ⟨slots', v, hv, h⟩

lemma length_of_fill {xs : List (Nat × ε)} {slots slots' : Slots}
    (h : fill scope xs slots = .ok slots') : slots'.length = slots.length := by
  induction xs generalizing slots with
  | nil => rw [← Except.ok.inj h]
  | cons x xs ih =>
      obtain ⟨v, _, hrest⟩ := fill_cons_eq_ok_iff.mp h
      rw [ih hrest, List.length_set]

/-- **After filling, a slot holds the value of the last expression assigned to it**; a slot that
nothing is assigned to is as it was. -/
lemma getElem?_of_fill {xs : List (Nat × ε)} {slots slots' : Slots}
    (h : fill scope xs slots = .ok slots') {i : Nat} (hi : i < slots.length) :
    match (xs.filter fun x => x.1 = i).getLast? with
    | some x => ∃ v, evaluated scope x.2 = .ok v ∧ slots'[i]? = some (some v)
    | none => slots'[i]? = slots[i]? := by
  induction xs generalizing slots with
  | nil => simp [← Except.ok.inj h]
  | cons x xs ih =>
      obtain ⟨slot, e⟩ := x
      obtain ⟨value, he, hrest⟩ := fill_cons_eq_ok_iff.mp h
      have hlast := ih hrest (by simpa using hi)
      by_cases hslot : slot = i
      · subst hslot
        rw [List.filter_cons_of_pos (by simp), List.getLast?_cons]
        cases hx : (xs.filter fun x => x.1 = slot).getLast? with
        | some y => simpa [hx] using hlast
        | none =>
            rw [hx] at hlast
            exact ⟨value, he, by rw [hlast, List.getElem?_set_self hi]⟩
      · rw [List.filter_cons_of_neg (by simpa using hslot)]
        simpa [List.getElem?_set_ne hslot] using hlast

end Fill

/-! ## Completing slots -/

section Complete

variable {operator : String} {p : Parameter} {s : Signature} {slot : Option Value} {slots : Slots}
  {entries : List (String × Value)}

lemma complete_cons_missing (h : p.required = true) :
    complete operator (p :: s) (none :: slots) = .error (.missingArgument p.name operator) := by
  rw [complete, if_pos h]

lemma complete_cons (h : p.required = true → slot ≠ none) :
    complete operator (p :: s) (slot :: slots) =
      (complete operator s slots).map ((p.name, slot.getD .undefined) :: ·) := by
  cases slot with
  | some value => rfl
  | none =>
      rw [complete, if_neg fun hreq => h hreq rfl]
      rfl

lemma complete_cons_eq_ok_iff :
    complete operator (p :: s) (slot :: slots) = .ok entries ↔
      (p.required = true → slot ≠ none) ∧ ∃ rest, complete operator s slots = .ok rest ∧
        entries = (p.name, slot.getD .undefined) :: rest := by
  by_cases h : p.required = true → slot ≠ none
  · rw [complete_cons h]
    cases complete operator s slots with
    | ok rest =>
        simp only [Except.map, Except.ok.injEq]
        exact ⟨fun heq => ⟨h, rest, rfl, heq.symm⟩, fun ⟨_, _, hrest, heq⟩ => by rw [heq, hrest]⟩
    | error e => simp [Except.map]
  · rw [Classical.not_imp, not_not] at h
    obtain ⟨hreq, rfl⟩ := h
    simp [complete_cons_missing hreq, hreq]

lemma names_of_complete (hlength : slots.length = s.length)
    (h : complete operator s slots = .ok entries) : entries.map Prod.fst = s.names := by
  induction s generalizing slots entries with
  | nil =>
      obtain rfl : slots = [] := List.eq_nil_of_length_eq_zero hlength
      simp [← Except.ok.inj h, Signature.names]
  | cons p s ih =>
      obtain ⟨slot, slots, rfl⟩ := List.exists_cons_of_length_eq_add_one hlength
      obtain ⟨_, rest, hrest, rfl⟩ := complete_cons_eq_ok_iff.mp h
      have hnames := ih (by simpa using hlength) hrest
      simp [hnames, Signature.names]

/-- **A completed slot keeps its value, and an empty one becomes `undef`**, which no required
parameter's does. -/
lemma getElem?_of_complete (h : complete operator s slots = .ok entries) {i : Nat}
    (hp : s[i]? = some p) (hslot : slots[i]? = some slot) :
    (p.required = true → slot ≠ none) ∧ entries[i]? = some (p.name, slot.getD .undefined) := by
  induction s generalizing slots entries i with
  | nil => simp at hp
  | cons q s ih =>
      cases slots with
      | nil => simp at hslot
      | cons head slots =>
          obtain ⟨hq, rest, hrest, rfl⟩ := complete_cons_eq_ok_iff.mp h
          cases i with
          | zero =>
              obtain rfl : q = p := by simpa using hp
              obtain rfl : head = slot := by simpa using hslot
              exact ⟨hq, rfl⟩
          | succ i => exact ih hrest (by simpa using hp) (by simpa using hslot)

lemma complete_isOk (operator : String) (h : ∀ (i : Nat) (p : Parameter), s[i]? = some p →
    p.required = true → slots[i]? ≠ some none) :
    ∃ entries, complete operator s slots = .ok entries := by
  induction s generalizing slots with
  | nil => exact ⟨[], by cases slots <;> rfl⟩
  | cons q s ih =>
      cases slots with
      | nil => exact ⟨[], rfl⟩
      | cons head slots =>
          obtain ⟨rest, hrest⟩ := ih fun i p hp hreq => h (i + 1) p (by simpa using hp) hreq
          refine ⟨_, complete_cons_eq_ok_iff.mpr ⟨fun hreq hnone => ?_, rest, hrest, rfl⟩⟩
          exact h 0 q rfl hreq (by rw [hnone]; rfl)

/-- **The error is the first required parameter whose slot is empty.** -/
lemma complete_eq_error {i : Nat} (hp : s[i]? = some p) (hreq : p.required = true)
    (hslot : slots[i]? = some none)
    (hbefore : ∀ j < i, ∀ q : Parameter, s[j]? = some q → q.required = true →
      slots[j]? ≠ some none) :
    complete operator s slots = .error (.missingArgument p.name operator) := by
  induction s generalizing slots i with
  | nil => simp at hp
  | cons q s ih =>
      cases slots with
      | nil => simp at hslot
      | cons head slots =>
          cases i with
          | zero =>
              obtain rfl : q = p := by simpa using hp
              obtain rfl : head = none := by simpa using hslot
              exact complete_cons_missing hreq
          | succ i =>
              have hhead : q.required = true → head ≠ none := fun hq hnone =>
                hbefore 0 i.succ_pos q rfl hq (by rw [hnone]; rfl)
              have hrest := ih (by simpa using hp) (by simpa using hslot) fun j hj r hr hrreq =>
                hbefore (j + 1) (Nat.succ_lt_succ hj) r (by simpa using hr) hrreq
              rw [complete_cons hhead, hrest]
              rfl

/-- Completing fails for want of a declared parameter and for nothing else. -/
lemma error_of_complete {e : CallError} (h : complete operator s slots = .error e) :
    ∃ name ∈ s.names, e = .missingArgument name operator := by
  induction s generalizing slots with
  | nil => cases slots <;> cases h
  | cons q s ih =>
      cases slots with
      | nil => cases h
      | cons head slots =>
          by_cases hhead : q.required = true → head ≠ none
          · rw [complete_cons hhead] at h
            cases hrest : complete operator s slots with
            | ok rest =>
                rw [hrest] at h
                cases h
            | error e' =>
                rw [hrest] at h
                obtain rfl : e' = e := Except.error.inj h
                obtain ⟨name, hname, he⟩ := ih hrest
                exact ⟨name, List.mem_cons_of_mem _ hname, he⟩
          · rw [Classical.not_imp, not_not] at hhead
            obtain ⟨hreq, rfl⟩ := hhead
            rw [complete_cons_missing hreq] at h
            exact ⟨q.name, List.mem_cons_self, (Except.error.inj h).symm⟩

end Complete

end SolidOps.Binding
