import SolidOps.Proofs.Binding.Omission
import SolidOps.Proofs.Binding.Trace
import SolidOps.Proofs.Tally

/-!
# Every argument is accounted for

An argument of a call ends up in a slot, or a warning says why not, or it replaces a value that
another argument put there, and then a warning says this.  So the arguments can be counted: there
are as many as filled slots and warnings together.

* `Binding.Slots.filledCount` counts slots.  `Binding.filledCount_put` is what one argument does to
  the count, and `Binding.exists_put_of_placeOne` what it does to the warnings, which are those of a
  `Tally`: what the evaluation of an argument reports does not count.
* `Binding.ReachedBy` says which slots some arguments of a call have reached.
* `Binding.placeUntil` is the loop of a binding up to some point of the call, and
  `Binding.Accounted` what holds there.

Positional arguments write to slots without looking at them, and this is where the count could go
wrong.  It does not because `Accounted` says of every slot whether it is filled: when an argument so
far was named after it, or when it is among the first unclaimed slots, as many as there were
positional arguments so far.  The next unclaimed slot is neither.

**`Binding.no_argument_lost`** has the consequences, for every point and for the result.
-/

namespace SolidOps.Binding

variable {σ ε : Type} {operator : String} {s : Signature} {args before after : List (Argument ε)}
  {a : Argument ε} {slots slots' : Slots} {i : Nat}

/-! ## Counting filled slots -/

/-- The number of filled slots. -/
def Slots.filledCount (slots : Slots) : Nat := slots.countP Option.isSome

lemma filledCount_emptySlots (s : Signature) : (emptySlots s).filledCount = 0 := by
  simp [Slots.filledCount, emptySlots, List.countP_replicate]

lemma isFilled_eq_isSome (hi : i < slots.length) : slots.isFilled i = slots[i].isSome := by
  simp [Slots.isFilled, hi]

/-- Filled slots can be counted by their numbers. -/
lemma filledCount_eq (slots : Slots) :
    slots.filledCount = ((List.range slots.length).filter fun i => slots.isFilled i).length := by
  have hslots : (List.range slots.length).map (fun i => (slots[i]?).join) = slots := by
    refine List.ext_getElem (by simp) fun i hi _ => ?_
    simp at hi
    simp [hi]
  have hcount := congrArg (List.countP Option.isSome) hslots
  rw [List.countP_map] at hcount
  rw [Slots.filledCount, ← hcount, List.countP_eq_length_filter]
  rfl

lemma filledCount_set (hi : i < slots.length) (v : Value) :
    Slots.filledCount (slots.set i (some v)) =
      slots.filledCount + if slots.isFilled i then 0 else 1 := by
  rw [isFilled_eq_isSome hi, Slots.filledCount, Slots.filledCount, List.countP_set hi]
  by_cases h : slots[i].isSome = true
  · have hpos : 0 < slots.countP Option.isSome :=
      List.countP_pos_iff.mpr ⟨slots[i], List.getElem_mem hi, h⟩
    simp only [h, if_true, Option.isSome_some]
    omega
  · simp [h]

lemma isFilled_put_iff {d : Destination} (hd : ∀ j, d.slot? = some j → j < slots.length)
    (v : Value) :
    (d.put v slots).isFilled i = true ↔ d.slot? = some i ∨ slots.isFilled i = true := by
  by_cases h : d.slot? = some i
  · simp [Slots.isFilled, Destination.put, h, hd i h]
  · simp [Destination.isFilled_put h, h]

/-- **One argument is one more filled slot or one warning**, provided that positional arguments go
to empty slots. -/
lemma filledCount_put (operator : String) {d : Destination}
    (hd : ∀ j, d.slot? = some j → j < slots.length)
    (hempty : ∀ j, d = .positional j → slots.isFilled j = false) (v : Value) :
    (d.put v slots).filledCount + (warnings operator slots d).length = slots.filledCount + 1 := by
  cases d with
  | declared name slot =>
      rw [Destination.put_of_slot rfl, filledCount_set (hd slot rfl), warnings, repeatWarnings]
      split <;> rfl
  | positional slot =>
      rw [Destination.put_of_slot rfl, filledCount_set (hd slot rfl), hempty slot rfl]
      rfl
  | unknown name => rfl
  | surplus => rfl

/-! ## The slots reached so far -/

/-- Some argument of `before` goes to slot `i` in the call `args`: it is named after the slot, or
there are enough positional arguments for the slot to be taken by one of them. -/
def ReachedBy (s : Signature) (args before : List (Argument ε)) (i : Nat) : Prop :=
  (∃ b ∈ before, b.name.bind s.slot? = some i) ∨
    i ∈ (unclaimed s args).take (positionals before).length

lemma not_reachedBy_nil : ¬ReachedBy s args [] i := by
  simp [ReachedBy, positionals]

lemma reachedBy_all_iff : ReachedBy s args args i ↔ Reached s args i := by
  rw [ReachedBy, reached_iff, claimed_iff_bind]

/-- **The next argument reaches the slot it goes to** and no other. -/
lemma reachedBy_append_iff : ReachedBy s args (before ++ [a]) i ↔
    (route s (openAfter s args before) a.name).1.slot? = some i ∨ ReachedBy s args before i := by
  rw [ReachedBy, ReachedBy, length_positionals_append]
  cases hname : a.name with
  | some name =>
      rw [slot?_route_named]
      simp only [List.mem_append, List.mem_singleton, or_and_right, exists_or, exists_eq_left,
        hname, Option.bind_some, reduceCtorEq, if_false, Nat.add_zero]
      rw [or_comm (a := ∃ b ∈ before, _), or_assoc]
  | none =>
      rw [slot?_route_positional, openAfter, List.head?_drop, if_pos rfl, List.take_add_one]
      simp only [List.mem_append, List.mem_singleton, or_and_right, exists_or, exists_eq_left,
        hname, Option.bind_none, reduceCtorEq, or_false, Option.mem_toList]
      rw [or_comm (a := i ∈ List.take _ _), or_left_comm]

lemma ReachedBy.append (h : ReachedBy s args before i) (middle : List (Argument ε)) :
    ReachedBy s args (before ++ middle) i := by
  induction middle generalizing before with
  | nil => rwa [List.append_nil]
  | cons a middle ih =>
      rw [List.append_cons]
      exact ih (reachedBy_append_iff.mpr (.inr h))

/-- A slot still open has not been reached. -/
lemma not_reachedBy_of_mem_openAfter (hargs : args = before ++ after)
    (h : i ∈ openAfter s args before) : ¬ReachedBy s args before i := by
  rintro (⟨b, hb, hslot⟩ | htake)
  · refine bind_slot?_ne_of_mem_unclaimed (mem_unclaimed_of_mem_openAfter h) b ?_ hslot
    rw [hargs]
    exact List.mem_append_left _ hb
  · exact List.disjoint_take_drop (nodup_unclaimed s args) le_rfl htake h

/-! ## Where an argument goes -/

lemma lt_length_of_slot?_route (h : (route s (openAfter s args before) a.name).1.slot? = some i) :
    i < s.length := by
  cases hname : a.name with
  | some name =>
      rw [hname, slot?_route_named] at h
      exact (slot?_eq_some_iff.mp h).lt_length
  | none =>
      rw [hname, slot?_route_positional] at h
      exact (mem_unclaimed.mp (mem_unclaimed_of_mem_openAfter (List.mem_of_mem_head? h))).1

lemma mem_of_route_eq_positional {name : Option String} {opened : List Nat}
    (h : (route s opened name).1 = .positional i) : i ∈ opened := by
  cases name with
  | some name =>
      rw [route] at h
      cases hslot : s.slot? name <;> simp [hslot] at h
  | none =>
      refine List.mem_of_mem_head? ?_
      rw [Option.mem_def, ← slot?_route_positional s, h, Destination.slot?]

/-- The later arguments of a call go where they would go on their own, with the slots open that
the positional arguments before them have left. -/
lemma routed_append (s : Signature) (opened : List Nat) (before after : List (Argument ε)) :
    routed s opened (before ++ after) =
      routed s opened before ++ routed s (opened.drop (positionals before).length) after := by
  induction before generalizing opened with
  | nil =>
      rw [routed_nil]
      rfl
  | cons a before ih =>
      rw [List.cons_append, routed_cons, routed_cons, ih, List.cons_append]
      cases hname : a.name with
      | some name => rw [positionals_cons_named hname, route]
      | none =>
          rw [positionals_cons_positional hname]
          cases opened <;> simp [route]

/-! ## Points of a binding -/

section Placing

variable [Sink σ] [Evaluator σ ε]

lemma placeOne_forgets (operator : String) (slots : Slots) (x : Destination × ε) :
    Tally.Forgets (placeOne operator slots x) (placeOne operator slots x : Run σ Slots) := by
  cases hslot : x.1.slot? with
  | some slot =>
      rw [placeOne_of_slot operator slots hslot, placeOne_of_slot operator slots hslot]
      exact (Tally.Forgets.evaluate x.2).bind fun v =>
        (Tally.Forgets.reportAll _).bind fun _ => Tally.Forgets.pure _
  | none =>
      rw [placeOne_of_no_slot operator slots hslot, placeOne_of_no_slot operator slots hslot]
      exact (Tally.Forgets.reportAll _).bind fun _ => Tally.Forgets.pure slots

lemma place_forgets (operator : String) (xs : List (Destination × ε)) (slots : Slots) :
    Tally.Forgets (place operator xs slots) (place operator xs slots : Run σ Slots) := by
  induction xs generalizing slots with
  | nil => exact Tally.Forgets.pure slots
  | cons x xs ih =>
      rw [place_cons, place_cons]
      exact (placeOne_forgets operator slots x).bind ih

/-- **Without the tally, a binding does what it does.** -/
lemma bind_forgets (operator : String) (s : Signature) (args : List (Argument ε)) :
    Tally.Forgets (bind operator s args) (bind operator s args : Run σ Bindings) := by
  rw [bind_eq_placeAll, bind_eq_placeAll]
  exact (place_forgets operator _ _).bind fun slots => Tally.Forgets.ofExcept _

/-- An argument that is placed leaves its value where it goes, and its warnings in the tally.  A
positional argument with a slot does nothing else than to be evaluated. -/
lemma exists_put_of_placeOne {x : Destination × ε} {t u : Tally σ}
    (h : (placeOne operator slots x).perform t = (.ok slots', u)) :
    ∃ v, slots' = x.1.put v slots ∧ u.warned = t.warned ++ warnings operator slots x.1 ∧
      ∀ slot, x.1 = .positional slot →
        (Evaluator.evaluate x.2 : Run σ Value).perform t.state = (.ok v, u.state) := by
  cases hslot : x.1.slot? with
  | some slot =>
      rw [placeOne_of_slot operator slots hslot, Run.perform_bind_eq_ok_iff] at h
      obtain ⟨v, w, heval, h⟩ := h
      rw [Tally.perform_evaluate] at heval
      rw [Run.perform_bind_of_ok (Tally.perform_reportAll _ w), Run.perform_pure] at h
      cases h
      obtain ⟨hv, rfl⟩ := Prod.mk.inj heval
      refine ⟨v, (Destination.put_of_slot hslot v slots).symm, rfl, fun i hx => ?_⟩
      rw [hx, warnings, ← hv]
      rfl
  | none =>
      rw [placeOne_of_no_slot operator slots hslot,
        Run.perform_bind_of_ok (Tally.perform_reportAll _ t), Run.perform_pure] at h
      cases h
      refine ⟨.undefined, by rw [Destination.put, hslot], rfl, fun i hx => ?_⟩
      rw [hx] at hslot
      cases hslot

/-- The loop of a binding up to the point where the arguments `before` of the call `args` have been
placed. -/
def placeUntil (operator : String) (s : Signature) (args before : List (Argument ε)) :
    Run σ Slots :=
  place operator (routed s (unclaimed s args) before) (emptySlots s)

/-- **A binding passes through every point**, goes on with the other arguments from there and then
completes the slots. -/
lemma bind_eq_placeUntil (operator : String) (s : Signature) (hargs : args = before ++ after) :
    (bind operator s args : Run σ Bindings) =
      placeUntil operator s args before >>= fun slots =>
        place operator (routed s (openAfter s args before) after) slots >>= fun slots =>
          MonadExcept.ofExcept ((complete operator s slots).map Bindings.mk) := by
  have hrouted : routed s (unclaimed s args) args =
      routed s (unclaimed s args) before ++ routed s (openAfter s args before) after := by
    rw [openAfter, ← routed_append, ← hargs]
  rw [bind_eq_placeAll, placeAll, hrouted, place_append, bind_assoc]
  rfl

lemma placeUntil_nil (operator : String) (s : Signature) (args : List (Argument ε)) :
    (placeUntil operator s args [] : Run σ Slots) = pure (emptySlots s) := by
  rw [placeUntil, routed_nil, place]

lemma placeUntil_append (operator : String) (s : Signature) (args before : List (Argument ε))
    (a : Argument ε) :
    (placeUntil operator s args (before ++ [a]) : Run σ Slots) =
      placeUntil operator s args before >>= fun slots =>
        placeOne operator slots ((route s (openAfter s args before) a.name).1, a.expression) := by
  rw [placeUntil, routed_append, place_append, ← openAfter, routed_cons, routed_nil, placeUntil]
  refine congrArg _ (funext fun slots => ?_)
  rw [place_cons]
  exact bind_pure _

end Placing

/-! ## The account -/

/-- What holds when the arguments `before` of the call `args` have been placed. -/
structure Accounted (s : Signature) (args before : List (Argument ε)) (slots : Slots)
    (warned : List Diagnostic) : Prop where
  length : slots.length = s.length
  filled : ∀ i, slots.isFilled i = true ↔ ReachedBy s args before i
  count : before.length = slots.filledCount + warned.length

lemma accounted_emptySlots (s : Signature) (args : List (Argument ε)) :
    Accounted s args [] (emptySlots s) [] where
  length := length_emptySlots s
  filled i := by simp [isFilled_emptySlots, not_reachedBy_nil]
  count := by rw [filledCount_emptySlots]; rfl

namespace Accounted

variable {warned : List Diagnostic}

/-- The slots that positional arguments can still take are empty. -/
lemma isFilled_of_mem_openAfter (h : Accounted s args before slots warned)
    (hargs : args = before ++ after) (hi : i ∈ openAfter s args before) :
    slots.isFilled i = false := by
  rw [← Bool.not_eq_true, h.filled]
  exact not_reachedBy_of_mem_openAfter hargs hi

/-- **The next argument keeps the account.** -/
lemma put (h : Accounted s args before slots warned) (operator : String)
    (hargs : args = before ++ after) (v : Value) :
    Accounted s args (before ++ [a]) ((route s (openAfter s args before) a.name).1.put v slots)
      (warned ++ warnings operator slots (route s (openAfter s args before) a.name).1) := by
  have hlt : ∀ j, (route s (openAfter s args before) a.name).1.slot? = some j →
      j < slots.length := fun j hj => by
    rw [h.length]
    exact lt_length_of_slot?_route hj
  have hempty : ∀ j, (route s (openAfter s args before) a.name).1 = .positional j →
      slots.isFilled j = false := fun j hj =>
    h.isFilled_of_mem_openAfter hargs (mem_of_route_eq_positional hj)
  refine ⟨?_, fun i => ?_, ?_⟩
  · rw [Destination.put]
    cases (route s (openAfter s args before) a.name).1.slot? <;> simp [h.length]
  · rw [isFilled_put_iff hlt, h.filled, reachedBy_append_iff]
  · have hone := filledCount_put operator hlt hempty v
    have hcount := h.count
    rw [List.length_append, List.length_singleton, List.length_append]
    omega

end Accounted

section Run

variable [Sink σ] [Evaluator σ ε] {c : σ} {t u : Tally σ}

/-- What takes the loop from one point to the next. -/
lemma exists_of_placeUntil_append
    (h : (placeUntil operator s args (before ++ [a])).perform t = (.ok slots', u)) :
    ∃ slots w, (placeUntil operator s args before).perform t = (.ok slots, w) ∧
      (placeOne operator slots
        ((route s (openAfter s args before) a.name).1, a.expression)).perform w =
          (.ok slots', u) := by
  rwa [placeUntil_append, Run.perform_bind_eq_ok_iff] at h

/-- **The account is right at every point.** -/
lemma accounted_of_placeUntil (hargs : args = before ++ after)
    (h : (placeUntil operator s args before).perform (Tally.ofState c) = (.ok slots, t)) :
    Accounted s args before slots t.warned := by
  induction before using List.reverseRecOn generalizing after slots t with
  | nil =>
      rw [placeUntil_nil, Run.perform_pure] at h
      cases h
      exact accounted_emptySlots s args
  | append_singleton before a ih =>
      obtain ⟨slots', w, hbefore, hone⟩ := exists_of_placeUntil_append h
      obtain ⟨v, rfl, hwarned, -⟩ := exists_put_of_placeOne hone
      rw [List.append_assoc] at hargs
      rw [hwarned]
      exact (ih hargs hbefore).put operator hargs v

/-- **A positional argument goes to an empty slot that no argument claims**, or it is surplus. -/
lemma positional_of_placeUntil (hargs : args = before ++ a :: after) (ha : a.name = none)
    (h : (placeUntil operator s args before).perform (Tally.ofState c) = (.ok slots, t))
    (h' : (placeUntil operator s args (before ++ [a])).perform (Tally.ofState c) =
      (.ok slots', u)) :
    (slots' = slots ∧ u.warned = t.warned ++ [.warning (surplusArgument operator)]) ∨
      ∃ i v, (Evaluator.evaluate a.expression : Run σ Value).perform t.state = (.ok v, u.state) ∧
        slots[i]? = some none ∧ ¬Claimed s args i ∧ slots' = slots.set i (some v) := by
  have haccount := accounted_of_placeUntil hargs h
  obtain ⟨placed, w, hplaced, hone⟩ := exists_of_placeUntil_append h'
  obtain ⟨hslots, rfl⟩ := Prod.mk.inj (hplaced.symm.trans h)
  obtain rfl : placed = slots := Except.ok.inj hslots
  rw [ha] at hone
  cases hopen : openAfter s args before with
  | nil =>
      rw [hopen] at hone
      obtain ⟨v, rfl, hwarned, -⟩ := exists_put_of_placeOne hone
      exact .inl ⟨rfl, hwarned⟩
  | cons i rest =>
      rw [hopen] at hone
      obtain ⟨v, rfl, -, heval⟩ := exists_put_of_placeOne hone
      have hi : i ∈ openAfter s args before := hopen ▸ List.mem_cons_self
      have hunclaimed := mem_unclaimed.mp (mem_unclaimed_of_mem_openAfter hi)
      have hlt : i < placed.length := haccount.length ▸ hunclaimed.1
      have hempty := haccount.isFilled_of_mem_openAfter hargs hi
      rw [isFilled_eq_isSome hlt, Option.isSome_eq_false_iff, Option.isNone_iff_eq_none] at hempty
      exact .inr ⟨i, v, heval i rfl, List.getElem?_eq_some_iff.mpr ⟨hlt, hempty⟩, hunclaimed.2, rfl⟩

end Run

/-! ## The law -/

instance (s : Signature) (args : List (Argument ε)) : DecidablePred (Reached s args) := fun _ =>
  decidable_of_iff _ reached_iff.symm

/-- The slots that some argument of a call goes to, in order. -/
def reachedSlots (s : Signature) (args : List (Argument ε)) : List Nat :=
  (List.range s.length).filter fun i => Reached s args i

lemma Accounted.filledCount_eq {warned : List Diagnostic}
    (h : Accounted s args args slots warned) :
    slots.filledCount = (reachedSlots s args).length := by
  rw [Binding.filledCount_eq, h.length, reachedSlots]
  refine congrArg List.length (List.filter_congr fun i _ => ?_)
  rw [Bool.eq_iff_iff, h.filled, reachedBy_all_iff, decide_eq_true_iff]

/-- **No argument is lost silently.**

A tally changes nothing: without it, a binding has the same outcome and leaves the same state.  And
a binding passes through every point of its call.  At each, as many arguments have been placed as
there are filled slots and warnings of the binder.  At later points the filled slots are still
filled.  If the next argument is positional, its value is put into an empty slot that no argument of
the whole call claims, or nothing is put anywhere and it is reported to be surplus.

So when the binding succeeds, there are as many arguments as slots that some argument reaches and
warnings of the binder. -/
theorem no_argument_lost [Sink σ] [Evaluator σ ε] (operator : String) (s : Signature)
    (args : List (Argument ε)) (c : σ) :
    (∀ t : Tally σ, ((bind operator s args).perform t).map id Tally.state =
      (bind operator s args).perform t.state) ∧
    (∀ before after, args = before ++ after →
      (bind operator s args : Run (Tally σ) Bindings) =
        placeUntil operator s args before >>= fun slots =>
          place operator (routed s (openAfter s args before) after) slots >>= fun slots =>
            MonadExcept.ofExcept ((complete operator s slots).map Bindings.mk)) ∧
    (∀ before after slots (t : Tally σ), args = before ++ after →
      (placeUntil operator s args before).perform (Tally.ofState c) = (.ok slots, t) →
      before.length = slots.filledCount + t.warned.length ∧
      (∀ middle rest slots' (u : Tally σ), after = middle ++ rest →
        (placeUntil operator s args (before ++ middle)).perform (Tally.ofState c) =
          (.ok slots', u) →
        ∀ i, slots.isFilled i = true → slots'.isFilled i = true) ∧
      ∀ a rest slots' (u : Tally σ), after = a :: rest → a.name = none →
        (placeUntil operator s args (before ++ [a])).perform (Tally.ofState c) = (.ok slots', u) →
        (slots' = slots ∧ u.warned = t.warned ++ [.warning (surplusArgument operator)]) ∨
          ∃ i v, (Evaluator.evaluate a.expression : Run σ Value).perform t.state =
              (.ok v, u.state) ∧
            slots[i]? = some none ∧ ¬Claimed s args i ∧ slots' = slots.set i (some v)) ∧
    ∀ b (t : Tally σ), (bind operator s args).perform (Tally.ofState c) = (.ok b, t) →
      args.length = (reachedSlots s args).length + t.warned.length := by
  refine ⟨bind_forgets operator s args,
    fun before after hargs => bind_eq_placeUntil operator s hargs,
    fun before after slots t hargs h => ?_, fun b t h => ?_⟩
  · have haccount := accounted_of_placeUntil hargs h
    refine ⟨haccount.count, fun middle rest slots' u hafter h' i hi => ?_,
      fun a rest slots' u hafter ha h' => ?_⟩
    · subst hafter
      rw [← List.append_assoc] at hargs
      rw [(accounted_of_placeUntil hargs h').filled]
      exact ((haccount.filled i).mp hi).append middle
    · subst hafter
      exact positional_of_placeUntil hargs ha h h'
  · rw [bind_eq_placeAll, Run.perform_bind_eq_ok_iff] at h
    obtain ⟨slots, w, hslots, h⟩ := h
    have haccount : Accounted s args args slots w.warned :=
      accounted_of_placeUntil (List.append_nil args).symm hslots
    rw [Run.perform_ofExcept] at h
    obtain ⟨-, rfl⟩ := Prod.mk.inj h
    rw [haccount.count, haccount.filledCount_eq]

/-- A call in which one name is given twice and another is not declared, a positional argument is
surplus, and an argument named last claims the first of two parameters of its name, so that the
first positional argument goes to the second.  Evaluating it reports as well. -/
theorem no_argument_lost_of_late_claim :
    ∃ t u : Tally Context,
      (placeUntil "m" [.mandatory "a", .optional "b", .optional "a", .optional "c"]
          ([⟨none, .expression (.var "x")⟩, ⟨some "z", .failing "unused"⟩,
            ⟨some "b", .expression (.var "y")⟩, ⟨none, .expression (.literal (.boolean true))⟩,
            ⟨some "b", .expression (.literal .undefined)⟩, ⟨none, .failing "surplus"⟩,
            ⟨some "a", .expression (.literal (.string "first"))⟩] :
            List (Argument (Fallible Expression)))
          [⟨none, .expression (.var "x")⟩, ⟨some "z", .failing "unused"⟩,
            ⟨some "b", .expression (.var "y")⟩]).perform (.ofState (Context.ofScope Scope.empty)) =
        (.ok [none, some .undefined, some .undefined, none], t) ∧
      3 = Slots.filledCount [none, some .undefined, some .undefined, none] + t.warned.length ∧
      (bind "m" [.mandatory "a", .optional "b", .optional "a", .optional "c"]
          ([⟨none, .expression (.var "x")⟩, ⟨some "z", .failing "unused"⟩,
            ⟨some "b", .expression (.var "y")⟩, ⟨none, .expression (.literal (.boolean true))⟩,
            ⟨some "b", .expression (.literal .undefined)⟩, ⟨none, .failing "surplus"⟩,
            ⟨some "a", .expression (.literal (.string "first"))⟩] :
            List (Argument (Fallible Expression)))).perform
          (.ofState (Context.ofScope Scope.empty)) =
        (.ok ⟨[("a", .string "first"), ("b", .undefined), ("a", .undefined),
          ("c", .boolean true)]⟩, u) ∧
      u.warned = [.warning "m(): ignoring unknown argument 'z'",
        .warning "m(): argument 'b' supplied more than once",
        .warning "m(): ignoring extra positional argument"] ∧
      u.state.diagnostics.length = 5 ∧ 7 = 4 + u.warned.length := by
  obtain ⟨-, -, hpoint, hbind⟩ := no_argument_lost "m"
    [.mandatory "a", .optional "b", .optional "a", .optional "c"]
    ([⟨none, .expression (.var "x")⟩, ⟨some "z", .failing "unused"⟩,
      ⟨some "b", .expression (.var "y")⟩, ⟨none, .expression (.literal (.boolean true))⟩,
      ⟨some "b", .expression (.literal .undefined)⟩, ⟨none, .failing "surplus"⟩,
      ⟨some "a", .expression (.literal (.string "first"))⟩] :
      List (Argument (Fallible Expression))) (Context.ofScope Scope.empty)
  have hcount := (hpoint [⟨none, .expression (.var "x")⟩, ⟨some "z", .failing "unused"⟩,
    ⟨some "b", .expression (.var "y")⟩] _ _ _ rfl rfl).1
  have htotal := hbind _ _ rfl
  exact ⟨_, _, rfl, hcount, rfl, rfl, rfl, htotal⟩

end SolidOps.Binding
