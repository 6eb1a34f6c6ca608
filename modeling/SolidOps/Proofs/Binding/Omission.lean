import SolidOps.Proofs.Binding.Law

/-!
# Arguments that may be left out

A parameter that no argument reaches is `undef` after binding, unless it is required.  So it should
make no difference to give it the value `undef` by name, except that a required parameter is no
longer missed.

That it makes none to the *other* parameters is not obvious.  A name claims its slot, and claimed
slots are not open to positional arguments, wherever in the call the name stands.  But positional
arguments take open slots from the left; one that is not reached comes behind all those they take.
To claim it leaves the first open slots as they are (`take_unclaimed_insert`), and more of them do
not matter (`routed_take`).  Hence the old arguments keep their destinations, in front of the new
one and behind it (`exists_routed_of_not_reached`).

Nothing else goes to the slot of the new argument (`avoids_of_not_reached`).  So it is empty when
its turn comes, which means that there is no warning, and what comes later can be placed before
(`place_put`).

**`Binding.undefined_same_as_omitted`** has the consequences for `bind`.
-/

namespace SolidOps.Binding

variable {ε : Type} {s : Signature} {args before after : List (Argument ε)} {i : Nat}

/-! ## Slots that are not reached -/

lemma reached_iff : Reached s args i ↔
    Claimed s args i ∨ i ∈ (unclaimed s args).take (positionals args).length := by
  refine or_congr_right ?_
  simp only [List.mem_iff_getElem?, List.getElem?_take, Option.ite_none_right_eq_some]
  exact exists_congr fun k => and_comm

/-- None of some arguments goes to slot `i`. -/
def Avoids (i : Nat) (xs : List (Destination × ε)) : Prop := ∀ x ∈ xs, x.1.slot? ≠ some i

/-- Of the open slots only so many matter as there are positional arguments. -/
lemma routed_take (s : Signature) (slots : List Nat) (args : List (Argument ε)) :
    routed s (slots.take (positionals args).length) args = routed s slots args := by
  induction args generalizing slots with
  | nil => cases slots <;> rfl
  | cons a args ih =>
      cases hname : a.name with
      | some name =>
          rw [positionals_cons_named hname, routed_cons, routed_cons, hname]
          simp only [route, ih]
      | none =>
          rw [positionals_cons_positional hname]
          cases slots with
          | nil => rw [List.take_nil]
          | cons slot slots =>
              rw [List.length_cons, List.take_succ_cons, routed_positional s hname,
                routed_positional s hname, ih]

lemma mem_assignments {xs : List (Destination × ε)} {x : Destination × ε} (hx : x ∈ xs)
    (h : x.1.slot? = some i) : (i, x.2) ∈ assignments xs := by
  induction xs with
  | nil => cases hx
  | cons y xs ih =>
      rcases List.mem_cons.mp hx with rfl | hx
      · rw [assignments_cons_of_slot h]
        exact List.mem_cons_self
      · cases hy : y.1.slot? with
        | some slot =>
            rw [assignments_cons_of_slot hy]
            exact List.mem_cons_of_mem _ (ih hx)
        | none =>
            rw [assignments_cons_of_no_slot hy]
            exact ih hx

/-- **To a slot that is not reached nothing goes.** -/
lemma avoids_of_not_reached (h : ¬Reached s args i) :
    Avoids i (routed s (unclaimed s args) args) := by
  rw [reached_iff, not_or] at h
  intro x hx hslot
  rw [← routed_take] at hx
  have hplaced := placements_to_claimed s args _ h.2
  have hmem : (i, x.2) ∈ (placements s ((unclaimed s args).take (positionals args).length)
      args).filter fun y => y.1 = i := List.mem_filter.mpr ⟨mem_assignments hx hslot, by simp⟩
  rw [hplaced, List.mem_map] at hmem
  obtain ⟨a, ha, -⟩ := hmem
  rw [List.mem_filter] at ha
  exact h.1 (claimed_iff_bind.mpr ⟨a, ha.1, by simpa using ha.2⟩)

/-! ## One more name -/

section Insert

variable {name : String}

/-- An argument that goes to a declared name stands between the others, which go where they went as
long as the same slots are open. -/
lemma exists_routed_insert (hslot : s.slot? name = some i) (e : ε) (slots : List Nat)
    (before after : List (Argument ε)) :
    ∃ xs ys, routed s slots (before ++ after) = xs ++ ys ∧
      routed s slots (before ++ ⟨some name, e⟩ :: after) = xs ++ (.declared name i, e) :: ys := by
  induction before generalizing slots with
  | nil => exact ⟨[], routed s slots after, rfl, routed_declared s rfl hslot after⟩
  | cons a before ih =>
      obtain ⟨xs, ys, hold, hnew⟩ := ih (route s slots a.name).2
      exact ⟨_ :: xs, ys, by rw [List.cons_append, routed_cons, hold, List.cons_append],
        by rw [List.cons_append, routed_cons, hnew, List.cons_append]⟩

/-- The new name claims its own slot and no other. -/
lemma unclaimed_insert (hfirst : FirstOfName s i name) (e : ε) :
    unclaimed s (before ++ ⟨some name, e⟩ :: after) =
      (unclaimed s (before ++ after)).filter fun j => j ≠ i := by
  rw [unclaimed, unclaimed, List.filter_filter]
  refine List.filter_congr fun j _ => ?_
  have hclaimed : Claimed s (before ++ ⟨some name, e⟩ :: after) j ↔
      Claimed s (before ++ after) j ∨ j = i := by
    simp only [claimed_iff_bind, List.mem_append, List.mem_cons, or_and_right, exists_or,
      exists_eq_left, Option.bind_some, slot?_eq_some_iff.mpr hfirst, Option.some.injEq,
      eq_comm (a := i), or_assoc]
    exact or_congr_right or_comm
  rw [← Bool.decide_and, decide_eq_decide, hclaimed, not_or, and_comm]

/-- Without a member that is not among the first ones, a list has the same first members. -/
lemma take_filter_ne {slots : List Nat} (hmem : i ∈ slots) {n : Nat} (h : i ∉ slots.take n) :
    (slots.filter fun j => j ≠ i).take n = slots.take n := by
  induction slots generalizing n with
  | nil => rfl
  | cons slot slots ih =>
      cases n with
      | zero => rfl
      | succ n =>
          rw [List.take_succ_cons, List.mem_cons, not_or] at h
          have hrest : i ∈ slots := (List.mem_cons.mp hmem).resolve_left h.1
          rw [List.filter_cons_of_pos (by simpa using Ne.symm h.1), List.take_succ_cons,
            List.take_succ_cons, ih hrest h.2]

/-- **The new name takes no slot from a positional argument.** -/
lemma take_unclaimed_insert (hfirst : FirstOfName s i name)
    (h : ¬Reached s (before ++ after) i) (e : ε) :
    (unclaimed s (before ++ ⟨some name, e⟩ :: after)).take (positionals (before ++ after)).length =
      (unclaimed s (before ++ after)).take (positionals (before ++ after)).length := by
  rw [reached_iff, not_or] at h
  rw [unclaimed_insert hfirst e, take_filter_ne (mem_unclaimed.mpr ⟨hfirst.lt_length, h.1⟩) h.2]

lemma positionals_insert (e : ε) :
    positionals (before ++ ⟨some name, e⟩ :: after) = positionals (before ++ after) := by
  simp [positionals]

/-- **The old arguments keep their destinations.** -/
lemma exists_routed_of_not_reached (hfirst : FirstOfName s i name)
    (h : ¬Reached s (before ++ after) i) (e : ε) :
    ∃ xs ys, routed s (unclaimed s (before ++ after)) (before ++ after) = xs ++ ys ∧
      routed s (unclaimed s (before ++ ⟨some name, e⟩ :: after))
        (before ++ ⟨some name, e⟩ :: after) = xs ++ (.declared name i, e) :: ys := by
  rw [← routed_take s (unclaimed s (before ++ after)),
    ← routed_take s (unclaimed s (before ++ ⟨some name, e⟩ :: after)), positionals_insert,
    take_unclaimed_insert hfirst h]
  exact exists_routed_insert (slot?_eq_some_iff.mpr hfirst) e _ before after

end Insert

/-! ## Placing past a slot -/

section Placing

variable {σ : Type} [Sink σ] [Evaluator σ ε] {operator : String}

/-- What goes elsewhere leaves a slot as it was. -/
lemma getElem?_of_place {xs : List (Destination × ε)} (hxs : Avoids i xs) {slots slots' : Slots}
    {t u : σ} (h : (place operator xs slots).perform t = (.ok slots', u)) :
    slots'[i]? = slots[i]? := by
  induction xs generalizing slots t with
  | nil =>
      cases h
      rfl
  | cons x xs ih =>
      rw [Avoids, List.forall_mem_cons] at hxs
      rw [place_cons, Run.perform_bind_eq_ok_iff] at h
      obtain ⟨placed, w, hplaced, h⟩ := h
      obtain ⟨v, rfl⟩ := eq_put_of_placeOne hplaced
      rw [ih hxs.2 h, Destination.getElem?_put hxs.1]

lemma placeOne_put {d : Destination} {x : Destination × ε}
    (h : ∀ j, d.slot? = some j → x.1.slot? ≠ some j) (v : Value) (slots : Slots) :
    (placeOne operator (d.put v slots) x : Run σ Slots) =
      placeOne operator slots x >>= fun slots' => pure (d.put v slots') := by
  cases hslot : x.1.slot? with
  | some slot =>
      have hcomm (w : Value) := Destination.put_comm h v w slots
      simp only [Destination.put_of_slot hslot] at hcomm
      simp only [placeOne_of_slot operator _ hslot, warnings_put operator h, bind_assoc, pure_bind,
        hcomm]
  | none =>
      simp only [placeOne_of_no_slot operator _ hslot, warnings_put operator h, bind_assoc,
        pure_bind]

/-- **A value can be put into its slot after arguments that go elsewhere**, instead of before. -/
lemma place_put {d : Destination} {xs : List (Destination × ε)}
    (h : ∀ j, d.slot? = some j → Avoids j xs) (v : Value) (slots : Slots) :
    (place operator xs (d.put v slots) : Run σ Slots) =
      place operator xs slots >>= fun slots' => pure (d.put v slots') := by
  induction xs generalizing slots with
  | nil => rw [place, place, pure_bind]
  | cons x xs ih =>
      have hx : ∀ j, d.slot? = some j → x.1.slot? ≠ some j := fun j hj =>
        h j hj x List.mem_cons_self
      have hxs : ∀ j, d.slot? = some j → Avoids j xs := fun j hj y hy =>
        h j hj y (List.mem_cons_of_mem _ hy)
      rw [place_cons, place_cons, placeOne_put hx, bind_assoc, bind_assoc]
      refine congrArg _ (funext fun slots' => ?_)
      exact (pure_bind (d.put v slots') _).trans (ih hxs slots')

/-- A slot that is not reached is empty after all arguments have been placed. -/
lemma getElem?_of_placeAll (h : ¬Reached s args i) (hi : i < s.length) {slots : Slots} {t u : σ}
    (hslots : (placeAll operator s args).perform t = (.ok slots, u)) : slots[i]? = some none := by
  rw [getElem?_of_place (avoids_of_not_reached h) hslots, getElem?_emptySlots hi]

/-- **The new argument fills its slot and changes no other.** -/
lemma placeAll_insert {name : String} (hfirst : FirstOfName s i name)
    (h : ¬Reached s (before ++ after) i) {e : ε} {v : Value}
    (he : (Evaluator.evaluate e : Run σ Value) = pure v) :
    (placeAll operator s (before ++ ⟨some name, e⟩ :: after) : Run σ Slots) =
      placeAll operator s (before ++ after) >>= fun slots => pure (slots.set i (some v)) := by
  obtain ⟨xs, ys, hold, hnew⟩ := exists_routed_of_not_reached hfirst h e
  have havoids := avoids_of_not_reached h
  rw [hold, Avoids, List.forall_mem_append] at havoids
  rw [placeAll, placeAll, hold, hnew, place_append, place_append, bind_assoc]
  refine Run.bind_congr_of_perform fun t slots u hslots => ?_
  -- nothing before it went to the slot, so that there is nothing to warn of
  have hempty : slots.isFilled i = false := by
    rw [Slots.isFilled, getElem?_of_place havoids.1 hslots, getElem?_emptySlots hfirst.lt_length]
    rfl
  have hone : (placeOne operator slots (.declared name i, e) : Run σ Slots) =
      pure (slots.set i (some v)) := by
    simp [placeOne, Destination.slot?, he, warnings, repeatWarnings, hempty, Run.reportAll]
  rw [place_cons, hone, pure_bind]
  refine place_put (d := .declared name i) (fun j hj => ?_) v slots
  obtain rfl : i = j := Option.some.inj hj
  exact havoids.2

end Placing

/-! ## A parameter declared optional -/

lemma slot?_of_names {s' : Signature} (h : s'.names = s.names) : s'.slot? = s.slot? := by
  have hnames (r : Signature) (name : String) :
      r.slot? name = r.names.findIdx? fun other => other == name := by
    rw [Signature.slot?, Signature.names, List.findIdx?_map]
    rfl
  funext name
  rw [hnames, hnames, h]

lemma routes_of_names {s' : Signature} (h : s'.names = s.names) (slots : List Nat)
    (names : List (Option String)) : routes s' slots names = routes s slots names := by
  induction names generalizing slots with
  | nil => cases slots <;> rfl
  | cons name names ih =>
      cases name <;> cases slots <;> simp only [routes, slot?_of_names h, ih]

lemma length_of_names {s' : Signature} (h : s'.names = s.names) : s'.length = s.length := by
  simpa [Signature.names] using congrArg List.length h

lemma unclaimed_of_names {s' : Signature} (h : s'.names = s.names) (args : List (Argument ε)) :
    unclaimed s' args = unclaimed s args := by
  rw [← openSlots_eq_unclaimed, ← openSlots_eq_unclaimed]
  simp only [openSlots, claims, slot?_of_names h, length_of_names h]

lemma reached_of_names {s' : Signature} (h : s'.names = s.names) :
    Reached s' args i ↔ Reached s args i := by
  rw [reached_iff, reached_iff, claimed_iff_bind, claimed_iff_bind, slot?_of_names h,
    unclaimed_of_names h]

/-- **Of a signature only the names matter to where arguments go.** -/
lemma placeAll_of_names {σ : Type} [Sink σ] [Evaluator σ ε] {s' : Signature}
    (h : s'.names = s.names) (operator : String) (args : List (Argument ε)) :
    (placeAll operator s' args : Run σ Slots) = placeAll operator s args := by
  rw [placeAll, placeAll, routed, routed, routes_of_names h, unclaimed_of_names h, emptySlots,
    emptySlots, length_of_names h]

lemma names_set_optional {p : Parameter} (hp : s[i]? = some p) :
    Signature.names (s.set i (.optional p.name)) = s.names := by
  have hnames : (s.map Parameter.name)[i]? = some p.name := by rw [List.getElem?_map, hp]; rfl
  obtain ⟨hi, hname⟩ := List.getElem?_eq_some_iff.mp hnames
  rw [Signature.names, Signature.names, List.map_set, Parameter.optional, ← hname,
    List.set_getElem_self]

/-- An empty slot filled with `undef` is completed as if the parameter were optional. -/
lemma complete_set_undefined {operator : String} {p : Parameter} {slots : Slots}
    (hp : s[i]? = some p) (hslot : slots[i]? = some none) :
    complete operator s (slots.set i (some .undefined)) =
      complete operator (s.set i (.optional p.name)) slots := by
  induction s generalizing slots i with
  | nil => simp at hp
  | cons q s ih =>
      cases slots with
      | nil => simp at hslot
      | cons head slots =>
          cases i with
          | zero =>
              obtain rfl : q = p := by simpa using hp
              obtain rfl : head = none := by simpa using hslot
              rfl
          | succ i =>
              have hrest := ih (by simpa using hp) (by simpa using hslot)
              cases head <;> simp only [List.set_cons_succ, complete, hrest]

/-! ## The same binding -/

section Bind

variable {σ : Type} [Sink σ] [Evaluator σ ε] {operator : String}

/-- Completing the slots is not seen in the state. -/
lemma perform_bind_snd_eq_placeAll (operator : String) (s : Signature) (args : List (Argument ε))
    (t : σ) :
    ((bind operator s args : Run σ Bindings).perform t).2 =
      ((placeAll operator s args : Run σ Slots).perform t).2 := by
  rw [bind_eq_placeAll, Run.perform_bind]
  rcases (placeAll operator s args).perform t with ⟨r, u⟩
  cases r with
  | ok slots => simp only [Run.perform_ofExcept]
  | error e => rfl

lemma bind_insert_undefined (operator : String) {p : Parameter} (hp : s[i]? = some p)
    (hfirst : FirstOfName s i p.name) (h : ¬Reached s (before ++ after) i) {e : ε}
    (he : (Evaluator.evaluate e : Run σ Value) = pure .undefined) :
    (bind operator s (before ++ ⟨some p.name, e⟩ :: after) : Run σ Bindings) =
      bind operator (s.set i (.optional p.name)) (before ++ after) := by
  rw [bind_eq_placeAll, bind_eq_placeAll, placeAll_insert hfirst h he,
    placeAll_of_names (names_set_optional hp), bind_assoc]
  refine Run.bind_congr_of_perform fun t slots u hslots => ?_
  rw [pure_bind, complete_set_undefined hp (getElem?_of_placeAll h hfirst.lt_length hslots)]

/-- After a binding that succeeds, a parameter that no argument reaches is not a required one, and
it is `undef`. -/
lemma entries_of_bind {t u : σ} {b : Bindings}
    (h : (bind operator s args).perform t = (.ok b, u)) {p : Parameter} (hp : s[i]? = some p)
    (hreached : ¬Reached s args i) :
    p.required = false ∧ b.entries[i]? = some (p.name, .undefined) := by
  rw [bind_eq_placeAll, Run.perform_bind_eq_ok_iff] at h
  obtain ⟨slots, w, hslots, h⟩ := h
  have hslot := getElem?_of_placeAll hreached (List.getElem?_eq_some_iff.mp hp).1 hslots
  rw [Run.perform_ofExcept] at h
  cases hcomplete : complete operator s slots with
  | error e => simp [hcomplete, Except.map] at h
  | ok entries =>
      obtain rfl : Bindings.mk entries = b := by
        simpa [hcomplete, Except.map] using congrArg Prod.fst h
      obtain ⟨hreq, hentry⟩ := getElem?_of_complete hcomplete hp hslot
      exact ⟨by simpa using hreq, hentry⟩

end Bind

/-- **An explicit `undef` is as good as no argument.**  Let no argument of a call reach a parameter
that is the first of its name, and let an argument of this name whose expression is the constant
`undef` be inserted anywhere in the call.  Then the new argument fills the slot of the parameter,
and every other slot has the value that it had; from every state, binding leaves the state that it
left before, and so the same diagnostics.  If the parameter is optional, the binding of both calls
is the same action.  If it is required, the binding of the new call is that of the old one with the
parameter declared optional: it fails where another required parameter is not reached, and otherwise
binds the parameter to `undef`. -/
theorem undefined_same_as_omitted {σ ε : Type} [Sink σ] [Evaluator σ ε] (operator : String)
    {s : Signature} {i : Nat} {p : Parameter} (hp : s[i]? = some p)
    (hfirst : FirstOfName s i p.name) {before after : List (Argument ε)}
    (hreached : ¬Reached s (before ++ after) i) {e : ε}
    (he : (Evaluator.evaluate e : Run σ Value) = pure .undefined) :
    (placeAll operator s (before ++ ⟨some p.name, e⟩ :: after) : Run σ Slots) =
        (placeAll operator s (before ++ after) >>= fun slots =>
          pure (slots.set i (some .undefined))) ∧
      (∀ t : σ, ((bind operator s (before ++ ⟨some p.name, e⟩ :: after)).perform t).2 =
        ((bind operator s (before ++ after)).perform t).2) ∧
      (p.required = false →
        (bind operator s (before ++ ⟨some p.name, e⟩ :: after) : Run σ Bindings) =
          bind operator s (before ++ after)) ∧
      (p.required = true →
        (bind operator s (before ++ ⟨some p.name, e⟩ :: after) : Run σ Bindings) =
          bind operator (s.set i (.optional p.name)) (before ++ after)) ∧
      ∀ (t u : σ) (b : Bindings),
        (bind operator s (before ++ ⟨some p.name, e⟩ :: after)).perform t = (.ok b, u) →
        b.entries[i]? = some (p.name, .undefined) ∧
          ∀ j q, j ≠ i → s[j]? = some q → q.required = true → Reached s (before ++ after) j := by
  have hbind := bind_insert_undefined operator hp hfirst hreached he
  have hnames := names_set_optional hp
  refine ⟨placeAll_insert hfirst hreached he, fun t => ?_, fun hoptional => ?_, fun _ => hbind, ?_⟩
  · rw [hbind, perform_bind_snd_eq_placeAll, perform_bind_snd_eq_placeAll,
      placeAll_of_names hnames]
  · have hsame : Parameter.optional p.name = p := by rw [Parameter.optional, ← hoptional]
    obtain ⟨hi, rfl⟩ := List.getElem?_eq_some_iff.mp hp
    rw [hbind, hsame, List.set_getElem_self]
  · intro t u b hok
    rw [hbind] at hok
    refine ⟨?_, fun j q hj hq hreq => ?_⟩
    · have hself : (s.set i (.optional p.name))[i]? = some (.optional p.name) :=
        List.getElem?_set_self hfirst.lt_length
      exact (entries_of_bind hok hself (mt (reached_of_names hnames).mp hreached)).2
    · by_contra hmissed
      have hother : (s.set i (.optional p.name))[j]? = some q := by
        rw [List.getElem?_set_ne hj.symm, hq]
      have hfree := entries_of_bind hok hother (mt (reached_of_names hnames).mp hmissed)
      rw [hreq] at hfree
      exact Bool.noConfusion hfree.1

/-- The second of two required parameters is not reached.  Given as `undef` in front of the first
one's positional argument, it is no longer missed; the evaluation of the first one warns as before,
and the argument of an unknown name is ignored as before. -/
theorem undefined_same_as_omitted_of_missed_parameter :
    (bind "m" [.mandatory "a", .mandatory "b", .optional "c"]
        ([⟨some "b", .expression (.literal .undefined)⟩, ⟨none, .expression (.var "x")⟩,
          ⟨some "d", .failing "not evaluated"⟩] : List (Argument (Fallible Expression))) :
          Run Context Bindings) =
        bind "m" [.mandatory "a", .optional "b", .optional "c"]
          ([⟨none, .expression (.var "x")⟩, ⟨some "d", .failing "not evaluated"⟩] :
            List (Argument (Fallible Expression))) ∧
      (bind "m" [.mandatory "a", .mandatory "b", .optional "c"]
        ([⟨some "b", .expression (.literal .undefined)⟩, ⟨none, .expression (.var "x")⟩,
          ⟨some "d", .failing "not evaluated"⟩] : List (Argument (Fallible Expression)))).perform
          (Context.ofScope Scope.empty) =
        (.ok ⟨[("a", .undefined), ("b", .undefined), ("c", .undefined)]⟩,
          ⟨Scope.empty, [.warning "Ignoring unknown variable 'x'",
            .warning "m(): ignoring unknown argument 'd'"]⟩) ∧
      ((bind "m" [.mandatory "a", .mandatory "b", .optional "c"]
        ([⟨none, .expression (.var "x")⟩, ⟨some "d", .failing "not evaluated"⟩] :
          List (Argument (Fallible Expression)))).perform (Context.ofScope Scope.empty)).1 =
        .error (.missingArgument "b" "m") := by
  have hfirst : FirstOfName [.mandatory "a", .mandatory "b", .optional "c"] 1 "b" :=
    slot?_eq_some_iff.mp (by decide)
  have hreached : ¬Reached [.mandatory "a", .mandatory "b", .optional "c"]
      ([] ++ ([⟨none, .expression (.var "x")⟩, ⟨some "d", .failing "not evaluated"⟩] :
        List (Argument (Fallible Expression)))) 1 := by
    rw [reached_iff]
    decide
  have h := undefined_same_as_omitted (σ := Context) "m" (p := .mandatory "b") rfl hfirst hreached
    (e := .expression (.literal .undefined)) rfl
  exact ⟨h.2.2.2.1 rfl, rfl, rfl⟩

end SolidOps.Binding
