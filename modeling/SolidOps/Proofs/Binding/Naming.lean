import SolidOps.Proofs.Binding.Placing

/-!
# Positional arguments by name

An argument that takes a slot by position can be given under the name of the slot's parameter
instead.  `Binding.spelledOut` does so for all arguments of a call, each in its place, and leaves
named and surplus ones as they are.

The call that results claims more slots than the old one and leaves fewer open ones: those that no
positional argument had taken (`unclaimed_spelledOut`).  If there are any, no argument was surplus;
so the arguments left without a name still find no slot, and the destinations are the old ones with
`positional` turned into `declared` (`routed_spell`).

A declared argument differs from a positional one in the warning about a slot that is taken.  The
slot of a positional argument never is: nothing before it goes there (`pairwise_fresh_routed`).

**`Binding.spelledOut_same`**: where parameter names are distinct, the two calls bind alike.
-/

namespace SolidOps.Binding

variable {ε : Type} {s : Signature}

/-! ## Spelling out a call -/

/-- An argument under the name of the slot that it takes by position; others are left alone. -/
def spell (s : Signature) (d : Destination) (a : Argument ε) : Argument ε :=
  match d with
  | .positional slot => { a with name := s.names[slot]? }
  | .declared _ _ => a
  | .unknown _ => a
  | .surplus => a

/-- The arguments of a call, spelled out while certain slots are open. -/
def spellFrom (s : Signature) (slots : List Nat) (args : List (Argument ε)) : List (Argument ε) :=
  List.zipWith (spell s) (routes s slots (args.map Argument.name)) args

/-- The arguments of a call, with those that take a slot by position named after its parameter. -/
def spelledOut (s : Signature) (args : List (Argument ε)) : List (Argument ε) :=
  List.zipWith (spell s) (destinations s (args.map Argument.name)) args

/-- A positional destination as a destination of the slot's name. -/
def Destination.spelled (s : Signature) : Destination → Destination
  | .positional slot =>
    match s.names[slot]? with
    | some name => .declared name slot
    | none => .positional slot
  | .declared name slot => .declared name slot
  | .unknown name => .unknown name
  | .surplus => .surplus

lemma spelledOut_eq (s : Signature) (args : List (Argument ε)) :
    spelledOut s args = spellFrom s (unclaimed s args) args := by
  rw [spelledOut, destinations, openSlots_eq_unclaimed, spellFrom]

lemma spellFrom_named (s : Signature) {a : Argument ε} {name : String} (h : a.name = some name)
    (slots : List Nat) (args : List (Argument ε)) :
    spellFrom s slots (a :: args) = a :: spellFrom s slots args := by
  cases hslot : s.slot? name <;> cases slots <;> simp [spellFrom, routes, h, hslot, spell]

lemma spellFrom_positional (s : Signature) {a : Argument ε} (h : a.name = none) (slot : Nat)
    (slots : List Nat) (args : List (Argument ε)) :
    spellFrom s (slot :: slots) (a :: args) =
      ⟨s.names[slot]?, a.expression⟩ :: spellFrom s slots args := by
  simp [spellFrom, routes, h, spell]

lemma spellFrom_surplus (s : Signature) {a : Argument ε} (h : a.name = none)
    (args : List (Argument ε)) : spellFrom s [] (a :: args) = a :: spellFrom s [] args := by
  simp [spellFrom, routes, h, spell]

/-- Where names are distinct, the name of a slot stands for it. -/
lemma exists_name_of_slot (hnodup : s.names.Nodup) {slot : Nat} (h : slot < s.length) :
    ∃ name, s.names[slot]? = some name ∧ s.slot? name = some slot := by
  have hname : s.names[slot]? = some s[slot].name := by simp [Signature.names, h]
  refine ⟨_, hname, slot?_eq_some_iff.mpr ⟨⟨s[slot], List.getElem?_eq_getElem h, rfl⟩, ?_⟩⟩
  intro j hj q hq heq
  have hother : s.names[j]? = some s[slot].name := by simp [Signature.names, hq, heq]
  have hlt := (List.getElem?_eq_some_iff.mp hother).1
  exact hj.ne ((List.getElem?_inj hlt hnodup).mp (hother.trans hname.symm))

/-- Without a name are left those that found no slot. -/
lemma positionals_spellFrom (hnodup : s.names.Nodup) (args : List (Argument ε)) {slots : List Nat}
    (hlt : ∀ i ∈ slots, i < s.length) :
    positionals (spellFrom s slots args) = (positionals args).drop slots.length := by
  induction args generalizing slots with
  | nil => simp [spellFrom, positionals]
  | cons a args ih =>
      cases hname : a.name with
      | some name =>
          rw [spellFrom_named s hname, positionals_cons_named hname, positionals_cons_named hname,
            ih hlt]
      | none =>
          rw [positionals_cons_positional hname]
          cases slots with
          | nil =>
              rw [spellFrom_surplus s hname, positionals_cons_positional hname, ih hlt]
              rfl
          | cons slot slots =>
              rw [List.forall_mem_cons] at hlt
              obtain ⟨name, hslot, -⟩ := exists_name_of_slot hnodup hlt.1
              rw [spellFrom_positional s hname, positionals_cons_named hslot, ih hlt.2]
              rfl

/-! ## The slots left open -/

/-- Spelled out, a call claims the slots that it took by position, too. -/
lemma claimed_spellFrom (hnodup : s.names.Nodup) (args : List (Argument ε)) {slots : List Nat}
    (hlt : ∀ i ∈ slots, i < s.length) (i : Nat) :
    Claimed s (spellFrom s slots args) i ↔
      Claimed s args i ∨ i ∈ slots.take (positionals args).length := by
  simp only [claimed_iff_bind]
  induction args generalizing slots with
  | nil => simp [spellFrom, positionals]
  | cons a args ih =>
      cases hname : a.name with
      | some name =>
          rw [spellFrom_named s hname, positionals_cons_named hname, List.exists_mem_cons_iff,
            List.exists_mem_cons_iff, ih hlt, or_assoc]
      | none =>
          rw [positionals_cons_positional hname]
          cases slots with
          | nil =>
              rw [spellFrom_surplus s hname, List.exists_mem_cons_iff, List.exists_mem_cons_iff,
                ih hlt]
              simp
          | cons slot slots =>
              rw [List.forall_mem_cons] at hlt
              obtain ⟨name, hslot, hfirst⟩ := exists_name_of_slot hnodup hlt.1
              rw [spellFrom_positional s hname, hslot, List.exists_mem_cons_iff,
                List.exists_mem_cons_iff, ih hlt.2, List.length_cons, List.take_succ_cons,
                List.mem_cons, Option.bind_some, hfirst, hname, Option.bind_none]
              simp only [Option.some.injEq, reduceCtorEq, false_or, eq_comm (a := slot)]
              exact or_left_comm

/-- What is left of a list without its first members is the rest, when all members differ. -/
lemma filter_not_mem_take {slots : List Nat} (hnodup : slots.Nodup) (n : Nat) :
    slots.filter (fun i => i ∉ slots.take n) = slots.drop n := by
  have hdisjoint : List.Disjoint (slots.take n) (slots.drop n) :=
    List.disjoint_take_drop hnodup le_rfl
  have htaken : (slots.take n).filter (fun i => i ∉ slots.take n) = [] :=
    List.filter_eq_nil_iff.mpr fun i hi => by simpa using hi
  have hleft : (slots.drop n).filter (fun i => i ∉ slots.take n) = slots.drop n :=
    List.filter_eq_self.mpr fun i hi => by simpa using fun h => hdisjoint h hi
  calc slots.filter (fun i => i ∉ slots.take n)
      = (slots.take n ++ slots.drop n).filter (fun i => i ∉ slots.take n) := by
        rw [List.take_append_drop]
    _ = slots.drop n := by rw [List.filter_append, htaken, hleft, List.nil_append]

/-- The slots left open are those that are open in the old call and not taken there. -/
lemma unclaimed_spelledOut (hnodup : s.names.Nodup) (args : List (Argument ε)) :
    unclaimed s (spelledOut s args) = (unclaimed s args).drop (positionals args).length := by
  have hlt : ∀ i ∈ unclaimed s args, i < s.length := fun i hi => (mem_unclaimed.mp hi).1
  rw [← filter_not_mem_take (nodup_unclaimed s args)]
  conv_rhs => rw [unclaimed, List.filter_filter]
  refine List.filter_congr fun i _ => ?_
  rw [spelledOut_eq, ← Bool.decide_and, decide_eq_decide, claimed_spellFrom hnodup args hlt, not_or,
    and_comm]
  rfl

/-- **Destinations of the new call** are those of the old one, spelled out.  Open in the new call
are the slots that the old one leaves over, so that what is surplus stays so. -/
lemma routed_spell (hnodup : s.names.Nodup) (args : List (Argument ε)) {slots : List Nat}
    (hlt : ∀ i ∈ slots, i < s.length) :
    routed s (slots.drop (positionals args).length) (spellFrom s slots args) =
      (routed s slots args).map fun x => (x.1.spelled s, x.2) := by
  induction args generalizing slots with
  | nil => cases slots <;> rfl
  | cons a args ih =>
      cases hname : a.name with
      | some name =>
          rw [positionals_cons_named hname, spellFrom_named s hname]
          cases hslot : s.slot? name with
          | some slot =>
              rw [routed_declared s hname hslot, routed_declared s hname hslot, ih hlt]
              rfl
          | none =>
              rw [routed_unknown s hname hslot, routed_unknown s hname hslot, ih hlt]
              rfl
      | none =>
          rw [positionals_cons_positional hname]
          cases slots with
          | nil =>
              rw [spellFrom_surplus s hname, List.drop_nil, routed_surplus s hname,
                routed_surplus s hname]
              have hrest := ih hlt
              rw [List.drop_nil] at hrest
              rw [hrest]
              rfl
          | cons slot slots =>
              rw [List.forall_mem_cons] at hlt
              obtain ⟨name, hslot, hfirst⟩ := exists_name_of_slot hnodup hlt.1
              rw [spellFrom_positional s hname, List.length_cons, List.drop_succ_cons,
                routed_declared s hslot hfirst, routed_positional s hname, ih hlt.2]
              simp only [List.map_cons, Destination.spelled, hslot]

lemma Destination.slot?_spelled (s : Signature) (d : Destination) :
    (d.spelled s).slot? = d.slot? := by
  cases d with
  | positional slot => rw [Destination.spelled]; cases s.names[slot]? <;> rfl
  | _ => rfl

/-- A destination spelled out has the same warnings, unless it was positional and its slot is
taken. -/
lemma warnings_spelled (s : Signature) (operator : String) {slots : Slots} {d : Destination}
    (h : ∀ slot, d = .positional slot → slots.isFilled slot = false) :
    warnings operator slots (d.spelled s) = warnings operator slots d := by
  cases d with
  | positional slot =>
      rw [Destination.spelled]
      cases s.names[slot]? with
      | none => rfl
      | some name => simp [warnings, repeatWarnings, h slot rfl]
  | _ => rfl

/-! ## Positional arguments find their slots empty -/

/-- The second of two arguments, if it takes a slot by position, takes another one than the
first. -/
def Fresh (x y : Destination × ε) : Prop := ∀ slot, y.1 = .positional slot → x.1.slot? ≠ some slot

lemma mem_of_positional {args : List (Argument ε)} {slots : List Nat} {x : Destination × ε}
    (hx : x ∈ routed s slots args) {slot : Nat} (h : x.1 = .positional slot) : slot ∈ slots := by
  induction args generalizing slots with
  | nil => cases slots <;> simp [routed, routes] at hx
  | cons a args ih =>
      rw [routed_cons, List.mem_cons] at hx
      rcases hx with rfl | hx
      · cases hname : a.name with
        | some name =>
            rw [hname, route] at h
            cases hslot : s.slot? name <;> simp [hslot] at h
        | none =>
            cases slots with
            | nil => simp [hname, route] at h
            | cons first slots =>
                simp only [hname, route, Destination.positional.injEq] at h
                simp [h]
      · exact route_open_subset s slots a.name (ih hx)

/-- **The slot of a positional argument receives nothing before it.** -/
lemma pairwise_fresh_routed {args : List (Argument ε)} {slots : List Nat} (hnodup : slots.Nodup)
    (hopen : ∀ a ∈ args, ∀ i ∈ slots, a.name.bind s.slot? ≠ some i) :
    (routed s slots args).Pairwise Fresh := by
  induction args generalizing slots with
  | nil => cases slots <;> exact List.Pairwise.nil
  | cons a args ih =>
      rw [List.forall_mem_cons] at hopen
      have hsubset := route_open_subset s slots a.name
      rw [routed_cons, List.pairwise_cons]
      constructor
      · intro y hy slot hslot
        have hmem := mem_of_positional hy hslot
        cases hname : a.name with
        | some name =>
            rw [slot?_route_named]
            simpa [hname] using hopen.1 slot (hsubset hmem)
        | none =>
            cases slots with
            | nil => simp [slot?_route_positional]
            | cons first slots =>
                rw [hname] at hmem
                rw [slot?_route_positional, List.head?_cons, ne_eq, Option.some.injEq]
                rintro rfl
                exact (List.nodup_cons.mp hnodup).1 hmem
      · refine ih ?_ fun b hb i hi => hopen.2 b hb i (hsubset hi)
        cases a.name with
        | some name => exact hnodup
        | none =>
            cases slots with
            | nil => exact hnodup
            | cons first slots => exact (List.nodup_cons.mp hnodup).2

/-! ## The same bindings -/

/-- The slots of the positional arguments are empty. -/
def EmptyFor (slots : Slots) (xs : List (Destination × ε)) : Prop :=
  ∀ x ∈ xs, ∀ slot, x.1 = .positional slot → slots.isFilled slot = false

/-- Placing sees no difference between destinations and destinations spelled out. -/
lemma place_spelled {σ : Type} [Sink σ] [Evaluator σ ε] (s : Signature) (operator : String)
    {xs : List (Destination × ε)} (hfresh : xs.Pairwise Fresh) {slots : Slots}
    (hempty : EmptyFor slots xs) :
    (place operator (xs.map fun x => (x.1.spelled s, x.2)) slots : Run σ Slots) =
      place operator xs slots := by
  induction xs generalizing slots with
  | nil => rfl
  | cons x xs ih =>
      rw [List.pairwise_cons] at hfresh
      obtain ⟨hx, hxs⟩ := List.forall_mem_cons.mp hempty
      rw [List.map_cons, place_cons, place_cons, placeOne_congr operator slots x.2
        (x.1.slot?_spelled s) (warnings_spelled s operator hx)]
      refine placeOne_bind_congr operator slots x fun v => ih hfresh.2 fun y hy slot hslot => ?_
      rw [Destination.isFilled_put (hfresh.1 y hy slot hslot)]
      exact hxs y hy slot hslot

lemma assignments_spelled (s : Signature) (xs : List (Destination × ε)) :
    assignments (xs.map fun x => (x.1.spelled s, x.2)) = assignments xs := by
  induction xs with
  | nil => rfl
  | cons x xs ih =>
      rw [List.map_cons]
      cases hslot : x.1.slot? with
      | some slot =>
          rw [assignments_cons_of_slot (by rwa [Destination.slot?_spelled]),
            assignments_cons_of_slot hslot, ih]
      | none =>
          rw [assignments_cons_of_no_slot (by rwa [Destination.slot?_spelled]),
            assignments_cons_of_no_slot hslot, ih]

lemma nodup_names_signature (op : Operator) : op.signature.names.Nodup := by
  cases op <;> decide

/-- **Positional arguments are named arguments for short.**  Where parameter names are distinct, as
those of every operator are, arguments that take a slot by position may be given by name instead,
so that only surplus ones are left without a name.  In every state and for all expressions, whatever
their evaluation reports and whether it fails, the binding of both calls is the same action; and
they have the same expressions for the same slots in the same order. -/
theorem spelledOut_same {σ : Type} [Sink σ] [Evaluator σ ε] :
    (∀ op : Operator, op.signature.names.Nodup) ∧
    ∀ (operator : String) (s : Signature) (args : List (Argument ε)), s.names.Nodup →
      positionals (spelledOut s args) = (positionals args).drop (unclaimed s args).length ∧
      (bind operator s (spelledOut s args) : Run σ Bindings) = bind operator s args ∧
      placements s (unclaimed s (spelledOut s args)) (spelledOut s args) =
        placements s (unclaimed s args) args := by
  refine ⟨nodup_names_signature, fun operator s args hnodup => ?_⟩
  have hlt : ∀ i ∈ unclaimed s args, i < s.length := fun i hi => (mem_unclaimed.mp hi).1
  have hrouted : routed s (unclaimed s (spelledOut s args)) (spelledOut s args) =
      (routed s (unclaimed s args) args).map fun x => (x.1.spelled s, x.2) := by
    rw [unclaimed_spelledOut hnodup, spelledOut_eq]
    exact routed_spell hnodup args hlt
  have hfresh : (routed s (unclaimed s args) args).Pairwise Fresh :=
    pairwise_fresh_routed (nodup_unclaimed s args) fun a ha i hi =>
      bind_slot?_ne_of_mem_unclaimed hi a ha
  refine ⟨?_, ?_, ?_⟩
  · rw [spelledOut_eq]
    exact positionals_spellFrom hnodup args hlt
  · have hempty : EmptyFor (emptySlots s) (routed s (unclaimed s args) args) :=
      fun x _ slot _ => isFilled_emptySlots s slot
    have hplace := place_spelled (σ := σ) s operator hfresh hempty
    rw [← hrouted] at hplace
    rw [bind, bind, destinations, destinations, openSlots_eq_unclaimed, openSlots_eq_unclaimed]
    exact congrArg (· >>= _) hplace
  · rw [placements, placements, hrouted, assignments_spelled]

/-- Both parameters of a call are given by position, and the first one fails; a third argument is
surplus.  Nothing else is evaluated or reported, with or without the names. -/
theorem spelledOut_same_of_failing_path :
    (bind "glide" Operator.glide.signature
        ([⟨some "path", .failing "no path"⟩, ⟨some "convexity", .expression (.var "n")⟩,
          ⟨none, .expression (.var "n")⟩] : List (Argument (Fallible Expression))) :
          Run Context Bindings) =
      bind "glide" Operator.glide.signature
        ([⟨none, .failing "no path"⟩, ⟨none, .expression (.var "n")⟩,
          ⟨none, .expression (.var "n")⟩] : List (Argument (Fallible Expression))) ∧
    (bind "glide" Operator.glide.signature
        ([⟨some "path", .failing "no path"⟩, ⟨some "convexity", .expression (.var "n")⟩,
          ⟨none, .expression (.var "n")⟩] : List (Argument (Fallible Expression)))).perform
        (Context.ofScope Scope.empty) =
      (.error (.evaluationFailed "no path"), ⟨Scope.empty, []⟩) := by
  have h := (spelledOut_same (σ := Context)).2 "glide" Operator.glide.signature
    ([⟨none, .failing "no path"⟩, ⟨none, .expression (.var "n")⟩,
      ⟨none, .expression (.var "n")⟩] : List (Argument (Fallible Expression))) (by decide)
  exact ⟨h.2.1, rfl⟩

end SolidOps.Binding
