import Mathlib
import SolidOps.Binding

/-!
# Which argument goes to which slot

`Binding.destinations` decides where arguments go in one pass, handing out the open slots to
positional arguments as it meets them.  This file says the same without an order of passes.

* `Binding.FirstOfName`, `Binding.Claimed`: a named argument goes to the first slot of its name,
  and such a slot is claimed as soon as one argument of the call, wherever it stands, has the name.
* `Binding.unclaimed`, `Binding.positionals`: the slots left over in order, and the expressions of
  the positional arguments in order.  The `k`-th of these goes to the `k`-th of those.
* `Binding.assignments` keeps of a routed call only which expression goes to which slot, and
  `Binding.placements` does so for the arguments of a call and given open slots.

The two descriptions meet in `placements_to_claimed` and `placements_to_open`: what is placed in a
claimed slot are the arguments of its name, in their order, and what is placed in the `k`-th open
slot is the `k`-th positional argument, if there is one.  Both are inductions over the arguments
for an arbitrary list of slots that are still open, which is the state of the pass.
-/

namespace SolidOps.Binding

variable {ε : Type}

/-! ## Claimed and open slots -/

/-- Slot `i` is the first one declared under a name. -/
def FirstOfName (s : Signature) (i : Nat) (name : String) : Prop :=
  (∃ p, s[i]? = some p ∧ p.name = name) ∧ ∀ j < i, ∀ q, s[j]? = some q → q.name ≠ name

/-- Slot `i` is the first one of its name and some argument is named so. -/
def Claimed (s : Signature) (args : List (Argument ε)) (i : Nat) : Prop :=
  ∃ name, FirstOfName s i name ∧ ∃ a ∈ args, a.name = some name

lemma slot?_eq_some_iff {s : Signature} {name : String} {i : Nat} :
    s.slot? name = some i ↔ FirstOfName s i name := by
  rw [Signature.slot?, List.findIdx?_eq_some_iff_getElem]
  constructor
  · rintro ⟨hi, hname, hbefore⟩
    refine ⟨⟨s[i], List.getElem?_eq_getElem hi, by simpa using hname⟩, ?_⟩
    intro j hj q hq
    obtain ⟨hjs, rfl⟩ := List.getElem?_eq_some_iff.mp hq
    simpa using hbefore j hj
  · rintro ⟨⟨p, hp, hname⟩, hbefore⟩
    obtain ⟨hi, rfl⟩ := List.getElem?_eq_some_iff.mp hp
    refine ⟨hi, by simpa using hname, fun j hj => ?_⟩
    have hjs : j < s.length := hj.trans hi
    simpa using hbefore j hj s[j] (List.getElem?_eq_getElem hjs)

lemma slot?_isSome_iff {s : Signature} {name : String} :
    (s.slot? name).isSome ↔ name ∈ s.names := by
  simp [Signature.slot?, Signature.names]

lemma FirstOfName.eq {s : Signature} {i : Nat} {name other : String}
    (h : FirstOfName s i name) (h' : FirstOfName s i other) : name = other := by
  obtain ⟨⟨p, hp, rfl⟩, _⟩ := h
  obtain ⟨⟨q, hq, rfl⟩, _⟩ := h'
  rw [hp] at hq
  rw [Option.some.inj hq]

lemma FirstOfName.lt_length {s : Signature} {i : Nat} {name : String} (h : FirstOfName s i name) :
    i < s.length := by
  obtain ⟨⟨p, hp, _⟩, _⟩ := h
  exact (List.getElem?_eq_some_iff.mp hp).1

lemma bind_slot?_eq_some_iff {s : Signature} {i : Nat} {name : Option String} :
    name.bind s.slot? = some i ↔ ∃ n, name = some n ∧ FirstOfName s i n := by
  simp only [Option.bind_eq_some_iff, slot?_eq_some_iff]

lemma claims_iff (s : Signature) (args : List (Argument ε)) (i : Nat) :
    claims s (args.map Argument.name) i = true ↔ Claimed s args i := by
  simp only [claims, List.any_map, List.any_eq_true, Function.comp_apply, beq_iff_eq,
    bind_slot?_eq_some_iff, Claimed]
  constructor
  · rintro ⟨a, ha, name, hname, hfirst⟩
    exact ⟨name, hfirst, a, ha, hname⟩
  · rintro ⟨name, hfirst, a, ha, hname⟩
    exact ⟨a, ha, name, hname, hfirst⟩

lemma claimed_iff_bind {s : Signature} {args : List (Argument ε)} {i : Nat} :
    Claimed s args i ↔ ∃ a ∈ args, a.name.bind s.slot? = some i := by
  simp only [Claimed, bind_slot?_eq_some_iff]
  constructor
  · rintro ⟨name, hfirst, a, ha, hname⟩
    exact ⟨a, ha, name, hname, hfirst⟩
  · rintro ⟨a, ha, name, hname, hfirst⟩
    exact ⟨name, hfirst, a, ha, hname⟩

instance (s : Signature) (args : List (Argument ε)) : DecidablePred (Claimed s args) := fun i =>
  decidable_of_iff _ (claims_iff s args i)

/-- The slots that no argument claims, in order. -/
def unclaimed (s : Signature) (args : List (Argument ε)) : List Nat :=
  (List.range s.length).filter fun i => ¬Claimed s args i

/-- The expressions of the positional arguments, in order. -/
def positionals (args : List (Argument ε)) : List ε :=
  (args.filter fun a => a.name = none).map Argument.expression

/-- The arguments of a given name, in order. -/
def namesakes (args : List (Argument ε)) (name : String) : List (Argument ε) :=
  args.filter fun a => a.name = some name

lemma openSlots_eq_unclaimed (s : Signature) (args : List (Argument ε)) :
    openSlots s (args.map Argument.name) = unclaimed s args := by
  refine List.filter_congr fun i _ => ?_
  have h : claims s (args.map Argument.name) i = decide (Claimed s args i) := by
    rw [Bool.eq_iff_iff, claims_iff, decide_eq_true_iff]
  rw [h, decide_not]

lemma mem_unclaimed {s : Signature} {args : List (Argument ε)} {i : Nat} :
    i ∈ unclaimed s args ↔ i < s.length ∧ ¬Claimed s args i := by
  simp [unclaimed]

/-- The names that stand for the first slot of a name are that one name. -/
lemma bind_slot?_eq_iff_of_first {s : Signature} {i : Nat} {name : String}
    (h : FirstOfName s i name) (a : Argument ε) :
    a.name.bind s.slot? = some i ↔ a.name = some name := by
  rw [bind_slot?_eq_some_iff]
  constructor
  · rintro ⟨n, hn, hfirst⟩
    rw [hn, hfirst.eq h]
  · exact fun ha => ⟨name, ha, h⟩

lemma not_mem_unclaimed_of_claimed {s : Signature} {args : List (Argument ε)} {i : Nat}
    (h : Claimed s args i) : i ∉ unclaimed s args := fun hi => (mem_unclaimed.mp hi).2 h

lemma bind_slot?_ne_of_mem_unclaimed {s : Signature} {args : List (Argument ε)} {i : Nat}
    (h : i ∈ unclaimed s args) : ∀ a ∈ args, a.name.bind s.slot? ≠ some i := by
  intro a ha hslot
  obtain ⟨n, hn, hfirst⟩ := bind_slot?_eq_some_iff.mp hslot
  exact (mem_unclaimed.mp h).2 ⟨n, hfirst, a, ha, hn⟩

lemma nodup_unclaimed (s : Signature) (args : List (Argument ε)) : (unclaimed s args).Nodup :=
  List.nodup_range.filter _

lemma positionals_cons_named {a : Argument ε} {name : String} (h : a.name = some name)
    (args : List (Argument ε)) : positionals (a :: args) = positionals args := by
  simp [positionals, h]

lemma positionals_cons_positional {a : Argument ε} (h : a.name = none)
    (args : List (Argument ε)) : positionals (a :: args) = a.expression :: positionals args := by
  simp [positionals, h]

/-! ## What is placed where -/

/-- Which expression goes to which slot, in the order of the call; what goes nowhere is left
out. -/
def assignments : List (Destination × ε) → List (Nat × ε)
  | [] => []
  | (.declared _ slot, e) :: rest => (slot, e) :: assignments rest
  | (.positional slot, e) :: rest => (slot, e) :: assignments rest
  | (.unknown _, _) :: rest => assignments rest
  | (.surplus, _) :: rest => assignments rest

/-- The arguments of a call, each with its destination, while certain slots are open. -/
def routed (s : Signature) (slots : List Nat) (args : List (Argument ε)) :
    List (Destination × ε) :=
  (routes s slots (args.map Argument.name)).zip (args.map Argument.expression)

/-- Which expression goes to which slot while certain slots are open. -/
def placements (s : Signature) (slots : List Nat) (args : List (Argument ε)) : List (Nat × ε) :=
  assignments (routed s slots args)

section Placements

variable (s : Signature) {a : Argument ε} {name : String} {slot : Nat} {slots : List Nat}

lemma routed_nil : routed (ε := ε) s slots [] = [] := by
  cases slots <;> rfl

@[simp] lemma placements_nil : placements (ε := ε) s slots [] = [] := by
  rw [placements, routed_nil, assignments]

lemma routed_declared (h : a.name = some name) (hslot : s.slot? name = some slot)
    (args : List (Argument ε)) :
    routed s slots (a :: args) = (.declared name slot, a.expression) :: routed s slots args := by
  cases slots <;> simp [routed, routes, h, hslot]

lemma routed_unknown (h : a.name = some name) (hslot : s.slot? name = none)
    (args : List (Argument ε)) :
    routed s slots (a :: args) = (.unknown name, a.expression) :: routed s slots args := by
  cases slots <;> simp [routed, routes, h, hslot]

lemma routed_positional (h : a.name = none) (args : List (Argument ε)) :
    routed s (slot :: slots) (a :: args) =
      (.positional slot, a.expression) :: routed s slots args := by
  simp [routed, routes, h]

lemma routed_surplus (h : a.name = none) (args : List (Argument ε)) :
    routed s [] (a :: args) = (.surplus, a.expression) :: routed s [] args := by
  simp [routed, routes, h]

lemma placements_declared (h : a.name = some name) (hslot : s.slot? name = some slot)
    (args : List (Argument ε)) :
    placements s slots (a :: args) = (slot, a.expression) :: placements s slots args := by
  rw [placements, routed_declared s h hslot, assignments, placements]

lemma placements_unknown (h : a.name = some name) (hslot : s.slot? name = none)
    (args : List (Argument ε)) :
    placements s slots (a :: args) = placements s slots args := by
  rw [placements, routed_unknown s h hslot, assignments, placements]

lemma placements_positional (h : a.name = none) (args : List (Argument ε)) :
    placements s (slot :: slots) (a :: args) = (slot, a.expression) :: placements s slots args := by
  rw [placements, routed_positional s h, assignments, placements]

lemma placements_surplus (h : a.name = none) (args : List (Argument ε)) :
    placements s [] (a :: args) = placements s [] args := by
  rw [placements, routed_surplus s h, assignments, placements]

end Placements

/-- **A slot that is not open receives the arguments whose name stands for it**, in the order of
the call and whatever the positional arguments do. -/
lemma placements_to_claimed (s : Signature) {i : Nat} (args : List (Argument ε))
    (slots : List Nat) (hi : i ∉ slots) :
    (placements s slots args).filter (fun x => x.1 = i) =
      (args.filter fun a => a.name.bind s.slot? = some i).map fun a => (i, a.expression) := by
  induction args generalizing slots with
  | nil => simp
  | cons a args ih =>
      cases hname : a.name with
      | some name =>
          cases hslot : s.slot? name with
          | some slot =>
              rw [placements_declared s hname hslot]
              by_cases h : slot = i
              · subst h
                simp [hname, hslot, ih slots hi]
              · simp [hname, hslot, h, ih slots hi]
          | none =>
              rw [placements_unknown s hname hslot, ih slots hi]
              simp [hname, hslot]
      | none =>
          cases slots with
          | nil =>
              rw [placements_surplus s hname, ih [] hi]
              simp [hname]
          | cons slot slots =>
              rw [List.mem_cons, not_or] at hi
              rw [placements_positional s hname]
              simp [hname, Ne.symm hi.1, ih slots hi.2]

/-- **The `k`-th open slot receives the `k`-th positional argument** and nothing else, when no
argument claims it. -/
lemma placements_to_open (s : Signature) {i : Nat} (args : List (Argument ε))
    (hclaim : ∀ a ∈ args, a.name.bind s.slot? ≠ some i) (slots : List Nat) (hnodup : slots.Nodup)
    (k : Nat) (hk : slots[k]? = some i) :
    (placements s slots args).filter (fun x => x.1 = i) =
      ((positionals args)[k]?.map fun e => (i, e)).toList := by
  induction args generalizing slots k with
  | nil => simp [positionals]
  | cons a args ih =>
      rw [List.forall_mem_cons] at hclaim
      obtain ⟨ha, hargs⟩ := hclaim
      cases hname : a.name with
      | some name =>
          rw [positionals_cons_named hname]
          cases hslot : s.slot? name with
          | some slot =>
              have hne : slot ≠ i := fun h => ha (by rw [hname, Option.bind_some, hslot, h])
              rw [placements_declared s hname hslot, List.filter_cons_of_neg (by simpa using hne)]
              exact ih hargs slots hnodup k hk
          | none =>
              rw [placements_unknown s hname hslot]
              exact ih hargs slots hnodup k hk
      | none =>
          rw [positionals_cons_positional hname]
          cases slots with
          | nil => simp at hk
          | cons slot slots =>
              rw [placements_positional s hname]
              rw [List.nodup_cons] at hnodup
              cases k with
              | zero =>
                  -- the slot is used up here, so nothing later can go to it
                  obtain rfl : slot = i := by simpa using hk
                  have hlater := placements_to_claimed s args slots hnodup.1
                  have hnone : args.filter (fun a => a.name.bind s.slot? = some slot) = [] :=
                    List.filter_eq_nil_iff.mpr (by simpa using hargs)
                  rw [hnone, List.map_nil] at hlater
                  simp [hlater]
              | succ k =>
                  have hk' : slots[k]? = some i := by simpa using hk
                  have hne : slot ≠ i := fun h =>
                    hnodup.1 (h ▸ List.mem_of_getElem? hk')
                  rw [List.filter_cons_of_neg (by simpa using hne)]
                  simpa using ih hargs slots hnodup.2 k hk'

/-- The expressions that are placed somewhere are those of the declared names, and those of the
first positional arguments, as many as slots are open. -/
lemma forall_placements_iff (s : Signature) (P : ε → Prop) (args : List (Argument ε))
    (slots : List Nat) :
    (∀ x ∈ placements s slots args, P x.2) ↔
      (∀ a ∈ args, ∀ name, a.name = some name → name ∈ s.names → P a.expression) ∧
        ∀ e ∈ (positionals args).take slots.length, P e := by
  induction args generalizing slots with
  | nil => simp [positionals]
  | cons a args ih =>
      cases hname : a.name with
      | some name =>
          rw [positionals_cons_named hname]
          cases hslot : s.slot? name with
          | some slot =>
              have hmem : name ∈ s.names := slot?_isSome_iff.mp (by simp [hslot])
              rw [placements_declared s hname hslot, List.forall_mem_cons, ih slots,
                List.forall_mem_cons]
              simp only [hname, Option.some.injEq, forall_eq', hmem, true_imp_iff, and_assoc]
          | none =>
              have hmem : name ∉ s.names := fun h => by
                simpa [hslot] using slot?_isSome_iff.mpr h
              rw [placements_unknown s hname hslot, ih slots, List.forall_mem_cons]
              simp [hname, hmem]
      | none =>
          rw [positionals_cons_positional hname]
          cases slots with
          | nil =>
              rw [placements_surplus s hname, ih [], List.forall_mem_cons]
              simp [hname]
          | cons slot slots =>
              rw [placements_positional s hname, List.forall_mem_cons, ih slots,
                List.forall_mem_cons, List.length_cons, List.take_succ_cons, List.forall_mem_cons]
              simp only [hname, reduceCtorEq, false_imp_iff, implies_true, true_and]
              exact and_left_comm

end SolidOps.Binding
