import SolidOps.Proofs.Binding.Placing

/-!
# The binding law

Binding goes over the arguments twice, hands out slots as it meets positional arguments and
overwrites values as it meets names again.  Its result can be said without any of this.

* `Binding.MatchedEvaluate`: every argument that goes to a slot evaluates.
* `Binding.Reached`: an argument goes to the slot, by name or by position.
* `Binding.SlotValue`: what a slot holds, by the three ways a slot is supplied.

**`Binding.bind_law`** puts them together.  Binding succeeds exactly when the matched arguments
evaluate and the required slots are reached; then every slot holds its `SlotValue`; and a required
slot that is not reached is named in the error, the first one if there are several.
-/

namespace SolidOps.Binding

variable {ε : Type} [Evaluator Context ε] {scope : Scope} {s : Signature}
  {args : List (Argument ε)} {i : Nat}

/-! ## The conditions of success -/

/-- Every argument that goes to a slot evaluates: the named ones whose name is declared, and as
many of the first positional ones as slots are unclaimed. -/
def MatchedEvaluate (scope : Scope) (s : Signature) (args : List (Argument ε)) : Prop :=
  (∀ a ∈ args, ∀ name, a.name = some name → name ∈ s.names →
    ∃ v, evaluated scope a.expression = .ok v) ∧
  ∀ e ∈ (positionals args).take (unclaimed s args).length, ∃ v, evaluated scope e = .ok v

/-- Some argument goes to slot `i`: it is claimed, or it is the `k`-th unclaimed slot and the call
has more than `k` positional arguments. -/
def Reached (s : Signature) (args : List (Argument ε)) (i : Nat) : Prop :=
  Claimed s args i ∨ ∃ k, (unclaimed s args)[k]? = some i ∧ k < (positionals args).length

/-- The value of slot `i`. -/
inductive SlotValue (scope : Scope) (s : Signature) (args : List (Argument ε)) (i : Nat) :
    Value → Prop
  /-- A claimed slot has the value of the last argument of its name. -/
  | claimed {name : String} {a : Argument ε} {v : Value} (first : FirstOfName s i name)
      (last : (namesakes args name).getLast? = some a)
      (value : evaluated scope a.expression = .ok v) : SlotValue scope s args i v
  /-- The `k`-th unclaimed slot has the value of the `k`-th positional argument. -/
  | positional {k : Nat} {e : ε} {v : Value} (slot : (unclaimed s args)[k]? = some i)
      (supplied : (positionals args)[k]? = some e)
      (value : evaluated scope e = .ok v) : SlotValue scope s args i v
  /-- Without a `k`-th positional argument it is `undef`. -/
  | omitted {k : Nat} (slot : (unclaimed s args)[k]? = some i)
      (missing : (positionals args)[k]? = none) : SlotValue scope s args i .undefined

/-! ## Every slot is supplied in one of three ways -/

lemma filled_isOk_iff :
    (∃ slots, filled scope s args = .ok slots) ↔ MatchedEvaluate scope s args := by
  rw [filled, fill_isOk_iff, forall_placements_iff s (fun e => ∃ v, evaluated scope e = .ok v)]
  rfl

section Filled

variable {slots : Slots}

/-- A claimed slot is filled with the value of the last argument of its name. -/
lemma filled_of_claimed (h : filled scope s args = .ok slots) (hi : Claimed s args i) :
    ∃ v, slots[i]? = some (some v) ∧ SlotValue scope s args i v := by
  obtain ⟨name, hfirst, a, ha, hname⟩ := hi
  have hlt : i < s.length := hfirst.lt_length
  have hclaimed : Claimed s args i := ⟨name, hfirst, a, ha, hname⟩
  have hplaced := placements_to_claimed s args _ (not_mem_unclaimed_of_claimed hclaimed)
  have hsame : (args.filter fun a => a.name.bind s.slot? = some i) = namesakes args name :=
    List.filter_congr fun b _ => by
      simp only [bind_slot?_eq_iff_of_first hfirst]
  have hvalue := getElem?_of_fill h (i := i) (by rwa [length_emptySlots])
  rw [hplaced, hsame, List.getLast?_map] at hvalue
  have hmem : a ∈ namesakes args name := by simp [namesakes, ha, hname]
  obtain ⟨b, hb⟩ : ∃ b, (namesakes args name).getLast? = some b :=
    ⟨_, List.getLast?_eq_some_getLast (List.ne_nil_of_mem hmem)⟩
  rw [hb] at hvalue
  obtain ⟨v, hv, hslot⟩ := hvalue
  exact ⟨v, hslot, .claimed hfirst hb hv⟩

/-- The `k`-th unclaimed slot is filled with the value of the `k`-th positional argument, or stays
empty when there is none. -/
lemma filled_of_unclaimed (h : filled scope s args = .ok slots) {k : Nat}
    (hk : (unclaimed s args)[k]? = some i) :
    (∃ v, k < (positionals args).length ∧ slots[i]? = some (some v) ∧ SlotValue scope s args i v) ∨
      ((positionals args).length ≤ k ∧ slots[i]? = some none ∧
        SlotValue scope s args i .undefined) := by
  have hmem : i ∈ unclaimed s args := List.mem_of_getElem? hk
  have hlt : i < s.length := (mem_unclaimed.mp hmem).1
  have hplaced := placements_to_open s args (bind_slot?_ne_of_mem_unclaimed hmem) _
    (nodup_unclaimed s args) k hk
  have hvalue := getElem?_of_fill h (i := i) (by rwa [length_emptySlots])
  rw [hplaced] at hvalue
  cases hpos : (positionals args)[k]? with
  | some e =>
      obtain ⟨v, hv, hslot⟩ : ∃ v, evaluated scope e = .ok v ∧ slots[i]? = some (some v) := by
        simpa [hpos] using hvalue
      exact .inl ⟨v, (List.getElem?_eq_some_iff.mp hpos).1, hslot, .positional hk hpos hv⟩
  | none =>
      have hslot : slots[i]? = some none := by
        simpa [hpos, getElem?_emptySlots hlt] using hvalue
      exact .inr ⟨List.getElem?_eq_none_iff.mp hpos, hslot, .omitted hk hpos⟩

/-- Every slot has its value, and is empty only when it is not reached. -/
lemma filled_slot (h : filled scope s args = .ok slots) (hi : i < s.length) :
    ∃ slot, slots[i]? = some slot ∧ SlotValue scope s args i (slot.getD .undefined) ∧
      (slot = none ↔ ¬Reached s args i) := by
  by_cases hclaim : Claimed s args i
  · obtain ⟨v, hslot, hvalue⟩ := filled_of_claimed h hclaim
    exact ⟨some v, hslot, hvalue, by simp [Reached, hclaim]⟩
  · obtain ⟨k, hk⟩ := List.mem_iff_getElem?.mp (mem_unclaimed.mpr ⟨hi, hclaim⟩)
    -- the slots of the list differ, so that `k` is the only place of slot `i` in it
    have hreached : Reached s args i ↔ k < (positionals args).length := by
      constructor
      · rintro (hc | ⟨k', hk', hlt⟩)
        · exact absurd hc hclaim
        · have hlen := (List.getElem?_eq_some_iff.mp hk').1
          rwa [(List.getElem?_inj hlen (nodup_unclaimed s args)).mp (hk'.trans hk.symm)] at hlt
      · exact fun hlt => .inr ⟨k, hk, hlt⟩
    rcases filled_of_unclaimed h hk with ⟨v, hlt, hslot, hvalue⟩ | ⟨hle, hslot, hvalue⟩
    · exact ⟨some v, hslot, hvalue, by simp [hreached, hlt]⟩
    · exact ⟨none, hslot, hvalue, by simp [hreached, hle]⟩

end Filled

/-! ## Reading bindings -/

lemma lookup_eq_none_of_not_mem {entries : List (String × Value)} {name : String}
    (h : name ∉ entries.map Prod.fst) : entries.lookup name = none := by
  rw [List.lookup_eq_none_iff]
  intro p hp
  simp only [bne_iff_ne, ne_eq]
  rintro rfl
  exact h (List.mem_map_of_mem hp)

/-- The first entry of a name is the one that is looked up. -/
lemma lookup_eq_of_first {entries : List (String × Value)} {name : String} {v : Value}
    (hentry : entries[i]? = some (name, v))
    (hbefore : ∀ j < i, ∀ x, entries[j]? = some x → x.1 ≠ name) :
    entries.lookup name = some v := by
  induction entries generalizing i with
  | nil => simp at hentry
  | cons entry entries ih =>
      cases i with
      | zero =>
          obtain rfl : entry = (name, v) := by simpa using hentry
          simp
      | succ i =>
          have hne : entry.1 ≠ name := hbefore 0 i.succ_pos entry rfl
          rw [List.lookup_cons, beq_false_of_ne hne.symm]
          exact ih (by simpa using hentry) fun j hj x hx =>
            hbefore (j + 1) (Nat.succ_lt_succ hj) x (by simpa using hx)

/-! ## The law -/

/-- What filling and completing give, when they do. -/
lemma fill_complete_eq_ok_iff {operator : String} {b : Bindings} :
    (filled scope s args >>= fun slots => (complete operator s slots).map Bindings.mk) = .ok b ↔
      ∃ slots, filled scope s args = .ok slots ∧ complete operator s slots = .ok b.entries := by
  cases filled scope s args with
  | error e => simp [Bind.bind, Except.bind]
  | ok slots =>
      obtain ⟨entries⟩ := b
      cases h : complete operator s slots <;> simp [Bind.bind, Except.bind, Except.map, h]

variable [ScopedEvaluator ε]

/-- In a context, binding has the outcome of filling and completing. -/
lemma perform_bind_fst (operator : String) (s : Signature) (args : List (Argument ε))
    (c : Context) :
    ((bind operator s args).perform c).1 =
      filled c.scope s args >>= fun slots => (complete operator s slots).map Bindings.mk := by
  have h := bind_readings operator s args
  rw [h.1 c, h.2 c.scope]

/-- **The binding law.**  Where evaluation sees only the scope, binding succeeds if and only if
every matched argument evaluates and every required slot is reached.  On success the names are
those of the signature, every slot has the value that its claim, its place or its omission gives
it, and a name reads the first slot declared under it.  When all matched arguments evaluate and a
required slot is not reached, the error names the first such slot. -/
theorem bind_law (operator : String) (s : Signature) (args : List (Argument ε)) (c : Context) :
    ((∃ b, ((bind operator s args).perform c).1 = .ok b) ↔
      MatchedEvaluate c.scope s args ∧
        ∀ i p, s[i]? = some p → p.required = true → Reached s args i) ∧
    (∀ b, ((bind operator s args).perform c).1 = .ok b →
      b.names = s.names ∧
      (∀ i p, s[i]? = some p →
        ∃ v, b.entries[i]? = some (p.name, v) ∧ SlotValue c.scope s args i v) ∧
      ∀ name, (name ∉ s.names → b.get name = .undefined) ∧
        ∀ i, FirstOfName s i name → b.entries[i]? = some (name, b.get name)) ∧
    (MatchedEvaluate c.scope s args → ∀ i p, s[i]? = some p → p.required = true →
      ¬Reached s args i →
      (∀ j < i, ∀ q, s[j]? = some q → q.required = true → Reached s args j) →
      ((bind operator s args).perform c).1 = .error (.missingArgument p.name operator)) := by
  rw [perform_bind_fst]
  refine ⟨⟨?_, ?_⟩, ?_, ?_⟩
  · -- a binding that succeeds filled its slots and found no required one empty
    rintro ⟨b, hb⟩
    obtain ⟨slots, hfill, hcomplete⟩ := fill_complete_eq_ok_iff.mp hb
    refine ⟨filled_isOk_iff.mp ⟨slots, hfill⟩, fun i p hp hreq => ?_⟩
    obtain ⟨slot, hslot, _, hempty⟩ := filled_slot hfill (List.getElem?_eq_some_iff.mp hp).1
    have hne := (getElem?_of_complete hcomplete hp hslot).1 hreq
    by_contra hreached
    exact hne (hempty.mpr hreached)
  · rintro ⟨heval, hreached⟩
    obtain ⟨slots, hfill⟩ := filled_isOk_iff.mpr heval
    have hfull : ∀ (i : Nat) (p : Parameter), s[i]? = some p → p.required = true →
        slots[i]? ≠ some none := by
      intro i p hp hreq hnone
      obtain ⟨slot, hslot, _, hempty⟩ := filled_slot hfill (List.getElem?_eq_some_iff.mp hp).1
      obtain rfl : slot = none := by simpa [hslot] using hnone
      exact hempty.mp rfl (hreached i p hp hreq)
    obtain ⟨entries, hcomplete⟩ := complete_isOk operator hfull
    exact ⟨⟨entries⟩, fill_complete_eq_ok_iff.mpr ⟨slots, hfill, hcomplete⟩⟩
  · intro b hb
    obtain ⟨slots, hfill, hcomplete⟩ := fill_complete_eq_ok_iff.mp hb
    have hlength : slots.length = s.length := (length_of_fill hfill).trans (length_emptySlots s)
    have hnames : b.entries.map Prod.fst = s.names := names_of_complete hlength hcomplete
    refine ⟨hnames, fun i p hp => ?_, fun name => ⟨fun hname => ?_, fun i hfirst => ?_⟩⟩
    · obtain ⟨slot, hslot, hvalue, _⟩ := filled_slot hfill (List.getElem?_eq_some_iff.mp hp).1
      exact ⟨_, (getElem?_of_complete hcomplete hp hslot).2, hvalue⟩
    · rw [Bindings.get, lookup_eq_none_of_not_mem (by rwa [hnames]), Option.getD_none]
    · obtain ⟨⟨p, hp, rfl⟩, hbefore⟩ := hfirst
      obtain ⟨slot, hslot, _, _⟩ := filled_slot hfill (List.getElem?_eq_some_iff.mp hp).1
      have hentry := (getElem?_of_complete hcomplete hp hslot).2
      have hother : ∀ j < i, ∀ x, b.entries[j]? = some x → x.1 ≠ p.name := by
        intro j hj x hx
        have hname : s.names[j]? = some x.1 := by rw [← hnames, List.getElem?_map, hx]; rfl
        obtain ⟨q, hq, hqname⟩ : ∃ q, s[j]? = some q ∧ q.name = x.1 := by
          simpa [Signature.names] using hname
        rw [← hqname]
        exact hbefore j hj q hq
      rw [Bindings.get, lookup_eq_of_first hentry hother, Option.getD_some]
      exact hentry
  · intro heval i p hp hreq hreached hbefore
    obtain ⟨slots, hfill⟩ := filled_isOk_iff.mpr heval
    obtain ⟨slot, hslot, _, hempty⟩ := filled_slot hfill (List.getElem?_eq_some_iff.mp hp).1
    obtain rfl := hempty.mpr hreached
    have hothers : ∀ j < i, ∀ q : Parameter, s[j]? = some q → q.required = true →
        slots[j]? ≠ some none := by
      intro j hj q hq hqreq hnone
      obtain ⟨slot, hslot, _, hempty⟩ := filled_slot hfill (List.getElem?_eq_some_iff.mp hq).1
      obtain rfl : slot = none := by simpa [hslot] using hnone
      exact hempty.mp rfl (hbefore j hj q hq hqreq)
    rw [hfill]
    show (complete operator s slots).map Bindings.mk = _
    rw [complete_eq_error hp hreq hslot hothers]
    rfl

/-- A call in which the second of two parameters of one name stays open.  The argument that fails
is named after no parameter, so that it is not evaluated. -/
theorem bind_law_of_second_namesake_open :
    ((bind "m" [.mandatory "a", .optional "b", .mandatory "a"]
        ([⟨some "b", .expression (.literal (.boolean true))⟩, ⟨none, .expression (.var "x")⟩,
          ⟨some "c", .failing "not evaluated"⟩] : List (Argument (Fallible Expression)))).perform
      (Context.ofScope Scope.empty)).1 = .error (.missingArgument "a" "m") := by
  refine (bind_law "m" _ _ _).2.2 ⟨?_, ?_⟩ 2 (.mandatory "a") rfl rfl ?_ ?_
  · intro a ha name hname hdeclared
    fin_cases ha
    · exact ⟨_, rfl⟩
    · cases hname
    · cases hname
      exact absurd hdeclared (by decide)
  · intro e he
    obtain rfl := List.mem_singleton.mp (List.mem_of_mem_take he)
    exact ⟨.undefined, rfl⟩
  · rintro (hclaim | ⟨k, hk, hlt⟩)
    · exact absurd hclaim (by decide)
    · obtain rfl : k = 0 := Nat.lt_one_iff.mp hlt
      exact absurd hk (by decide)
  · intro j hj q hq _
    interval_cases j
    · exact .inr ⟨0, by decide, by decide⟩
    · exact .inl (by decide)

end SolidOps.Binding
