import SolidOps.Proofs.Binding.Placing

/-!
# Arguments in another order

The order of arguments matters among positional ones, which take slots as they come, and among
arguments of one name, of which the last one counts.  Otherwise it does not, except that reports
come in another order too.

* `Binding.Reordering` says when two calls have the same arguments in orders that agree where order
  matters.
* `Binding.Exchanges` says the same in small steps: neighbours change places when they have
  different names, or when just one of them is positional.
* `Run.SameButOrder` relates two actions with one outcome and the same reports in some order.

The small steps are what an induction can use.  Two neighbours that change places go to different
slots, since a slot that is left for positional arguments is no named argument's.  So neither
of them can see whether the other one came first (`placeOne_comm`), and placing the rest starts from
the same slots.

None of this holds of evaluations that fail: of two failing arguments the first one has the say.
So it is assumed throughout that expressions have values.
-/

namespace SolidOps

/-- Two actions have the same outcome, and the same reports in some order. -/
structure Run.SameButOrder {α : Type} (x y : Run Context α) (scope : Scope) : Prop where
  outcome : x.outcome scope = y.outcome scope
  reports : (x.reports scope).Perm (y.reports scope)

namespace Run.SameButOrder

variable {α β : Type} {x y z : Run Context α} {scope : Scope}

lemma refl (x : Run Context α) (scope : Scope) : x.SameButOrder x scope := ⟨rfl, .refl _⟩

lemma symm (h : x.SameButOrder y scope) : y.SameButOrder x scope :=
  ⟨h.outcome.symm, h.reports.symm⟩

lemma trans (h : x.SameButOrder y scope) (h' : y.SameButOrder z scope) :
    x.SameButOrder z scope :=
  ⟨h.outcome.trans h'.outcome, h.reports.trans h'.reports⟩

/-- The first of two actions may be replaced. -/
lemma bind_left {f : α → Run Context β} (h : x.SameButOrder y scope) (hx : x.Scoped) (hy : y.Scoped)
    (hf : ∀ a, (f a).Scoped) : (x >>= f).SameButOrder (y >>= f) scope := by
  constructor
  · rw [outcome_bind hx hf, outcome_bind hy hf, h.outcome]
  · rw [reports_bind hx hf, reports_bind hy hf, h.outcome]
    exact h.reports.append_right _

/-- The second of two actions may be replaced. -/
lemma bind_right {f g : α → Run Context β} (hx : x.Scoped) (hf : ∀ a, (f a).Scoped)
    (hg : ∀ a, (g a).Scoped) (h : ∀ a, (f a).SameButOrder (g a) scope) :
    (x >>= f).SameButOrder (x >>= g) scope := by
  constructor
  · rw [outcome_bind hx hf, outcome_bind hx hg]
    simp only [fun a => (h a).outcome]
  · rw [reports_bind hx hf, reports_bind hx hg]
    refine List.Perm.append_left _ ?_
    cases x.outcome scope with
    | ok a => exact (h a).reports
    | error e => exact .refl _

end Run.SameButOrder

namespace Binding

/-! ## Reorderings of arguments -/

section Lists

variable {ε : Type} {A B : List (Argument ε)}

/-- The same arguments in another order, in which the positional ones are ordered as before, and so
are those of each name. -/
structure Reordering (A B : List (Argument ε)) : Prop where
  perm : A.Perm B
  positional : positionals A = positionals B
  named : ∀ name, namesakes A name = namesakes B name

/-- Neighbours change places, any number of times, when they have different names or just one of
them has a name. -/
inductive Exchanges : List (Argument ε) → List (Argument ε) → Prop
  | nil : Exchanges [] []
  | cons (a : Argument ε) {A B : List (Argument ε)} (tail : Exchanges A B) :
      Exchanges (a :: A) (a :: B)
  | swap {a b : Argument ε} (different : a.name ≠ b.name) (rest : List (Argument ε)) :
      Exchanges (a :: b :: rest) (b :: a :: rest)
  | trans {A B C : List (Argument ε)} (first : Exchanges A B) (second : Exchanges B C) :
      Exchanges A C

namespace Exchanges

lemma refl (A : List (Argument ε)) : Exchanges A A := by
  induction A with
  | nil => exact .nil
  | cons a A ih => exact .cons a ih

lemma perm (h : Exchanges A B) : A.Perm B := by
  induction h with
  | nil => exact .nil
  | cons a _ ih => exact ih.cons a
  | swap _ rest => exact .swap _ _ rest
  | trans _ _ ih ih' => exact ih.trans ih'

/-- The first argument moves back past arguments of other names. -/
lemma moves_back {a : Argument ε} {before : List (Argument ε)}
    (h : ∀ b ∈ before, b.name ≠ a.name) (after : List (Argument ε)) :
    Exchanges (a :: (before ++ after)) (before ++ a :: after) := by
  induction before with
  | nil => exact refl _
  | cons b before ih =>
      rw [List.forall_mem_cons] at h
      exact (swap h.1.symm _).trans (.cons b (ih h.2))

end Exchanges

/-- Lists that agree on every name agree up to exchanges. -/
lemma exchanges_of_filter_eq
    (h : ∀ name, A.filter (fun a => a.name = name) = B.filter fun a => a.name = name) :
    Exchanges A B := by
  induction A generalizing B with
  | nil =>
      have hB : B = [] := by
        cases B with
        | nil => rfl
        | cons b B => simpa using h b.name
      rw [hB]
      exact .nil
  | cons a A ih =>
      -- the first argument is the first of its name in `B`, and the others agree without it
      have ha := h a.name
      rw [List.filter_cons_of_pos (by simp), eq_comm, List.filter_eq_cons_iff] at ha
      obtain ⟨before, after, rfl, hbefore, -, hafter⟩ := ha
      have hnot : ∀ b ∈ before, b.name ≠ a.name := by simpa using hbefore
      refine (Exchanges.cons a (ih fun name => ?_)).trans (Exchanges.moves_back hnot after)
      by_cases hname : a.name = name
      · have hnone : before.filter (fun b => b.name = name) = [] :=
          List.filter_eq_nil_iff.mpr fun b hb => by simpa [hname] using hnot b hb
        rw [List.filter_append, hnone, List.nil_append, ← hname, hafter]
      · have hname' := h name
        rw [List.filter_cons_of_neg (by simpa using hname), List.filter_append,
          List.filter_cons_of_neg (by simpa using hname)] at hname'
        rw [hname', List.filter_append]

/-- Of a positional argument nothing is lost by looking at its expression alone. -/
lemma filter_positional (A : List (Argument ε)) :
    A.filter (fun a => a.name = none) = (positionals A).map fun e => ⟨none, e⟩ := by
  rw [positionals, List.map_map]
  symm
  refine (List.map_congr_left fun a ha => ?_).trans (List.map_id _)
  obtain ⟨name, e⟩ := a
  obtain rfl : name = none := by simpa using (List.mem_filter.mp ha).2
  rfl

lemma Reordering.exchanges (h : Reordering A B) : Exchanges A B := by
  refine exchanges_of_filter_eq fun name => ?_
  cases name with
  | none => rw [filter_positional, filter_positional, h.positional]
  | some name => exact h.named name

/-- Named arguments may stand in any order when no two of them have the same name. -/
lemma reordering_of_distinct (hperm : A.Perm B) (hnamed : ∀ a ∈ A, a.name ≠ none)
    (hdistinct : (A.map Argument.name).Nodup) : Reordering A B := by
  have hnone : ∀ L : List (Argument ε), (∀ a ∈ L, a.name ≠ none) → positionals L = [] := by
    intro L hL
    rw [positionals, List.filter_eq_nil_iff.mpr (by simpa using hL), List.map_nil]
  refine ⟨hperm, ?_, fun name => ?_⟩
  · rw [hnone A hnamed, hnone B fun b hb => hnamed b (hperm.mem_iff.mpr hb)]
  · -- at most one argument has the name, so there is nothing to put in order
    have hfilter : (namesakes A name).Perm (namesakes B name) := hperm.filter _
    have hshort : (namesakes A name).length ≤ 1 := by
      have hcount := List.nodup_iff_count_le_one.mp hdistinct (some name)
      rw [List.count, List.countP_map, List.countP_eq_length_filter] at hcount
      refine le_trans (le_of_eq ?_) hcount
      refine congrArg List.length (List.filter_congr fun a _ => ?_)
      rw [Function.comp_apply, beq_eq_decide]
    rcases hA : namesakes A name with _ | ⟨a, _ | ⟨b, rest⟩⟩
    · rw [hA] at hfilter
      exact hfilter.nil_eq
    · rw [hA] at hfilter
      exact (List.perm_singleton.mp hfilter.symm).symm
    · simp [hA] at hshort

lemma claimed_congr {s : Signature} {i : Nat} (h : A.Perm B) : Claimed s A i ↔ Claimed s B i := by
  simp only [Claimed, h.mem_iff]

lemma unclaimed_congr (s : Signature) (h : A.Perm B) : unclaimed s A = unclaimed s B :=
  List.filter_congr fun i _ => by simp only [claimed_congr h]

end Lists

/-! ## Two neighbours -/

section Routes

variable (s : Signature)

/-- A named argument and one of another name, or a positional one, go to different slots. -/
lemma slot?_route_ne {slots : List Nat} {name : String} {other : Option String}
    (hopen : ∀ i ∈ slots, s.slot? name ≠ some i) (hne : some name ≠ other) (i : Nat)
    (hi : (route s slots (some name)).1.slot? = some i) :
    (route s slots other).1.slot? ≠ some i := by
  rw [slot?_route_named] at hi
  intro hother
  cases other with
  | some other =>
      rw [slot?_route_named] at hother
      exact hne (congrArg some ((slot?_eq_some_iff.mp hi).eq (slot?_eq_some_iff.mp hother)))
  | none =>
      rw [slot?_route_positional] at hother
      exact hopen i (List.mem_of_mem_head? hother) hi

end Routes

section Placing

variable {ε : Type} [Evaluator Context ε] [ScopedEvaluator ε] {scope : Scope} (operator : String)

/-- An argument that has a value: it is put where it goes, and what is reported is what its
evaluation reports, which does not depend on the slots, and then its warnings. -/
lemma placeOne_of_value {x : Destination × ε} {v : Value} (hv : evaluated scope x.2 = .ok v) :
    ∃ said : List Diagnostic, ∀ slots,
      (placeOne operator slots x : Run Context Slots).outcome scope = .ok (x.1.put v slots) ∧
      (placeOne operator slots x : Run Context Slots).reports scope =
        said ++ warnings operator slots x.1 := by
  have hreports : ∀ slots slots' : Slots,
      (Run.reportAll (warnings operator slots x.1) >>= fun _ => pure slots' :
        Run Context Slots).reports scope = warnings operator slots x.1 := by
    intro slots slots'
    rw [Run.reports_bind (Run.scoped_reportAll _) fun _ => Run.scoped_pure _]
    simp
  cases hslot : x.1.slot? with
  | some slot =>
      refine ⟨(Evaluator.evaluate x.2 : Run Context Value).reports scope, fun slots => ⟨?_, ?_⟩⟩
      · rw [(placeOne_readings operator slots x).2 scope]
        simp only [hslot, hv, Destination.put, Except.map]
      · rw [placeOne_of_slot operator slots hslot,
          Run.reports_bind (ScopedEvaluator.evaluate_scoped x.2) fun value =>
            (Run.scoped_reportAll _).bind fun _ => Run.scoped_pure _]
        rw [evaluated] at hv
        rw [hv, Run.reportsAfter_ok, hreports]
  | none =>
      refine ⟨[], fun slots => ⟨?_, ?_⟩⟩
      · rw [(placeOne_readings operator slots x).2 scope]
        simp only [hslot, Destination.put]
      · rw [placeOne_of_no_slot operator slots hslot, hreports, List.nil_append]

/-- **Two arguments that go to different slots can be placed in either order.** -/
lemma placeOne_comm {x y : Destination × ε} (hx : ∃ v, evaluated scope x.2 = .ok v)
    (hy : ∃ v, evaluated scope y.2 = .ok v)
    (hne : ∀ i, x.1.slot? = some i → y.1.slot? ≠ some i) (slots : Slots) :
    (placeOne operator slots x >>= fun slots' => placeOne operator slots' y :
        Run Context Slots).SameButOrder
      (placeOne operator slots y >>= fun slots' => placeOne operator slots' x) scope := by
  obtain ⟨v, hv⟩ := hx
  obtain ⟨w, hw⟩ := hy
  have hne' : ∀ i, y.1.slot? = some i → x.1.slot? ≠ some i := fun i hi hi' => hne i hi' hi
  obtain ⟨saidX, hX⟩ := placeOne_of_value operator hv
  obtain ⟨saidY, hY⟩ := placeOne_of_value operator hw
  have hscoped (z : Destination × ε) (slots : Slots) := (placeOne_readings operator slots z).1
  constructor
  · rw [Run.outcome_bind (hscoped x slots) (hscoped y),
      Run.outcome_bind (hscoped y slots) (hscoped x), (hX slots).1, (hY slots).1]
    show (placeOne operator (x.1.put v slots) y).outcome scope =
      (placeOne operator (y.1.put w slots) x).outcome scope
    rw [(hX _).1, (hY _).1, Destination.put_comm hne]
  · rw [Run.reports_bind (hscoped x slots) (hscoped y),
      Run.reports_bind (hscoped y slots) (hscoped x), (hX slots).1, (hY slots).1,
      Run.reportsAfter_ok, Run.reportsAfter_ok, (hX _).2, (hY _).2, (hX _).2, (hY _).2,
      warnings_put operator hne, warnings_put operator hne']
    exact List.perm_append_comm

/-! ## All arguments -/

variable {s : Signature} {A B : List (Argument ε)}

/-- Neighbours of which the first one is named change places. -/
lemma place_swap (htotal : ∀ e : ε, ∃ v, evaluated scope e = .ok v) {a b : Argument ε}
    {name : String} (ha : a.name = some name) (hne : a.name ≠ b.name) (rest : List (Argument ε))
    {opened : List Nat} (hopen : ∀ i ∈ opened, s.slot? name ≠ some i) (slots : Slots) :
    (place operator (routed s opened (a :: b :: rest)) slots : Run Context Slots).SameButOrder
      (place operator (routed s opened (b :: a :: rest)) slots) scope := by
  -- a named argument takes no open slot, so the other one finds the same slots open
  have hafter : ∀ opened' : List Nat, (route s opened' a.name).2 = opened' ∧
      (route s opened' a.name).1 = (route s opened a.name).1 := by
    intro opened'
    rw [ha]
    exact ⟨rfl, rfl⟩
  have hdifferent := slot?_route_ne s hopen (ha ▸ hne)
  rw [← ha] at hdifferent
  rw [routed_cons, routed_cons, routed_cons, routed_cons, (hafter opened).1,
    (hafter (route s opened b.name).2).1, (hafter (route s opened b.name).2).2, place_cons_cons,
    place_cons_cons]
  have hcomm := placeOne_comm operator
    (x := ((route s opened a.name).1, a.expression))
    (y := ((route s opened b.name).1, b.expression)) (htotal _) (htotal _) hdifferent slots
  have hscoped (x y : Destination × ε) :
      (placeOne operator slots x >>= fun slots' => placeOne operator slots' y :
        Run Context Slots).Scoped :=
    (placeOne_readings operator slots x).1.bind fun slots' =>
      (placeOne_readings operator slots' y).1
  refine hcomm.bind_left (hscoped _ _) (hscoped _ _) ?_
  intro slots'
  exact (place_readings operator _ slots').1

/-- Exchanges make no difference to placing but for the order of the reports. -/
lemma place_exchanges (htotal : ∀ e : ε, ∃ v, evaluated scope e = .ok v) (h : Exchanges A B)
    {opened : List Nat} (hopen : ∀ a ∈ A, ∀ i ∈ opened, a.name.bind s.slot? ≠ some i)
    (slots : Slots) :
    (place operator (routed s opened A) slots : Run Context Slots).SameButOrder
      (place operator (routed s opened B) slots) scope := by
  induction h generalizing opened slots with
  | nil => exact .refl _ _
  | cons a _ ih =>
      rw [List.forall_mem_cons] at hopen
      rw [routed_cons, routed_cons, place_cons, place_cons]
      have hscoped (C : List (Argument ε)) (slots' : Slots) :=
        (place_readings operator (routed s (route s opened a.name).2 C) slots').1
      refine .bind_right (placeOne_readings operator slots _).1 (hscoped _) (hscoped _)
        fun slots' => ih (fun b hb i hi => ?_) slots'
      exact hopen.2 b hb i (route_open_subset s opened a.name hi)
  | @swap a b hne rest =>
      have ha := hopen a (by simp)
      have hb := hopen b (by simp)
      cases hname : a.name with
      | some name =>
          refine place_swap operator htotal hname hne rest (fun i hi => ?_) slots
          simpa [hname] using ha i hi
      | none =>
          obtain ⟨name, hother⟩ := Option.ne_none_iff_exists'.mp fun h => hne (hname.trans h.symm)
          refine (place_swap operator htotal hother hne.symm rest (fun i hi => ?_) slots).symm
          simpa [hother] using hb i hi
  | trans first _ ih ih' =>
      exact (ih hopen slots).trans
        (ih' (fun a ha i hi => hopen a (first.perm.mem_iff.mpr ha) i hi) slots)

/-- **Where expressions have values, reordered arguments bind to the same**, and only the order
of the reports may differ. -/
lemma bind_reordering (htotal : ∀ e : ε, ∃ v, evaluated scope e = .ok v) (h : Reordering A B)
    (s : Signature) :
    (bind operator s A : Run Context Bindings).SameButOrder (bind operator s B) scope := by
  have hplace := place_exchanges operator (s := s) htotal h.exchanges
    (fun a ha i hi => bind_slot?_ne_of_mem_unclaimed hi a ha) (emptySlots s)
  rw [bind_eq_placeAll, bind_eq_placeAll, placeAll, placeAll, ← unclaimed_congr s h.perm]
  exact hplace.bind_left (place_readings operator _ _).1 (place_readings operator _ _).1
    fun slots => Run.scoped_ofExcept _

/-- Where expressions have values, nothing but a missing argument can stop a binding. -/
lemma outcome_bind_eq_error (htotal : ∀ e : ε, ∃ v, evaluated scope e = .ok v)
    {e : CallError} (h : (bind operator s A : Run Context Bindings).outcome scope = .error e) :
    ∃ name ∈ s.names, e = .missingArgument name operator := by
  obtain ⟨slots, hslots⟩ := (fill_isOk_iff (placements s (unclaimed s A) A) (emptySlots s)).mpr
    fun x _ => htotal x.2
  rw [(bind_readings operator s A).2 scope, filled, hslots] at h
  cases hcomplete : complete operator s slots with
  | ok entries =>
      have h' : (complete operator s slots).map Bindings.mk = .error e := h
      rw [hcomplete] at h'
      cases h'
  | error e' =>
      have h' : (complete operator s slots).map Bindings.mk = .error e := h
      rw [hcomplete] at h'
      obtain rfl : e' = e := Except.error.inj h'
      exact error_of_complete hcomplete

end Placing

end Binding

end SolidOps
