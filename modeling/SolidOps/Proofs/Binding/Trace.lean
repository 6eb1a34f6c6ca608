import SolidOps.Proofs.Binding.Placing

/-!
# The trace of a binding

What can be seen of a binding from outside, besides its result, is which expressions it evaluates
and which warnings it gives, in which order.  An `Event` is one or the other, and `Binding.trace`
lists the events of a call, argument by argument:

* an argument under a declared name is evaluated, and reported on when an argument before it has the
  name, too;
* a positional argument is evaluated when fewer positional ones stand before it than slots are
  unclaimed in the whole call;
* of any other argument nothing but a warning is seen.

Here nothing is said of slots.  The binder looks at its slots to see whether a name was given
before, and at the slots still open to see whether a positional argument has one.
`Binding.FilledBy` is the invariant that ties the two: the slot of a name that the call uses is
filled once an argument of this name has been placed, and not before, since no positional argument
takes such a slot.

**`Binding.bind_trace`**: binding performs the events of the call one after another, and completes
the slots when all of them are done.
-/

namespace SolidOps.Binding

variable {ε : Type}

/-! ## Events -/

/-- What can be seen of a binding. -/
inductive Event (ε : Type)
  | evaluation (e : ε)
  | report (d : Diagnostic)

namespace Event

/-- The expression that is evaluated, if the event is an evaluation. -/
def expression? : Event ε → Option ε
  | evaluation e => some e
  | report _ => none

section Performing

variable {σ : Type} [Sink σ] [Evaluator σ ε]

/-- Performs events in order and gives the values of the evaluations.  The first evaluation that
fails is the last event to be performed. -/
def performAll : List (Event ε) → Run σ (List Value)
  | [] => pure []
  | evaluation e :: events => do
    let value ← Evaluator.evaluate e
    let values ← performAll events
    pure (value :: values)
  | report d :: events => do
    Run.report d
    performAll events

lemma performAll_append (events events' : List (Event ε)) :
    (performAll (events ++ events') : Run σ (List Value)) =
      performAll events >>= fun values =>
        performAll events' >>= fun values' => pure (values ++ values') := by
  induction events with
  | nil => simp [performAll]
  | cons event events ih =>
      cases event with
      | evaluation e => simp only [List.cons_append, performAll, ih, bind_assoc, pure_bind]
      | report d => simp only [List.cons_append, performAll, ih, bind_assoc]

lemma performAll_reports (ds : List Diagnostic) :
    (performAll (ds.map report : List (Event ε)) : Run σ (List Value)) =
      Run.reportAll ds >>= fun _ => pure [] := by
  induction ds with
  | nil => simp [performAll, Run.reportAll]
  | cons d ds ih => simp only [List.map_cons, performAll, ih, Run.reportAll, bind_assoc]

end Performing

end Event

/-! ## The events of a call -/

section Trace

variable (operator : String) (s : Signature) (args : List (Argument ε))

/-- Whether an argument of a call goes to a slot: its name is declared, or it is positional and so
far down the call that a slot is left for it. -/
def Matched (before : List (Argument ε)) (a : Argument ε) : Prop :=
  match a.name with
  | some name => name ∈ s.names
  | none => (positionals before).length < (unclaimed s args).length

/-- The events of one argument of a call, which stands behind the arguments `before`. -/
def argumentEvents (before : List (Argument ε)) (a : Argument ε) : List (Event ε) :=
  match a.name with
  | some name =>
    if name ∈ s.names then
      .evaluation a.expression ::
        if ∃ b ∈ before, b.name = some name then
          [.report (.warning (repeatedArgument operator name))]
        else []
    else [.report (.warning (unknownArgument operator name))]
  | none =>
    if (positionals before).length < (unclaimed s args).length then [.evaluation a.expression]
    else [.report (.warning (surplusArgument operator))]

/-- The events of the later arguments of a call, which stand behind the arguments `before`. -/
def traceFrom : List (Argument ε) → List (Argument ε) → List (Event ε)
  | _, [] => []
  | before, a :: after => argumentEvents operator s args before a ++ traceFrom (before ++ [a]) after

/-- The events of a call. -/
def trace : List (Event ε) := traceFrom operator s args [] args

variable {s args}

lemma argumentEvents_of_matched {before : List (Argument ε)} {a : Argument ε}
    (h : Matched s args before a) :
    ∃ warned, argumentEvents operator s args before a = .evaluation a.expression :: warned := by
  rw [Matched] at h
  rw [argumentEvents]
  cases hname : a.name with
  | some name =>
      simp only [hname] at h
      exact ⟨_, if_pos h⟩
  | none =>
      simp only [hname] at h
      exact ⟨[], if_pos h⟩

variable {operator}

lemma traceFrom_append (before middle after : List (Argument ε)) :
    traceFrom operator s args before (middle ++ after) =
      traceFrom operator s args before middle ++
        traceFrom operator s args (before ++ middle) after := by
  induction middle generalizing before with
  | nil => simp [traceFrom]
  | cons a middle ih => simp [traceFrom, ih]

end Trace

/-! ## Slots while arguments are placed -/

section Filled

variable {s : Signature} {args before : List (Argument ε)} {a : Argument ε} {slots : Slots}

/-- The slots still open to positional arguments behind certain arguments of a call. -/
def openAfter (s : Signature) (args before : List (Argument ε)) : List Nat :=
  (unclaimed s args).drop (positionals before).length

/-- Of the slots of names that the call uses, those are filled of which the name was given in the
arguments `before`. -/
structure FilledBy (s : Signature) (args before : List (Argument ε)) (slots : Slots) : Prop where
  length : slots.length = s.length
  filled : ∀ name slot, s.slot? name = some slot → (∃ a ∈ args, a.name = some name) →
    (slots.isFilled slot = true ↔ ∃ b ∈ before, b.name = some name)

lemma filledBy_emptySlots (s : Signature) (args : List (Argument ε)) :
    FilledBy s args [] (emptySlots s) := by
  refine ⟨length_emptySlots s, fun name slot _ _ => ?_⟩
  simp [isFilled_emptySlots]

lemma length_positionals_append (before : List (Argument ε)) (a : Argument ε) :
    (positionals (before ++ [a])).length =
      (positionals before).length + if a.name = none then 1 else 0 := by
  cases hname : a.name <;> simp [positionals, hname]

/-- Each positional argument takes one of the open slots, as long as there are any. -/
lemma open_route_openAfter (s : Signature) (args before : List (Argument ε)) (a : Argument ε) :
    (route s (openAfter s args before) a.name).2 = openAfter s args (before ++ [a]) := by
  rw [openAfter, openAfter, length_positionals_append]
  cases hname : a.name with
  | some name => simp [route]
  | none =>
      rw [if_pos rfl, ← List.drop_drop]
      cases (unclaimed s args).drop (positionals before).length <;> rfl

lemma mem_unclaimed_of_mem_openAfter {slot : Nat} (h : slot ∈ openAfter s args before) :
    slot ∈ unclaimed s args := List.mem_of_mem_drop h

/-- The slot of a name that the call uses is taken by arguments of this name and by no others. -/
lemma slot?_route_eq_iff {name : String} {slot : Nat} (hslot : s.slot? name = some slot)
    (hused : ∃ b ∈ args, b.name = some name) :
    (route s (openAfter s args before) a.name).1.slot? = some slot ↔ a.name = some name := by
  cases hname : a.name with
  | some other =>
      rw [slot?_route_named, Option.some.injEq]
      constructor
      · intro hother
        exact (slot?_eq_some_iff.mp hother).eq (slot?_eq_some_iff.mp hslot)
      · rintro rfl
        exact hslot
  | none =>
      rw [slot?_route_positional]
      refine iff_of_false (fun hopen => ?_) (by simp)
      obtain ⟨b, hb, hbname⟩ := hused
      have hmem : slot ∈ unclaimed s args :=
        mem_unclaimed_of_mem_openAfter (List.mem_of_mem_head? hopen)
      exact bind_slot?_ne_of_mem_unclaimed hmem b hb (by rw [hbname, Option.bind_some, hslot])

/-- **One argument further**, the slots of used names are filled as before, but for the slot of the
name that the argument has. -/
lemma FilledBy.put (h : FilledBy s args before slots) (v : Value) :
    FilledBy s args (before ++ [a])
      ((route s (openAfter s args before) a.name).1.put v slots) := by
  constructor
  · rw [Destination.put]
    cases (route s (openAfter s args before) a.name).1.slot? <;> simp [h.length]
  · intro name slot hslot hused
    have hgoes : (route s (openAfter s args before) a.name).1.slot? = some slot ↔
        a.name = some name := slot?_route_eq_iff hslot hused
    by_cases hname : a.name = some name
    · have hlt : slot < slots.length := by
        rw [h.length]
        exact (slot?_eq_some_iff.mp hslot).lt_length
      refine iff_of_true ?_ ⟨a, by simp, hname⟩
      simp [Slots.isFilled, Destination.put, hgoes.mpr hname, hlt]
    · rw [Destination.isFilled_put fun hd => hname (hgoes.mp hd), h.filled name slot hslot hused]
      simp [hname]

/-- **The events of an argument** are its evaluation, if it goes to a slot, and what is reported of
it while the slots are filled by the arguments before it. -/
lemma argumentEvents_eq (operator : String) (h : FilledBy s args before slots) (ha : a ∈ args) :
    argumentEvents operator s args before a =
      (match (route s (openAfter s args before) a.name).1.slot? with
        | some _ => [.evaluation a.expression]
        | none => []) ++
      (warnings operator slots (route s (openAfter s args before) a.name).1).map .report := by
  rw [argumentEvents]
  cases hname : a.name with
  | some name =>
      cases hslot : s.slot? name with
      | some slot =>
          have hmem : name ∈ s.names := slot?_isSome_iff.mp (by simp [hslot])
          have hfilled := h.filled name slot hslot ⟨a, ha, hname⟩
          by_cases hbefore : ∃ b ∈ before, b.name = some name
          · simp [route, hslot, hmem, Destination.slot?, warnings, repeatWarnings, hbefore,
              hfilled.mpr hbefore]
          · have hempty := mt hfilled.mp hbefore
            simp [route, hslot, hmem, Destination.slot?, warnings, repeatWarnings, hbefore, hempty]
      | none =>
          have hmem : name ∉ s.names := fun h => by simpa [hslot] using slot?_isSome_iff.mpr h
          simp [route, hslot, hmem, Destination.slot?, warnings]
  | none =>
      by_cases hlt : (positionals before).length < (unclaimed s args).length
      · obtain ⟨slot, rest, hopen⟩ := List.exists_cons_of_length_pos
          (l := openAfter s args before) (by rw [openAfter, List.length_drop]; omega)
        simp [hlt, hopen, route, Destination.slot?, warnings]
      · have hopen : openAfter s args before = [] := by
          rw [openAfter, List.drop_eq_nil_iff]
          omega
        simp [hlt, hopen, route, Destination.slot?, warnings]

end Filled

/-! ## Placing is performing events -/

section Placing

variable {s : Signature} {args : List (Argument ε)}

/-- Puts values into slots, one after another. -/
def putAll : List Nat → List Value → Slots → Slots
  | slot :: rest, value :: values, slots => putAll rest values (slots.set slot (some value))
  | _, _, slots => slots

/-- What a binding comes to when the matched arguments of a call have the given values, in the order
of the call. -/
def settled (operator : String) (s : Signature) (args : List (Argument ε)) (values : List Value) :
    Except CallError Bindings :=
  (complete operator s
    (putAll ((placements s (unclaimed s args) args).map Prod.fst) values (emptySlots s))).map
      Bindings.mk

variable {σ : Type} [Sink σ] [Evaluator σ ε]

/-- **Placing performs the events**, from wherever in the call it goes on, and puts the values where
the arguments go. -/
lemma place_eq_performAll (operator : String) (after : List (Argument ε)) :
    ∀ (before : List (Argument ε)) (slots : Slots), args = before ++ after →
      FilledBy s args before slots →
      (place operator (routed s (openAfter s args before) after) slots : Run σ Slots) =
        Event.performAll (traceFrom operator s args before after) >>= fun values =>
          pure (putAll ((placements s (openAfter s args before) after).map Prod.fst) values
            slots) := by
  induction after with
  | nil =>
      intro before slots _ _
      rw [routed_nil, placements_nil]
      simp [place, traceFrom, Event.performAll, putAll]
  | cons a after ih =>
      intro before slots hargs hfilled
      have ha : a ∈ args := by simp [hargs]
      have hrest (v : Value) := ih (before ++ [a]) _ (by simp [hargs]) (hfilled.put (a := a) v)
      rw [traceFrom, argumentEvents_eq operator hfilled ha, routed_cons, placements, routed_cons,
        open_route_openAfter, place_cons]
      generalize (route s (openAfter s args before) a.name).1 = d at hrest ⊢
      simp only [Destination.put] at hrest
      cases hslot : d.slot? with
      | some slot =>
          have hx : (d, a.expression).1.slot? = some slot := hslot
          simp only [hslot] at hrest
          simp only [assignments_cons_of_slot hx, placeOne_of_slot operator slots hx,
            List.cons_append, List.nil_append, Event.performAll, Event.performAll_append,
            Event.performAll_reports, bind_assoc, pure_bind, List.map_cons, putAll, hrest,
            placements]
      | none =>
          have hx : (d, a.expression).1.slot? = none := hslot
          simp only [hslot] at hrest
          simp only [assignments_cons_of_no_slot hx, placeOne_of_no_slot operator slots hx,
            List.nil_append, Event.performAll_append, Event.performAll_reports, bind_assoc,
            pure_bind, hrest .undefined, placements]

lemma bind_eq_performAll (operator : String) (s : Signature) (args : List (Argument ε)) :
    (bind operator s args : Run σ Bindings) =
      Event.performAll (trace operator s args) >>= fun values =>
        MonadExcept.ofExcept (settled operator s args values) := by
  have hplace : (placeAll operator s args : Run σ Slots) =
      Event.performAll (trace operator s args) >>= fun values =>
        pure (putAll ((placements s (unclaimed s args) args).map Prod.fst) values (emptySlots s)) :=
    place_eq_performAll operator args [] (emptySlots s) rfl (filledBy_emptySlots s args)
  rw [bind_eq_placeAll, hplace, bind_assoc]
  refine congrArg _ (funext fun values => ?_)
  rw [pure_bind, settled]

/-- The first evaluation that fails ends the binding, in the state that it left. -/
lemma perform_bind_of_failure {operator : String} {before after : List (Argument ε)}
    {a : Argument ε} (hargs : args = before ++ a :: after) (ha : Matched s args before a)
    {t u w : σ} {values : List Value} {e : CallError}
    (hbefore : (Event.performAll (traceFrom operator s args [] before)).perform t = (.ok values, u))
    (hfail : (Evaluator.evaluate a.expression).perform u = (.error e, w)) :
    (bind operator s args : Run σ Bindings).perform t = (.error e, w) := by
  obtain ⟨warned, hevents⟩ := argumentEvents_of_matched operator ha
  have htrace : trace operator s args = traceFrom operator s args [] before ++
      .evaluation a.expression ::
        (warned ++ traceFrom operator s args (before ++ [a]) after) := by
    rw [trace]
    conv_lhs => rw [hargs, traceFrom_append, ← hargs]
    simp [traceFrom, hevents]
  rw [bind_eq_performAll, htrace, Event.performAll_append, bind_assoc,
    Run.perform_bind_of_ok hbefore, bind_assoc, Event.performAll, bind_assoc,
    Run.perform_bind_of_error hfail]

end Placing

/-! ## Which arguments are evaluated -/

section Evaluated

variable {s : Signature} {args : List (Argument ε)}

lemma matched_of_named {before : List (Argument ε)} {a : Argument ε} {name : String}
    (h : a.name = some name) : Matched s args before a ↔ name ∈ s.names := by
  simp only [Matched, h]

lemma matched_of_positional {before : List (Argument ε)} {a : Argument ε} (h : a.name = none) :
    Matched s args before a ↔ (positionals before).length < (unclaimed s args).length := by
  simp only [Matched, h]

instance (s : Signature) (args before : List (Argument ε)) :
    DecidablePred (Matched s args before) := fun a =>
  match h : a.name with
  | some _ => decidable_of_iff _ (matched_of_named h).symm
  | none => decidable_of_iff _ (matched_of_positional h).symm

/-- The arguments of a call that go to a slot, among those behind the arguments `before`. -/
def matchedFrom (s : Signature) (args : List (Argument ε)) :
    List (Argument ε) → List (Argument ε) → List (Argument ε)
  | _, [] => []
  | before, a :: after =>
    if Matched s args before a then a :: matchedFrom s args (before ++ [a]) after
    else matchedFrom s args (before ++ [a]) after

/-- The arguments of a call that go to a slot. -/
def matched (s : Signature) (args : List (Argument ε)) : List (Argument ε) :=
  matchedFrom s args [] args

lemma matchedFrom_sublist (before after : List (Argument ε)) :
    (matchedFrom s args before after).Sublist after := by
  induction after generalizing before with
  | nil => exact .slnil
  | cons a after ih =>
      rw [matchedFrom]
      split
      · exact (ih _).cons_cons a
      · exact (ih _).cons a

lemma expressions_argumentEvents (operator : String) (before : List (Argument ε))
    (a : Argument ε) :
    (argumentEvents operator s args before a).filterMap Event.expression? =
      if Matched s args before a then [a.expression] else [] := by
  rw [argumentEvents]
  cases hname : a.name with
  | some name =>
      by_cases hmem : name ∈ s.names
      · by_cases hbefore : ∃ b ∈ before, b.name = some name <;>
          simp [matched_of_named hname, hmem, hbefore, Event.expression?]
      · simp [matched_of_named hname, hmem, Event.expression?]
  | none =>
      by_cases hlt : (positionals before).length < (unclaimed s args).length <;>
        simp [matched_of_positional hname, hlt, Event.expression?]

/-- **What is evaluated are the matched arguments**, each once and in the order of the call. -/
lemma expressions_traceFrom (operator : String) (before after : List (Argument ε)) :
    (traceFrom operator s args before after).filterMap Event.expression? =
      (matchedFrom s args before after).map Argument.expression := by
  induction after generalizing before with
  | nil => rfl
  | cons a after ih =>
      rw [traceFrom, List.filterMap_append, expressions_argumentEvents, ih, matchedFrom]
      split <;> rfl

lemma namesakes_cons (a : Argument ε) (args : List (Argument ε)) (name : String) :
    namesakes (a :: args) name =
      if a.name = some name then a :: namesakes args name else namesakes args name := by
  simp [namesakes, List.filter_cons]

/-- Matched are all arguments of a declared name, and none of another name. -/
lemma namesakes_matchedFrom (before after : List (Argument ε)) (name : String) :
    namesakes (matchedFrom s args before after) name =
      if name ∈ s.names then namesakes after name else [] := by
  induction after generalizing before with
  | nil => simp [matchedFrom, namesakes]
  | cons a after ih =>
      rw [matchedFrom, namesakes_cons]
      by_cases hname : a.name = some name
      · by_cases hmem : name ∈ s.names
        · simp [matched_of_named hname, hmem, namesakes_cons, hname, ih]
        · simp [matched_of_named hname, hmem, ih]
      · split <;> simp [namesakes_cons, hname, ih]

/-- Matched are as many of the first positional arguments as slots are left for them. -/
lemma positionals_matchedFrom (before after : List (Argument ε)) :
    positionals (matchedFrom s args before after) =
      (positionals after).take ((unclaimed s args).length - (positionals before).length) := by
  induction after generalizing before with
  | nil => simp [matchedFrom, positionals]
  | cons a after ih =>
      have hrest := ih (before ++ [a])
      rw [length_positionals_append] at hrest
      rw [matchedFrom]
      cases hname : a.name with
      | some name =>
          rw [positionals_cons_named hname]
          split
          · rw [positionals_cons_named hname, hrest]
            simp [hname]
          · rw [hrest]
            simp [hname]
      | none =>
          rw [if_pos hname] at hrest
          rw [positionals_cons_positional hname]
          by_cases hlt : (positionals before).length < (unclaimed s args).length
          · have hleft : (unclaimed s args).length - (positionals before).length =
                (unclaimed s args).length - ((positionals before).length + 1) + 1 := by
              omega
            rw [if_pos ((matched_of_positional hname).mpr hlt), positionals_cons_positional hname,
              hrest, hleft, List.take_succ_cons]
          · have hleft : (unclaimed s args).length - (positionals before).length = 0 := by
              omega
            have hleft' : (unclaimed s args).length - ((positionals before).length + 1) = 0 := by
              omega
            rw [if_neg (mt (matched_of_positional hname).mp hlt), hrest, hleft, hleft',
              List.take_zero, List.take_zero]

end Evaluated

/-! ## What is reported in a context -/

section Reports

variable [Evaluator Context ε]

/-- What events report in a scope: the reports of an evaluation are its own, and nothing is
reported after an evaluation that fails. -/
def Event.reportsOf (scope : Scope) : List (Event ε) → List Diagnostic
  | [] => []
  | evaluation e :: events =>
    (Evaluator.evaluate e : Run Context Value).reports scope ++
      Run.reportsAfter (evaluated scope e) fun _ => reportsOf scope events
  | report d :: events => d :: reportsOf scope events

variable [ScopedEvaluator ε]

lemma Event.performAll_readings (events : List (Event ε)) :
    (performAll events : Run Context (List Value)).Scoped ∧
      ∀ scope, (performAll events : Run Context (List Value)).reports scope =
        reportsOf scope events := by
  induction events with
  | nil => exact ⟨Run.scoped_pure [], fun _ => rfl⟩
  | cons event events ih =>
      cases event with
      | evaluation e =>
          have he := ScopedEvaluator.evaluate_scoped e
          have hlater (value : Value) :
              (performAll events >>= fun values => pure (value :: values) :
                Run Context (List Value)).Scoped :=
            ih.1.bind fun values => Run.scoped_pure _
          refine ⟨he.bind hlater, fun scope => ?_⟩
          have hreports (value : Value) :
              (performAll events >>= fun values => pure (value :: values) :
                Run Context (List Value)).reports scope = reportsOf scope events := by
            rw [Run.reports_bind ih.1 fun values => Run.scoped_pure _, ih.2]
            simp
          rw [performAll, Run.reports_bind he hlater, reportsOf, evaluated]
          simp only [hreports]
      | report d =>
          refine ⟨(Run.scoped_report d).bind fun _ => ih.1, fun scope => ?_⟩
          rw [performAll, Run.reports_bind (Run.scoped_report d) fun _ => ih.1, Run.reports_report,
            Run.outcome_report, Run.reportsAfter_ok, ih.2, reportsOf, List.singleton_append]

lemma perform_bind_snd (operator : String) (s : Signature) (args : List (Argument ε))
    (c : Context) :
    ((bind operator s args).perform c).2 =
      c.extend (Event.reportsOf c.scope (trace operator s args)) := by
  have hevents := Event.performAll_readings (trace operator s args)
  have hsettled (values : List Value) :
      (MonadExcept.ofExcept (settled operator s args values) : Run Context Bindings).Scoped :=
    Run.scoped_ofExcept _
  rw [bind_eq_performAll, (hevents.1.bind hsettled) c, Run.reports_bind hevents.1 hsettled,
    hevents.2]
  simp

end Reports

/-! ## The trace -/

/-- **The trace of a binding.**  In any state and for any expressions, whatever their evaluation
reports and whether it fails, binding performs the events of the call in order and then settles the
slots, of which nothing is seen.  The expressions that are evaluated are those of the matched
arguments, each once and in the order of the call: all arguments of declared names, and as many of
the first positional ones as slots are unclaimed.  When an evaluation fails, the events before it
have been performed, its error is that of the binding, and the state is the one that it left, so
that nothing is evaluated or reported after it and no parameter is missed.  In a context, the
diagnostics that are added are those of the events. -/
theorem bind_trace (operator : String) (s : Signature) (args : List (Argument ε)) :
    (∀ (σ : Type) [Sink σ] [Evaluator σ ε],
      (bind operator s args : Run σ Bindings) =
        Event.performAll (trace operator s args) >>= fun values =>
          MonadExcept.ofExcept (settled operator s args values)) ∧
    ((trace operator s args).filterMap Event.expression? =
        (matched s args).map Argument.expression ∧
      (matched s args).Sublist args ∧
      (∀ name, namesakes (matched s args) name =
        if name ∈ s.names then namesakes args name else []) ∧
      positionals (matched s args) = (positionals args).take (unclaimed s args).length) ∧
    (∀ (σ : Type) [Sink σ] [Evaluator σ ε] (before after : List (Argument ε)) (a : Argument ε),
      args = before ++ a :: after → Matched s args before a →
      ∀ (t u w : σ) (values : List Value) (e : CallError),
        (Event.performAll (traceFrom operator s args [] before)).perform t = (.ok values, u) →
        (Evaluator.evaluate a.expression).perform u = (.error e, w) →
        (bind operator s args : Run σ Bindings).perform t = (.error e, w)) ∧
    ∀ [Evaluator Context ε] [ScopedEvaluator ε] (c : Context),
      ((bind operator s args).perform c).2 =
        c.extend (Event.reportsOf c.scope (trace operator s args)) := by
  refine ⟨fun σ _ _ => bind_eq_performAll operator s args, ⟨?_, ?_, ?_, ?_⟩, ?_, ?_⟩
  · exact expressions_traceFrom operator [] args
  · exact matchedFrom_sublist [] args
  · exact namesakes_matchedFrom [] args
  · exact positionals_matchedFrom [] args
  · intro σ _ _ before after a hargs ha t u w values e hbefore hfail
    exact perform_bind_of_failure hargs ha hbefore hfail
  · intro _ _ c
    exact perform_bind_snd operator s args c

/-- A call in which one name is given twice, a positional argument is surplus, and the argument of a
required parameter fails.  The surplus argument would fail first, but it is not evaluated, and the
last argument is not reported on. -/
theorem bind_trace_of_failing_name :
    (bind "m" [.mandatory "a", .optional "b", .mandatory "c"]
        ([⟨some "b", .expression (.var "x")⟩, ⟨none, .expression (.var "y")⟩,
          ⟨none, .failing "surplus"⟩, ⟨some "b", .expression (.var "z")⟩,
          ⟨some "a", .failing "no value"⟩, ⟨some "d", .failing "unknown"⟩] :
          List (Argument (Fallible Expression)))).perform (Context.ofScope Scope.empty) =
      (.error (.evaluationFailed "no value"), ⟨Scope.empty,
        [.warning "Ignoring unknown variable 'x'", .warning "Ignoring unknown variable 'y'",
          .warning "m(): ignoring extra positional argument",
          .warning "Ignoring unknown variable 'z'",
          .warning "m(): argument 'b' supplied more than once"]⟩) := by
  have hlaw := (bind_trace "m" [.mandatory "a", .optional "b", .mandatory "c"]
    ([⟨some "b", .expression (.var "x")⟩, ⟨none, .expression (.var "y")⟩,
      ⟨none, .failing "surplus"⟩, ⟨some "b", .expression (.var "z")⟩,
      ⟨some "a", .failing "no value"⟩, ⟨some "d", .failing "unknown"⟩] :
      List (Argument (Fallible Expression)))).2.2.1 Context
    [⟨some "b", .expression (.var "x")⟩, ⟨none, .expression (.var "y")⟩,
      ⟨none, .failing "surplus"⟩, ⟨some "b", .expression (.var "z")⟩]
    [⟨some "d", .failing "unknown"⟩] ⟨some "a", .failing "no value"⟩ rfl
    ((matched_of_named rfl).mpr (by decide)) (Context.ofScope Scope.empty)
    ⟨Scope.empty, [.warning "Ignoring unknown variable 'x'",
      .warning "Ignoring unknown variable 'y'",
      .warning "m(): ignoring extra positional argument",
      .warning "Ignoring unknown variable 'z'",
      .warning "m(): argument 'b' supplied more than once"]⟩
  refine hlaw _ [.undefined, .undefined, .undefined] _ ?_ ?_
  · rfl
  · rfl

end SolidOps.Binding
