import SolidOps.Proofs.Alike
import SolidOps.Proofs.Binding.Steps
import SolidOps.Proofs.Call.Stages

/-!
# Variables replaced by their values

An argument can mention variables, and a call is made in a scope that gives them values.  Writing
the values into the call gives a call that needs the scope no more: it can be made in any scope that
does not happen to know a name that was unknown before.

* `Expression.inline` replaces the variables that a scope knows by literals, at any depth;
  `Argument.inline` does so in an argument.  Variables that the scope does not know stay, since
  they have to be reported.
* `Expression.varNames` lists the variables that occur.

The proof goes up from expressions.  `Expression.evaluate_inline` is the induction on their
structure, and the rest is sequencing: placing the arguments (`Binding.place_map`), binding them and
making the call act alike because the evaluations they are made of do.

That a call depends on its scope through the lookups of its variables alone is not proved again.
Scopes that agree on these variables inline the same call (`Expression.inline_congr`), and what it
does in the empty scope is what the call does in either.
-/

namespace SolidOps

/-! ## Inlining -/

namespace Expression

mutual

/-- The variables that occur in an expression. -/
def varNames : Expression → List String
  | literal _ => []
  | var name => [name]
  | vector items => varNamesOfItems items

/-- The variables that occur in the items of a vector. -/
def varNamesOfItems : List Expression → List String
  | [] => []
  | item :: items => varNames item ++ varNamesOfItems items

end

mutual

/-- The expression with every variable that the scope knows replaced by its value. -/
def inline (scope : Scope) : Expression → Expression
  | literal value => literal value
  | var name =>
    match scope.get? name with
    | some value => literal value
    | none => var name
  | vector items => vector (inlineItems scope items)

/-- The items of a vector, each inlined. -/
def inlineItems (scope : Scope) : List Expression → List Expression
  | [] => []
  | item :: items => inline scope item :: inlineItems scope items

end

variable {S T : Scope}

mutual

/-- **An expression and its inlined form act alike**, where the other scope does not know more. -/
lemma evaluate_inline : ∀ e : Expression,
    (∀ name ∈ varNames e, S.get? name = none → T.get? name = none) →
      (evaluate e).ActsAlike S (evaluate (inline S e)) T
  | .literal value, _ => Run.ActsAlike.pure value S T
  | .var name, h => by
      rw [evaluate, inline]
      cases hname : S.get? name with
      | some value =>
          refine ⟨.ok value, [], fun c hc => ?_, fun d _ => ?_⟩
          · rw [perform_lookUp_of_some (hc ▸ hname), Context.extend_nil]
          · rw [evaluate, Run.perform_pure, Context.extend_nil]
      | none =>
          have hunknown : T.get? name = none := h name (List.mem_singleton_self name) hname
          refine ⟨.ok .undefined, [.warning ("Ignoring unknown variable '" ++ name ++ "'")],
            fun c hc => ?_, fun d hd => ?_⟩
          · exact perform_lookUp_of_none (hc ▸ hname)
          · exact perform_lookUp_of_none (hd ▸ hunknown)
  | .vector items, h => by
      rw [evaluate, inline, evaluate]
      exact (evaluateItems_inlineItems items h).bind fun values => Run.ActsAlike.pure _ S T

lemma evaluateItems_inlineItems : ∀ items : List Expression,
    (∀ name ∈ varNamesOfItems items, S.get? name = none → T.get? name = none) →
      (evaluateItems items).ActsAlike S (evaluateItems (inlineItems S items)) T
  | [], _ => Run.ActsAlike.pure [] S T
  | item :: items, h => by
      have hitem := evaluate_inline item fun name hname =>
        h name (List.mem_append_left _ hname)
      have hitems := evaluateItems_inlineItems items fun name hname =>
        h name (List.mem_append_right _ hname)
      rw [evaluateItems, inlineItems, evaluateItems]
      exact hitem.bind fun value => hitems.bind fun values => Run.ActsAlike.pure _ S T

end

mutual

/-- What is inlined depends on the values of the variables that occur. -/
lemma inline_congr : ∀ e : Expression,
    (∀ name ∈ varNames e, S.get? name = T.get? name) → inline S e = inline T e
  | .literal _, _ => rfl
  | .var name, h => by rw [inline, inline, h name (List.mem_singleton_self name)]
  | .vector items, h => by rw [inline, inline, inlineItems_congr items h]

lemma inlineItems_congr : ∀ items : List Expression,
    (∀ name ∈ varNamesOfItems items, S.get? name = T.get? name) →
      inlineItems S items = inlineItems T items
  | [], _ => rfl
  | item :: items, h => by
      rw [inlineItems, inlineItems, inline_congr item fun name hname =>
          h name (List.mem_append_left _ hname),
        inlineItems_congr items fun name hname => h name (List.mem_append_right _ hname)]

end

end Expression

namespace Fallible

/-- The variables that occur in an expression that may fail. -/
def varNames : Fallible Expression → List String
  | expression e => e.varNames
  | failing _ => []

/-- The inlined form of an expression that may fail; a failure is as it was. -/
def inline (scope : Scope) : Fallible Expression → Fallible Expression
  | expression e => expression (e.inline scope)
  | failing reason => failing reason

variable {S T : Scope}

lemma evaluate_inline (e : Fallible Expression)
    (h : ∀ name ∈ e.varNames, S.get? name = none → T.get? name = none) :
    (Evaluator.evaluate e : Run Context Value).ActsAlike S (Evaluator.evaluate (e.inline S)) T := by
  cases e with
  | expression e => exact e.evaluate_inline h
  | failing reason => exact Run.ActsAlike.throw _ S T

lemma inline_congr (e : Fallible Expression)
    (h : ∀ name ∈ e.varNames, S.get? name = T.get? name) : e.inline S = e.inline T := by
  cases e with
  | expression e => exact congrArg expression (e.inline_congr h)
  | failing reason => rfl

end Fallible

/-- The argument with its expression inlined. -/
def Argument.inline (scope : Scope) (a : Argument (Fallible Expression)) :
    Argument (Fallible Expression) :=
  ⟨a.name, a.expression.inline scope⟩

/-- The variables that occur in the arguments of a call. -/
def Argument.varNames (args : List (Argument (Fallible Expression))) : List String :=
  args.flatMap fun a => a.expression.varNames

/-! ## Binding -/

namespace Binding

section Placing

variable {ε : Type} [Evaluator Context ε] {S T : Scope} {f : ε → ε}

lemma placeOne_map (operator : String) (slots : Slots) (x : Destination × ε)
    (h : (Evaluator.evaluate x.2 : Run Context Value).ActsAlike S (Evaluator.evaluate (f x.2)) T) :
    (placeOne operator slots x : Run Context Slots).ActsAlike S
      (placeOne operator slots (x.1, f x.2)) T := by
  cases hslot : x.1.slot? with
  | some slot =>
      rw [placeOne_of_slot operator slots hslot,
        placeOne_of_slot (x := (x.1, f x.2)) operator slots hslot]
      exact h.bind fun value => (Run.ActsAlike.reportAll _ S T).bind fun _ =>
        Run.ActsAlike.pure _ S T
  | none =>
      rw [placeOne_of_no_slot operator slots hslot,
        placeOne_of_no_slot (x := (x.1, f x.2)) operator slots hslot]
      exact (Run.ActsAlike.reportAll _ S T).bind fun _ => Run.ActsAlike.pure _ S T

/-- Placing acts alike when every evaluation does. -/
lemma place_map (operator : String) (routed : List (Destination × ε))
    (h : ∀ x ∈ routed,
      (Evaluator.evaluate x.2 : Run Context Value).ActsAlike S (Evaluator.evaluate (f x.2)) T)
    (slots : Slots) :
    (place operator routed slots : Run Context Slots).ActsAlike S
      (place operator (routed.map (Prod.map id f)) slots) T := by
  induction routed generalizing slots with
  | nil => exact Run.ActsAlike.pure slots S T
  | cons x rest ih =>
      rw [List.forall_mem_cons] at h
      rw [List.map_cons, place_cons, place_cons]
      exact (placeOne_map operator slots x h.1).bind fun slots' => ih h.2 slots'

end Placing

variable {S T : Scope} {args : List (Argument (Fallible Expression))}

/-- **Binding acts alike on inlined arguments.** -/
lemma bind_inline (operator : String) (s : Signature)
    (h : ∀ name ∈ Argument.varNames args, S.get? name = none → T.get? name = none) :
    (bind operator s args : Run Context Bindings).ActsAlike S
      (bind operator s (args.map (Argument.inline S))) T := by
  have hnames : (args.map (Argument.inline S)).map Argument.name = args.map Argument.name := by
    rw [List.map_map]
    rfl
  have hexpressions : (args.map (Argument.inline S)).map Argument.expression =
      (args.map Argument.expression).map (Fallible.inline S) := by
    rw [List.map_map, List.map_map]
    rfl
  have hrouted : (destinations s (args.map Argument.name)).zip
      ((args.map Argument.expression).map (Fallible.inline S)) =
      ((destinations s (args.map Argument.name)).zip (args.map Argument.expression)).map
        (Prod.map id (Fallible.inline S)) := List.zip_map_right
  rw [bind, bind, hnames, hexpressions, hrouted]
  refine (place_map (f := Fallible.inline S) operator _ (fun x hx => ?_) _).bind fun slots => ?_
  · obtain ⟨a, ha, hexpression⟩ := List.mem_map.mp (List.of_mem_zip hx).2
    refine Fallible.evaluate_inline x.2 fun name hname => h name ?_
    exact List.mem_flatMap.mpr ⟨a, ha, hexpression ▸ hname⟩
  · cases complete operator s slots with
    | ok entries => exact Run.ActsAlike.pure _ S T
    | error e => exact Run.ActsAlike.throw e S T

end Binding

/-! ## Calls -/

section Calls

variable {S T : Scope} {args : List (Argument (Fallible Expression))}

lemma instantiate_inline (name : String) (children : Except CallError (List Node))
    (h : ∀ name ∈ Argument.varNames args, S.get? name = none → T.get? name = none) :
    (instantiate ⟨name, args, MonadExcept.ofExcept children⟩).ActsAlike S
      (instantiate ⟨name, args.map (Argument.inline S), MonadExcept.ofExcept children⟩) T := by
  simp only [instantiate]
  cases KeywordTable.builtin.lookup? name with
  | none => exact Run.ActsAlike.throw _ S T
  | some op =>
      exact (Binding.bind_inline op.keyword op.signature h).bind fun b =>
        (Run.ActsAlike.reportAll (Settings.ofBindings op b).2 S T).bind fun _ =>
          (Run.ActsAlike.ofExcept children S T).bind fun nodes => Run.ActsAlike.pure _ S T

/-! ## Scopes that agree

Nothing is known in the empty scope, so whatever has been inlined can be performed there. -/

/-- Where two scopes inline an action to the same, it acts alike in both. -/
lemma Run.ActsAlike.of_inlined {α : Type} {x : Run Context α} {inlined : Scope → Run Context α}
    (hinline : ∀ U, x.ActsAlike U (inlined U) Scope.empty) (h : inlined S = inlined T) :
    x.ActsAlike S x T := by
  have hS := hinline S
  rw [h] at hS
  exact hS.trans (hinline T).symm

lemma Fallible.evaluate_of_agree (e : Fallible Expression)
    (h : ∀ name ∈ e.varNames, S.get? name = T.get? name) :
    (Evaluator.evaluate e : Run Context Value).ActsAlike S (Evaluator.evaluate e) T :=
  .of_inlined (fun _ => e.evaluate_inline fun _ _ _ => rfl)
    (congrArg Evaluator.evaluate (e.inline_congr h))

lemma Argument.map_inline_congr
    (h : ∀ name ∈ Argument.varNames args, S.get? name = T.get? name) :
    args.map (Argument.inline S) = args.map (Argument.inline T) := by
  refine List.map_congr_left fun a ha => ?_
  have hexpression : a.expression.inline S = a.expression.inline T :=
    a.expression.inline_congr fun name hname => h name (List.mem_flatMap.mpr ⟨a, ha, hname⟩)
  rw [Argument.inline, Argument.inline, hexpression]

lemma Binding.bind_of_agree (operator : String) (s : Signature)
    (h : ∀ name ∈ Argument.varNames args, S.get? name = T.get? name) :
    (bind operator s args : Run Context Bindings).ActsAlike S (bind operator s args) T :=
  .of_inlined (fun _ => bind_inline operator s fun _ _ _ => rfl)
    (congrArg (bind operator s) (Argument.map_inline_congr h))

lemma instantiate_of_agree (name : String) (children : Except CallError (List Node))
    (h : ∀ name ∈ Argument.varNames args, S.get? name = T.get? name) :
    (instantiate ⟨name, args, MonadExcept.ofExcept children⟩).ActsAlike S
      (instantiate ⟨name, args, MonadExcept.ofExcept children⟩) T := by
  refine .of_inlined (fun _ => instantiate_inline name children fun _ _ _ => rfl) ?_
  rw [Argument.map_inline_congr h]

end Calls

/-- **Inlining variables preserves a call.**

Replace in the arguments of a call every variable that the scope knows by its value.  The call in
this scope and the inlined call in any scope that knows none of the variables left have the same
outcome and add the same diagnostics in the same order.  So a call does the same in two scopes that
agree on the variables of its arguments. -/
theorem inlining_immaterial (name : String) (args : List (Argument (Fallible Expression)))
    (children : Except CallError (List Node)) (c d : Context) :
    ((∀ x ∈ Argument.varNames args, c.scope.get? x = none → d.scope.get? x = none) →
      ∃ result reports,
        (instantiate ⟨name, args, MonadExcept.ofExcept children⟩).perform c =
          (result, c.extend reports) ∧
        (instantiate ⟨name, args.map (Argument.inline c.scope),
          MonadExcept.ofExcept children⟩).perform d = (result, d.extend reports)) ∧
    ((∀ x ∈ Argument.varNames args, c.scope.get? x = d.scope.get? x) →
      ∃ result reports,
        (instantiate ⟨name, args, MonadExcept.ofExcept children⟩).perform c =
          (result, c.extend reports) ∧
        (instantiate ⟨name, args, MonadExcept.ofExcept children⟩).perform d =
          (result, d.extend reports)) := by
  constructor
  · intro h
    obtain ⟨result, reports, hc, hd⟩ := instantiate_inline name children h
    exact ⟨result, reports, hc c rfl, hd d rfl⟩
  · intro h
    obtain ⟨result, reports, hc, hd⟩ := instantiate_of_agree name children h
    exact ⟨result, reports, hc c rfl, hd d rfl⟩

/-- A name that is shadowed, one that is unknown, inside a vector, and an argument that is never
evaluated.  The inlined call is made where the shadowed name means something else, and the call
itself once more where nothing shadows it: the path is the same every time. -/
theorem inlining_immaterial_of_shadowed_name :
    (instantiate ⟨"glide", ([⟨none, .expression (.vector [.var "n", .var "lost"])⟩,
        ⟨some "convexity", .expression (.var "n")⟩, ⟨some "speed", .failing "unused"⟩] :
        List (Argument (Fallible Expression))), MonadExcept.ofExcept (.ok [])⟩).perform
      (Context.ofScope (.ofLevels [[("n", .boolean true)], [("n", .string "inner")]])) =
        (.ok ⟨.glide 0 (.vector [.string "inner", .undefined]), []⟩,
          ⟨.ofLevels [[("n", .boolean true)], [("n", .string "inner")]],
            [.warning "Ignoring unknown variable 'lost'",
              .warning "glide(): ignoring unknown argument 'speed'"]⟩) ∧
    (instantiate ⟨"glide",
        ([⟨none, .expression (.vector [.literal (.string "inner"), .var "lost"])⟩,
          ⟨some "convexity", .expression (.literal (.string "inner"))⟩,
          ⟨some "speed", .failing "unused"⟩] : List (Argument (Fallible Expression))),
        MonadExcept.ofExcept (.ok [])⟩).perform
      (Context.ofScope (.ofLevels [[("n", .undefined)]])) =
        (.ok ⟨.glide 0 (.vector [.string "inner", .undefined]), []⟩,
          ⟨.ofLevels [[("n", .undefined)]],
            [.warning "Ignoring unknown variable 'lost'",
              .warning "glide(): ignoring unknown argument 'speed'"]⟩) ∧
    (instantiate ⟨"glide", ([⟨none, .expression (.vector [.var "n", .var "lost"])⟩,
        ⟨some "convexity", .expression (.var "n")⟩, ⟨some "speed", .failing "unused"⟩] :
        List (Argument (Fallible Expression))), MonadExcept.ofExcept (.ok [])⟩).perform
      (Context.ofScope (.ofLevels [[("n", .string "inner"), ("speed", .undefined)]])) =
        (.ok ⟨.glide 0 (.vector [.string "inner", .undefined]), []⟩,
          ⟨.ofLevels [[("n", .string "inner"), ("speed", .undefined)]],
            [.warning "Ignoring unknown variable 'lost'",
              .warning "glide(): ignoring unknown argument 'speed'"]⟩) := by
  obtain ⟨result, reports, hc, hd⟩ := (inlining_immaterial "glide"
    [⟨none, .expression (.vector [.var "n", .var "lost"])⟩,
      ⟨some "convexity", .expression (.var "n")⟩, ⟨some "speed", .failing "unused"⟩] (.ok [])
    (Context.ofScope (.ofLevels [[("n", .boolean true)], [("n", .string "inner")]]))
    (Context.ofScope (.ofLevels [[("n", .undefined)]]))).1 (by
      intro x hx hunknown
      fin_cases hx
      · cases hunknown
      · rfl
      · cases hunknown)
  obtain ⟨result', reports', hc', hd'⟩ := (inlining_immaterial "glide"
    [⟨none, .expression (.vector [.var "n", .var "lost"])⟩,
      ⟨some "convexity", .expression (.var "n")⟩, ⟨some "speed", .failing "unused"⟩] (.ok [])
    (Context.ofScope (.ofLevels [[("n", .boolean true)], [("n", .string "inner")]]))
    (Context.ofScope (.ofLevels [[("n", .string "inner"), ("speed", .undefined)]]))).2 (by
      intro x hx
      fin_cases hx <;> rfl)
  have hconvexity : Resolution.convexity (.string "inner") = 0 := by decide +kernel
  have hresult : result = .ok ⟨.glide (Resolution.convexity (.string "inner"))
      (.vector [.string "inner", .undefined]), []⟩ := (congrArg Prod.fst hc).symm
  have hreports : reports = [.warning "Ignoring unknown variable 'lost'",
      .warning "glide(): ignoring unknown argument 'speed'"] :=
    (congrArg (fun r => r.2.diagnostics) hc).symm
  -- Both runs start with the same call in the same context.
  obtain ⟨rfl, hextend⟩ := Prod.mk.inj (hc.symm.trans hc')
  obtain rfl : reports = reports' := congrArg Context.diagnostics hextend
  rw [hresult, hreports, hconvexity] at hc hd hd'
  exact ⟨hc, hd, hd'⟩

end SolidOps
