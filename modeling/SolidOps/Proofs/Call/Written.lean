import SolidOps.Proofs.Binding.Reordering
import SolidOps.Proofs.Call.Stages
import SolidOps.Proofs.Numeric.Integers

/-!
# Settings written as a call

Settings can be written down as the call that asks for them: every parameter by its name, with a
literal for its value.  Making this call gives the settings back, in any order of the arguments and
without a diagnostic.

The two halves are kept apart.  Reading each setting from the value written for it is the business
of `ofBindings_written`; integers survive it because they are numbers exactly and in range, and
level and type are not exchanged because the level is written as a number.  That the values arrive
under the names they are read by is `bind_written`, and since all names are distinct it does not
matter in which order they are given (`Binding.reordering_of_distinct`).

**`Settings.instantiate_written`** puts the halves together.
-/

namespace SolidOps

/-! ## The call of given settings -/

/-- A literal argument with a name. -/
def Argument.literal (name : String) (value : Value) : Argument Expression :=
  ⟨some name, .literal value⟩

namespace Settings

/-- The values of the parameters, in the order of the signature; `typeName` is written for the
subdivision scheme. -/
def values (typeName : String) : Settings → List (String × Value)
  | minkowski c => [("convexity", .number (.ofInt c.toInt))]
  | glide c path => [("path", path), ("convexity", .number (.ofInt c.toInt))]
  | subdivision c level _ =>
    [("level", .number (.ofInt level.toNat)), ("type", .string typeName),
      ("convexity", .number (.ofInt c.toInt))]
  | hull => []
  | resize size auto =>
    [("newsize", .vector (size.toList.map .number)), ("auto", .vector (auto.toList.map .boolean))]

/-- The arguments that ask for settings. -/
def written (typeName : String) (p : Settings) : List (Argument Expression) :=
  (p.values typeName).map fun entry => .literal entry.1 entry.2

/-- A text names the scheme of settings that have one. -/
def Accepts (p : Settings) (typeName : String) : Prop :=
  ∀ c level scheme, p = subdivision c level scheme →
    Scheme.ofName? (lowercase typeName) = some scheme

lemma exists_accepted (p : Settings) : ∃ typeName, p.Accepts typeName := by
  have hname : ∀ scheme : Scheme, ∃ typeName,
      Scheme.ofName? (lowercase typeName) = some scheme := by
    intro scheme
    cases scheme with
    | catmullClark => exact ⟨"catmullclark", by decide⟩
    | loop => exact ⟨"loop", by decide⟩
    | dooSabin => exact ⟨"doosabin", by decide⟩
    | sqrt3 => exact ⟨"sqrt3", by decide⟩
  cases p with
  | subdivision c level scheme =>
      obtain ⟨typeName, htype⟩ := hname scheme
      refine ⟨typeName, ?_⟩
      rintro _ _ _ ⟨⟩
      exact htype
  | _ => exact ⟨"", by rintro _ _ _ ⟨⟩⟩

/-! ## Reading what was written -/

/-- **Settings are read back from the values written for them**, with nothing to report. -/
lemma ofBindings_written {p : Settings} {typeName : String} (h : p.Accepts typeName) :
    ofBindings p.operator ⟨p.values typeName⟩ = (p, []) := by
  have hconvexity : ∀ c : Int32, Resolution.convexity (.number (.ofInt c.toInt)) = c :=
    Binary64.toInt32_ofInt
  cases p with
  | minkowski c => exact congrArg (fun k => (minkowski k, [])) (hconvexity c)
  | glide c path => exact congrArg (fun k => (glide k path, [])) (hconvexity c)
  | subdivision c level scheme =>
      have hlevel : Resolution.level (.number (.ofInt level.toNat)) = (level, []) := by
        have hleast : Binary64.ofInt Defaults.leastLevel.toNat = Binary64.zero := rfl
        simp only [Resolution.level, Value.toNumber, hleast, Binary64.isLess_zero_trunc_ofInt,
          Binary64.toUInt32_trunc_ofInt, if_neg Bool.false_ne_true]
      have hscheme : Resolution.scheme (.string typeName) = (scheme, []) := by
        have hname := h c level scheme rfl
        simp only [Resolution.scheme, Resolution.schemeName, Value.text, hname]
      set b : Bindings := ⟨(subdivision c level scheme).values typeName⟩
      have hb : b.get "level" = .number (.ofInt level.toNat) ∧ b.get "type" = .string typeName ∧
        b.get "convexity" = .number (.ofInt c.toInt) := ⟨rfl, rfl, rfl⟩
      simp only [ofBindings, operator, hb, Resolution.inOrder, hlevel, hscheme, hconvexity,
        List.append_nil]
  | hull => rfl
  | resize size auto => rfl

/-- The values arrive under their names. -/
lemma bind_written (p : Settings) (typeName : String) (scope : Scope) :
    (bind p.operator.keyword p.operator.signature (p.written typeName) :
        Run Context Bindings).outcome scope = .ok ⟨p.values typeName⟩ ∧
      (bind p.operator.keyword p.operator.signature (p.written typeName) :
        Run Context Bindings).reports scope = [] := by
  cases p with
  | minkowski c => exact ⟨rfl, rfl⟩
  | glide c path => exact ⟨rfl, rfl⟩
  | subdivision c level scheme => exact ⟨rfl, rfl⟩
  | hull => exact ⟨rfl, rfl⟩
  | resize size auto => exact ⟨rfl, rfl⟩

/-- Every argument has a name, and no two have the same. -/
lemma written_distinct (p : Settings) (typeName : String) :
    (∀ a ∈ p.written typeName, a.name ≠ none) ∧
      ((p.written typeName).map Argument.name).Nodup := by
  cases p <;> simp [written, values, Argument.literal]

/-- **Settings are fixed points of a call.**  Write settings as a call: every parameter by its name
and as a literal, in any order, integers as numbers and the scheme by any name that stands for it.
In every context and with any children the call succeeds, adds no diagnostic and gives an operation
with exactly these settings.  So a finished operation, written as a call, is built again. -/
theorem instantiate_written :
    (∀ (p : Settings) (typeName : String), p.Accepts typeName →
      ∀ args, args.Perm (p.written typeName) → ∀ (c : Context) (nodes : List Node),
        (instantiate ⟨p.operator.keyword, args, pure nodes⟩).perform c = (.ok ⟨p, nodes⟩, c)) ∧
    ∀ o : Operation, ∃ typeName, o.settings.Accepts typeName ∧
      ∀ args, args.Perm (o.settings.written typeName) → ∀ c : Context,
        (instantiate ⟨o.name, args, pure o.children⟩).perform c = (.ok o, c) := by
  have hfixed : ∀ (p : Settings) (typeName : String), p.Accepts typeName →
      ∀ args, args.Perm (p.written typeName) → ∀ (c : Context) (nodes : List Node),
        (instantiate ⟨p.operator.keyword, args, pure nodes⟩).perform c = (.ok ⟨p, nodes⟩, c) := by
    intro p typeName h args hargs c nodes
    obtain ⟨hnamed, hdistinct⟩ := p.written_distinct typeName
    obtain ⟨houtcome, hreports⟩ := p.bind_written typeName c.scope
    have hsame := Binding.bind_reordering p.operator.keyword (fun e => e.exists_value c.scope)
      (Binding.reordering_of_distinct hargs.symm hnamed hdistinct) p.operator.signature
    have houtcome' := hsame.outcome.symm.trans houtcome
    have hreports' := List.nil_perm.mp (hreports ▸ hsame.reports)
    refine (p.operator.perform_instantiate_keyword args (.ok nodes) c).trans ?_
    simp only [houtcome', hreports', Run.reportsAfter_ok, List.nil_append, Bind.bind, Except.bind,
      Except.map, ofBindings_written h, Context.extend_nil]
  refine ⟨hfixed, fun o => ?_⟩
  obtain ⟨typeName, h⟩ := o.settings.exists_accepted
  exact ⟨typeName, h, fun args hargs c => hfixed o.settings typeName h args hargs c o.children⟩

/-- A call with its arguments the other way round; the scheme is spelled with capitals. -/
theorem instantiate_written_of_spelled_scheme :
    (instantiate ⟨"subdiv", [.literal "convexity" (.number (.ofInt (-2147483648))),
        .literal "type" (.string "Doo Sabin"), .literal "level" (.number (.ofInt 4294967295))],
        pure [.foreign "cube" "cube()"]⟩).perform (Context.ofScope Scope.empty) =
      (.ok ⟨.subdivision Int32.minValue 4294967295 .dooSabin, [.foreign "cube" "cube()"]⟩,
        Context.ofScope Scope.empty) := by
  refine instantiate_written.1 (.subdivision Int32.minValue 4294967295 .dooSabin) "Doo Sabin" ?_
    _ ?_ _ _
  · rintro _ _ _ ⟨⟩
    decide
  · exact List.reverse_perm ((subdivision Int32.minValue 4294967295 .dooSabin).written "Doo Sabin")

end Settings

end SolidOps
