import SolidOps.Proofs.Binding.Naming
import SolidOps.Proofs.Call.Written
import SolidOps.Proofs.Resolution.Subdivision

/-!
# Level and type in either order

A call of `subdiv` may have its level and its type the wrong way round, and there are many ways to
write it: either value by its name or by position, before or after the other, and a convexity among
them or not.

`Binding.Supplies` covers all these ways at once.  Spelled out, so that every argument that goes to
a parameter has its name, a call is to be a list of names with literals in some order.  Spelling out
leaves the binding as it is, and so does changing the order where no name comes twice.  So the
values arrive under their names with nothing reported (`Binding.Supplies.sameButOrder`), whichever
way they were written, and reading the settings sees no more than that.

**`Resolution.level_type_interchangeable`**: a text and a number mean the same in either place.
Any other two values are taken as they stand.
-/

namespace SolidOps

/-! ## Calls that supply values -/

namespace Binding

/-- A call supplies values for parameters: its arguments, each under the name of the parameter it
goes to, are literals for the values, one for each value and in any order. -/
def Supplies (s : Signature) (args : List (Argument Expression))
    (entries : List (String × Value)) : Prop :=
  (spelledOut s args).Perm (entries.map fun entry => .literal entry.1 entry.2)

/-- A call and the call spelled out bind alike. -/
lemma bind_spelledOut {σ ε : Type} [Sink σ] [Evaluator σ ε] (operator : String) {s : Signature}
    (hnodup : s.names.Nodup) (args : List (Argument ε)) :
    (bind operator s (spelledOut s args) : Run σ Bindings) = bind operator s args := by
  have hlt : ∀ i ∈ unclaimed s args, i < s.length := fun i hi => (mem_unclaimed.mp hi).1
  have hfresh := pairwise_fresh_routed (nodup_unclaimed s args) fun a ha i hi =>
    bind_slot?_ne_of_mem_unclaimed hi a ha
  rw [bind_eq_placeAll, bind_eq_placeAll, placeAll, placeAll, unclaimed_spelledOut hnodup,
    spelledOut_eq, routed_spell hnodup args hlt,
    place_spelled s operator hfresh fun x _ slot _ => isFilled_emptySlots s slot]

/-- **Values arrive under their names**, however they are supplied: the call binds as the one that
gives them by name and in order. -/
lemma Supplies.sameButOrder {s : Signature} {args : List (Argument Expression)}
    {entries : List (String × Value)} (h : Supplies s args entries) (operator : String)
    (hnodup : s.names.Nodup) (hdistinct : (entries.map Prod.fst).Nodup) (scope : Scope) :
    (bind operator s args : Run Context Bindings).SameButOrder
      (bind operator s (entries.map fun entry => .literal entry.1 entry.2)) scope := by
  have hnames : (entries.map fun entry => Argument.literal entry.1 entry.2).map Argument.name =
      (entries.map Prod.fst).map some := by
    rw [List.map_map, List.map_map]
    rfl
  have hreordering : Reordering (entries.map fun entry => .literal entry.1 entry.2)
      (spelledOut s args) := by
    refine reordering_of_distinct h.symm ?_ ?_
    · intro a ha
      obtain ⟨entry, -, rfl⟩ := List.mem_map.mp ha
      exact Option.some_ne_none entry.1
    · rw [hnames]
      exact hdistinct.map (Option.some_injective String)
  rw [← bind_spelledOut operator hnodup args]
  exact (bind_reordering operator (fun e => e.exists_value scope) hreordering s).symm

end Binding

/-! ## Calls of `subdiv` -/

namespace Resolution

open Binding (Supplies)

/-- Values under the names of level and type and, when there is one, of the convexity. -/
def levelAndType (v w : Value) (c : Option Value) : List (String × Value) :=
  ("level", v) :: ("type", w) :: (c.map fun u => ("convexity", u)).toList

variable {v w L T : Value} {c : Option Value} {args : List (Argument Expression)}

lemma bind_levelAndType (v w : Value) (c : Option Value) (scope : Scope) :
    let binding : Run Context Bindings := bind "subdiv" Operator.subdivision.signature
      ((levelAndType v w c).map fun entry => .literal entry.1 entry.2)
    binding.outcome scope =
        .ok ⟨[("level", v), ("type", w), ("convexity", c.getD .undefined)]⟩ ∧
      binding.reports scope = [] := by
  cases c <;> exact ⟨rfl, rfl⟩

/-- What a call of `subdiv` comes to, when it is known which value is taken for which. -/
lemma perform_subdiv (h : TakenAs v w L T)
    (hargs : Supplies Operator.subdivision.signature args (levelAndType v w c))
    (children : Run Context (List Node)) (ctx : Context) :
    (instantiate ⟨"subdiv", args, children⟩).perform ctx =
      (children >>= fun nodes => pure ⟨.subdivision (convexity (c.getD .undefined)) (level L).1
        (scheme T).1, nodes⟩).perform (ctx.extend ((level L).2 ++ (scheme T).2)) := by
  have hdistinct : ((levelAndType v w c).map Prod.fst).Nodup := by
    cases c <;> simp [levelAndType]
  have hsame := hargs.sameButOrder "subdiv" (Binding.nodup_names_signature .subdivision) hdistinct
    ctx.scope
  obtain ⟨houtcome, hreports⟩ := bind_levelAndType v w c ctx.scope
  set b : Bindings := ⟨[("level", v), ("type", w), ("convexity", c.getD .undefined)]⟩
  have hsettings : Settings.ofBindings .subdivision b =
      (.subdivision (convexity (c.getD .undefined)) (level L).1 (scheme T).1,
        (level L).2 ++ (scheme T).2) := ofBindings_subdivision (b := b) h
  let site : CallSite Context Expression := ⟨"subdiv", args, children⟩
  have hbound : (site.binding .subdivision).outcome ctx.scope = .ok b :=
    hsame.outcome.trans houtcome
  have hquiet : (site.binding .subdivision).reports ctx.scope = [] :=
    List.perm_nil.mp (hreports ▸ hsame.reports)
  have hread := Operator.perform_evaluate_of_ok site hbound
  rw [hquiet, List.nil_append, hsettings] at hread
  exact (congrArg (fun action => action.perform ctx)
    (instantiate_of_keyword .subdivision args children)).trans hread

/-- **A text and a number may stand for level and type in either order.**

Calls of `subdiv` that supply a text and a number for level and type, and a convexity or none, are
the same action on every context and for all children, whichever of the two is given for the level
and whether they are given by name or by position, in any order: their settings have the level of
the number and the scheme of the text, and what is reported is what reading these two reports.
Nothing else is exchanged: when the level is no text or the type is no number, the level is read
from the one alone and the scheme from the other. -/
theorem level_type_interchangeable :
    (∀ (s : String) (x : Binary64) (c : Option Value) (args : List (Argument Expression)),
      (Supplies Operator.subdivision.signature args (levelAndType (.string s) (.number x) c) ∨
        Supplies Operator.subdivision.signature args (levelAndType (.number x) (.string s) c)) →
      ∀ (children : Run Context (List Node)) (ctx : Context),
        (instantiate ⟨"subdiv", args, children⟩).perform ctx =
          (children >>= fun nodes => pure ⟨.subdivision (convexity (c.getD .undefined))
            (level (.number x)).1 (scheme (.string s)).1, nodes⟩).perform
            (ctx.extend ((level (.number x)).2 ++ (scheme (.string s)).2))) ∧
    ∀ b : Bindings, ((b.get "level").isString = false ∨ (b.get "type").isNumber = false) →
      Settings.ofBindings .subdivision b =
        (.subdivision (convexity (b.get "convexity")) (level (b.get "level")).1
            (scheme (b.get "type")).1,
          (level (b.get "level")).2 ++ (scheme (b.get "type")).2) := by
  constructor
  · intro s x c args hargs children ctx
    rcases hargs with hargs | hargs
    · exact perform_subdiv (.exchanged s x) hargs children ctx
    · have hplace : TakenAs (.number x) (.string s) (.number x) (.string s) :=
        .inPlace fun _ => rfl
      exact perform_subdiv hplace hargs children ctx
  · intro b hother
    refine ofBindings_subdivision (.inPlace fun hstring => ?_)
    rcases hother with hlevel | htype
    · simp [hlevel] at hstring
    · exact htype

/-- A level below zero by the name of the type, and a scheme by position, which has to go to the
level: the warning is that of the level, and the scheme is known. -/
theorem level_type_interchangeable_of_level_by_name :
    (instantiate ⟨"subdiv", [⟨some "type", Expression.literal (.number ⟨0xC008000000000000⟩)⟩,
        ⟨none, Expression.literal (.string "Loop")⟩], pure []⟩).perform
          (Context.ofScope Scope.empty) =
      (.ok ⟨.subdivision 0 0 .loop, []⟩, ⟨Scope.empty, [negativeLevel]⟩) := by
  have hsupplies : Supplies Operator.subdivision.signature
      [⟨some "type", Expression.literal (.number ⟨0xC008000000000000⟩)⟩,
        ⟨none, Expression.literal (.string "Loop")⟩]
      (levelAndType (.string "Loop") (.number ⟨0xC008000000000000⟩) none) := .swap _ _ []
  exact level_type_interchangeable.1 "Loop" ⟨0xC008000000000000⟩ none _ (.inl hsupplies) (pure [])
    (Context.ofScope Scope.empty)

end Resolution

end SolidOps
