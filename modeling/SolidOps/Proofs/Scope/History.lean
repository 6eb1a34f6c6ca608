import Mathlib
import SolidOps.Scope

/-!
# What a scope remembers

A scope is built by opening levels, closing levels and defining variables.  This file says what it
knows in terms of that history alone, with no mention of how levels are kept.

* `Scope.Change` is one change and `Scope.after` what a list of changes leaves.
* `Scope.NeverBelow`: at no moment have the changes closed more levels than they opened, so they
  leave every level alone that was open before them.
* `Scope.stillOpen` counts the levels that a history opened and did not close again: after opening
  them, it never went below.
* `Scope.Lasts`: the level that is innermost at some moment of a history is still open at its end.
  The global level always is.
* `Scope.IsLatest`: a definition lasts, and no later definition of the name does.
* `Scope.Balanced`: what stands between the opening of a level and the closing of it.

**`Scope.lexical_law`** is the law of lexical scope: a name has the value of its latest definition
that lasts, and a block that is opened and closed again changes nothing for any name.

The inductions are over the changes for an arbitrary scope to start from.  What they have to say of
the levels below is one number, `Scope.fall`: how many of them the changes close, if there are so
many.  A definition in one of those is lost, and `get?_after_of_none_lasts` says that if nothing
else is defined, what is left to read are the levels below the fall.
-/

namespace SolidOps.Scope

/-- A change of a scope. -/
inductive Change
  | openLevel
  | closeLevel
  | define (name : String) (value : Value)

namespace Change

/-- Makes a change. -/
def apply : Change → Scope → Scope
  | openLevel, s => s.push
  | closeLevel, s => s.pop
  | define name value, s => s.define name value

def isOpening : Change → Bool
  | openLevel => true
  | _ => false

def isClosing : Change → Bool
  | closeLevel => true
  | _ => false

@[simp] lemma isOpening_openLevel : openLevel.isOpening = true := rfl

@[simp] lemma isOpening_closeLevel : closeLevel.isOpening = false := rfl

@[simp] lemma isOpening_define (name : String) (value : Value) :
    (define name value).isOpening = false := rfl

@[simp] lemma isClosing_openLevel : openLevel.isClosing = false := rfl

@[simp] lemma isClosing_closeLevel : closeLevel.isClosing = true := rfl

@[simp] lemma isClosing_define (name : String) (value : Value) :
    (define name value).isClosing = false := rfl

end Change

/-- Makes several changes in order. -/
def after (s : Scope) (changes : List Change) : Scope := changes.foldl (fun t x => x.apply t) s

@[simp] lemma after_nil (s : Scope) : s.after [] = s := rfl

@[simp] lemma after_cons (s : Scope) (x : Change) (changes : List Change) :
    s.after (x :: changes) = (x.apply s).after changes := rfl

lemma after_append (s : Scope) (xs ys : List Change) : s.after (xs ++ ys) = (s.after xs).after ys :=
  List.foldl_append

/-! ## Levels in a history -/

/-- At no moment have more levels been closed than opened. -/
def NeverBelow (changes : List Change) : Prop :=
  ∀ part, part <+: changes → part.countP Change.isClosing ≤ part.countP Change.isOpening

/-- The number of levels below the start that are closed, if there are so many. -/
def fall : List Change → Nat
  | [] => 0
  | .openLevel :: later => fall later - 1
  | .closeLevel :: later => fall later + 1
  | .define _ _ :: later => fall later

/-- The fall is the greatest excess of closed levels over opened ones. -/
lemma fall_le_iff (changes : List Change) (n : Nat) :
    fall changes ≤ n ↔ ∀ part, part <+: changes →
      part.countP Change.isClosing ≤ part.countP Change.isOpening + n := by
  induction changes generalizing n with
  | nil => simp [fall]
  | cons x later ih =>
      have hcons : (∀ part, part <+: x :: later →
          part.countP Change.isClosing ≤ part.countP Change.isOpening + n) ↔
          ∀ part, part <+: later →
            (x :: part).countP Change.isClosing ≤ (x :: part).countP Change.isOpening + n := by
        constructor
        · intro h part hpart
          exact h _ (List.cons_prefix_cons.mpr ⟨rfl, hpart⟩)
        · intro h part hpart
          rcases List.prefix_cons_iff.mp hpart with rfl | ⟨rest, rfl, hrest⟩
          · simp
          · exact h rest hrest
      rw [hcons]
      cases x with
      | openLevel =>
          rw [fall, Nat.sub_le_iff_le_add, ih]
          simp [List.countP_cons, Nat.add_right_comm, Nat.add_assoc]
      | closeLevel =>
          cases n with
          | zero =>
              refine iff_of_false (Nat.not_succ_le_zero _) fun h => ?_
              simpa using h [] List.nil_prefix
          | succ n =>
              rw [fall, Nat.add_le_add_iff_right, ih]
              simp [List.countP_cons, ← Nat.add_assoc]
      | define name value =>
          rw [fall, ih]
          simp

lemma neverBelow_iff {changes : List Change} : NeverBelow changes ↔ fall changes = 0 := by
  rw [← Nat.le_zero, fall_le_iff]
  rfl

instance (changes : List Change) : Decidable (NeverBelow changes) :=
  decidable_of_iff _ neverBelow_iff.symm

/-- The number of levels that were opened and are still open. -/
def stillOpen : List Change → Nat
  | [] => 0
  | .openLevel :: later => stillOpen later + if NeverBelow later then 1 else 0
  | _ :: later => stillOpen later

/-- The level that is innermost after `before` is still open after `later`; the global one is, as
it is never closed. -/
def Lasts (before later : List Change) : Prop := stillOpen before = 0 ∨ NeverBelow later

/-- A definition lasts that was made after `before`, and no later one of the name does. -/
structure IsLatest (before : List Change) (name : String) (value : Value) (later : List Change) :
    Prop where
  lasts : Lasts before later
  others : ∀ mid other rest, later = mid ++ Change.define name other :: rest →
    ¬Lasts (before ++ Change.define name value :: mid) rest

/-- The changes never go below the level they start from and end on it. -/
structure Balanced (changes : List Change) : Prop where
  neverBelow : NeverBelow changes
  closings : changes.countP Change.isClosing = changes.countP Change.isOpening

/-! ## Depth -/

lemma length_opened_after (s : Scope) (changes : List Change) :
    (s.after changes).opened.length = s.opened.length - fall changes + stillOpen changes := by
  induction changes generalizing s with
  | nil => simp [fall, stillOpen]
  | cons x later ih =>
      rw [after_cons, ih]
      cases x with
      | openLevel =>
          simp only [Change.apply, push, List.length_cons, fall, stillOpen, neverBelow_iff]
          split_ifs with h <;> omega
      | closeLevel =>
          simp only [Change.apply, pop, List.length_tail, fall, stillOpen]
          omega
      | define name value =>
          have hlength : (s.define name value).opened.length = s.opened.length := by
            rw [define]
            cases s.opened <;> simp
          simp only [Change.apply, hlength, fall, stillOpen]

lemma length_opened_after_empty (changes : List Change) :
    (empty.after changes).opened.length = stillOpen changes := by
  simp [length_opened_after, empty]

lemma lasts_iff {before later : List Change} :
    Lasts before later ↔ (empty.after before).opened = [] ∨ NeverBelow later := by
  rw [Lasts, ← length_opened_after_empty, List.length_eq_zero_iff]

/-! ## Reading a name -/

/-- The scope without some of its innermost levels. -/
def lower (s : Scope) (n : Nat) : Scope := { s with opened := s.opened.drop n }

@[simp] lemma lower_zero (s : Scope) : s.lower 0 = s := rfl

lemma lower_pop (s : Scope) (n : Nat) : s.pop.lower n = s.lower (n + 1) := by
  simp [lower, pop, List.drop_tail]

/-- A level without definitions hides nothing. -/
lemma get?_lower_push (s : Scope) (n : Nat) (name : String) :
    (s.push.lower n).get? name = (s.lower (n - 1)).get? name := by
  cases n <;> rfl

lemma get?_define_self (s : Scope) (name : String) (value : Value) :
    (s.define name value).get? name = some value := by
  rw [define]
  cases s.opened with
  | nil => simp [get?, levels]
  | cons level outer => simp [get?, levels]

lemma get?_lower_define_of_ne (s : Scope) {name other : String} (h : other ≠ name) (value : Value)
    (n : Nat) : ((s.define other value).lower n).get? name = (s.lower n).get? name := by
  have hlookup : ∀ level : Level, ((other, value) :: level).lookup name = level.lookup name := by
    intro level
    rw [List.lookup_cons, beq_false_of_ne h.symm]
  rw [define]
  cases hopened : s.opened with
  | nil => simp [get?, levels, lower, hopened, hlookup]
  | cons level outer =>
      cases n with
      | zero => simp only [get?, levels, lower, hopened, List.drop_zero, List.cons_append,
          List.findSome?_cons, hlookup]
      | succ n => simp [get?, levels, lower, hopened]

/-- A definition goes with its level. -/
lemma lower_define (s : Scope) (hopened : s.opened ≠ []) (name : String) (value : Value)
    {n : Nat} (hn : n ≠ 0) : (s.define name value).lower n = s.lower n := by
  obtain ⟨level, outer, hs⟩ := List.exists_cons_of_ne_nil hopened
  obtain ⟨m, rfl⟩ := Nat.exists_eq_succ_of_ne_zero hn
  simp [define, lower, hs]

/-- **Definitions that do not last leave what is below the fall.** -/
lemma get?_after_of_none_lasts {s : Scope} {changes : List Change} {name : String}
    (h : ∀ mid value later, changes = mid ++ Change.define name value :: later →
      (s.after mid).opened ≠ [] ∧ ¬NeverBelow later) :
    (s.after changes).get? name = (s.lower (fall changes)).get? name := by
  induction changes generalizing s with
  | nil => rfl
  | cons x later ih =>
      have hlater : ((x.apply s).after later).get? name =
          ((x.apply s).lower (fall later)).get? name := by
        refine ih fun mid value rest hrest => ?_
        exact h (x :: mid) value rest (by rw [hrest, List.cons_append])
      rw [after_cons, hlater]
      cases x with
      | openLevel => exact get?_lower_push s (fall later) name
      | closeLevel => exact congrArg (get? · name) (lower_pop s (fall later))
      | define other value =>
          by_cases hname : other = name
          · subst hname
            obtain ⟨hopened, hbelow⟩ := h [] value later rfl
            rw [neverBelow_iff] at hbelow
            exact congrArg (get? · other) (lower_define s hopened other value hbelow)
          · exact get?_lower_define_of_ne s hname value (fall later)

/-- **The latest definition of a name that lasts is read.** -/
lemma get?_after_define {before later : List Change} {name : String} {value : Value}
    (h : IsLatest before name value later) :
    (empty.after (before ++ Change.define name value :: later)).get? name = some value := by
  set s := empty.after before with hs
  have hlater : ((s.define name value).after later).get? name =
      ((s.define name value).lower (fall later)).get? name := by
    refine get?_after_of_none_lasts fun mid other rest hrest => ?_
    have hnot := h.others mid other rest hrest
    rwa [lasts_iff, after_append, not_or] at hnot
  rw [after_append]
  refine hlater.trans ?_
  rcases lasts_iff.mp h.lasts with hglobal | hbelow
  · -- the definition is one of the global level, which is below every fall
    have hlower : (s.define name value).lower (fall later) = s.define name value := by
      simp [define, lower, hs, hglobal]
    rw [hlower, get?_define_self]
  · rw [neverBelow_iff.mp hbelow, lower_zero, get?_define_self]

/-- A name without a definition that lasts is not known. -/
lemma get?_after_eq_none {changes : List Change} {name : String}
    (h : ∀ before value later, changes = before ++ Change.define name value :: later →
      ¬Lasts before later) : (empty.after changes).get? name = none := by
  refine (get?_after_of_none_lasts fun mid value later hchanges => ?_).trans ?_
  · have hnot := h mid value later hchanges
    rwa [lasts_iff, not_or] at hnot
  · simp [get?, levels, lower, empty]

/-- If a definition of a name lasts, there is a latest one that does. -/
lemma exists_isLatest {changes before later : List Change} {name : String} {value : Value}
    (hchanges : changes = before ++ Change.define name value :: later)
    (hlasts : Lasts before later) :
    ∃ before value later, changes = before ++ Change.define name value :: later ∧
      IsLatest before name value later := by
  induction hn : later.length using Nat.strong_induction_on generalizing before value later with
  | _ n ih =>
      by_cases hlatest : ∀ mid other rest, later = mid ++ Change.define name other :: rest →
          ¬Lasts (before ++ Change.define name value :: mid) rest
      · exact ⟨before, value, later, hchanges, hlasts, hlatest⟩
      · push Not at hlatest
        obtain ⟨mid, other, rest, hrest, hrestLasts⟩ := hlatest
        have hsplit : changes =
            (before ++ Change.define name value :: mid) ++ Change.define name other :: rest := by
          rw [hchanges, hrest, List.append_assoc, List.cons_append]
        have hshorter : rest.length < n := by
          rw [← hn, hrest, List.length_append, List.length_cons]
          omega
        exact ih rest.length hshorter hsplit hrestLasts rfl

/-- A name is unknown, or it has a latest definition. -/
lemma none_lasts_or_exists_isLatest (changes : List Change) (name : String) :
    (∀ before value later, changes = before ++ Change.define name value :: later →
      ¬Lasts before later) ∨
    ∃ before value later, changes = before ++ Change.define name value :: later ∧
      IsLatest before name value later := by
  by_cases h : ∀ before value later, changes = before ++ Change.define name value :: later →
      ¬Lasts before later
  · exact .inl h
  · push Not at h
    obtain ⟨before, value, later, hchanges, hlasts⟩ := h
    exact .inr (exists_isLatest hchanges hlasts)

/-! ## Blocks -/

/-- A block opens a level, does not go below it, and closes it. -/
lemma neverBelow_block {inner : List Change} (h : Balanced inner) :
    NeverBelow (Change.openLevel :: (inner ++ [Change.closeLevel])) := by
  intro part hpart
  rcases List.prefix_cons_iff.mp hpart with rfl | ⟨rest, rfl, hrest⟩
  · simp
  · rcases List.prefix_concat_iff.mp hrest with rfl | hrest
    · simp [List.countP_cons, h.closings]
    · have hle := h.neverBelow rest hrest
      simp only [List.countP_cons, Change.isOpening_openLevel, Change.isClosing_openLevel]
      exact hle.trans (Nat.le_succ _)

/-- Inside a block, there is a level above the one that the block started from. -/
lemma opened_after_openLevel_ne_nil (s : Scope) {mid : List Change} (h : NeverBelow mid) :
    (s.after (Change.openLevel :: mid)).opened ≠ [] := by
  refine List.ne_nil_of_length_pos ?_
  rw [length_opened_after, stillOpen, if_pos h]
  exact Nat.lt_of_lt_of_le (Nat.succ_pos _) (Nat.le_add_left _ _)

/-- From the inside of a block to its end, one level more is closed than opened. -/
lemma not_neverBelow_of_balanced {mid later : List Change} {name : String} {value : Value}
    (h : Balanced (mid ++ Change.define name value :: later)) :
    ¬NeverBelow (later ++ [Change.closeLevel]) := by
  intro hlater
  have hstart := h.neverBelow mid (List.prefix_append _ _)
  have hend := hlater _ List.prefix_rfl
  have hwhole := h.closings
  simp only [List.countP_append, List.countP_cons, List.countP_nil, Change.isOpening_define,
    Change.isClosing_define, Change.isOpening_closeLevel, Change.isClosing_closeLevel,
    Bool.false_eq_true, ↓reduceIte] at hwhole hend
  omega

/-- **What is defined in a block is gone when the block is closed.** -/
lemma get?_after_block (s : Scope) {inner : List Change} (h : Balanced inner) (name : String) :
    (s.after (Change.openLevel :: (inner ++ [Change.closeLevel]))).get? name = s.get? name := by
  have hfall := neverBelow_iff.mp (neverBelow_block h)
  refine (get?_after_of_none_lasts fun mid value later hblock => ?_).trans ?_
  · -- a definition in the block is neither its first change nor its last
    rcases mid with _ | ⟨x, mid⟩
    · cases hblock
    obtain ⟨rfl, hinner⟩ : Change.openLevel = x ∧ inner ++ [Change.closeLevel] =
      mid ++ Change.define name value :: later := List.cons.inj hblock
    rcases List.eq_nil_or_concat' later with rfl | ⟨later, y, rfl⟩
    · cases (List.append_inj' hinner rfl).2
    rw [← List.cons_append, ← List.append_assoc] at hinner
    obtain ⟨rfl, hlast⟩ := List.append_inj' hinner rfl
    obtain rfl := List.singleton_inj.mp hlast
    have hmid : NeverBelow mid := fun part hpart =>
      h.neverBelow part (hpart.trans (List.prefix_append _ _))
    exact ⟨opened_after_openLevel_ne_nil s hmid, not_neverBelow_of_balanced h⟩
  · rw [hfall, lower_zero]

/-! ## The law -/

/-- **The law of lexical scope.**

After any history of a new scope, the number of levels is one more than the number of those opened
and still open.  A name has the value of the latest of its definitions whose level is still open,
and it is not known if there is none.  What is balanced, put between the opening of a level and the
closing of it, leaves every name as it was. -/
theorem lexical_law (changes : List Change) :
    ((empty.after changes).depth = 1 + stillOpen changes ∧ (empty.after changes).depth ≠ 0) ∧
    (∀ name value, (empty.after changes).get? name = some value ↔
      ∃ before later, changes = before ++ Change.define name value :: later ∧
        IsLatest before name value later) ∧
    (∀ name, (empty.after changes).get? name = none ↔
      ∀ before value later, changes = before ++ Change.define name value :: later →
        ¬Lasts before later) ∧
    ∀ inner, Balanced inner → ∀ name,
      (empty.after (changes ++ Change.openLevel :: (inner ++ [Change.closeLevel]))).get? name =
        (empty.after changes).get? name := by
  refine ⟨⟨?_, Nat.succ_ne_zero _⟩, fun name value => ⟨?_, ?_⟩, fun name => ⟨?_, ?_⟩, ?_⟩
  · rw [depth, length_opened_after_empty, Nat.add_comm]
  · intro hsome
    rcases none_lasts_or_exists_isLatest changes name with
      hnone | ⟨before, other, later, rfl, hlatest⟩
    · rw [get?_after_eq_none hnone] at hsome
      cases hsome
    · rw [get?_after_define hlatest] at hsome
      obtain rfl := Option.some.inj hsome
      exact ⟨before, later, rfl, hlatest⟩
  · rintro ⟨before, later, rfl, hlatest⟩
    exact get?_after_define hlatest
  · intro hunknown
    rcases none_lasts_or_exists_isLatest changes name with hnone | ⟨_, _, _, rfl, hlatest⟩
    · exact hnone
    · rw [get?_after_define hlatest] at hunknown
      cases hunknown
  · exact get?_after_eq_none
  · intro inner hinner name
    rw [after_append]
    exact get?_after_block _ hinner name

/-- A level is closed too often and the next depth is entered twice; then a block hides a name and
defines another one in a level of its own. -/
theorem lexical_law_of_hidden_name :
    (empty.after ([Change.closeLevel, Change.define "x" (.boolean true), Change.openLevel,
        Change.define "x" (.string "first visit"), Change.closeLevel, Change.openLevel] ++
      Change.openLevel :: ([Change.define "x" .undefined, Change.openLevel,
        Change.define "y" (.boolean false), Change.closeLevel] ++ [Change.closeLevel]))).get? "x" =
      some (.boolean true) := by
  have hinner : Balanced [Change.define "x" .undefined, Change.openLevel,
      Change.define "y" (.boolean false), Change.closeLevel] := ⟨by decide, rfl⟩
  exact ((lexical_law [Change.closeLevel, Change.define "x" (.boolean true), Change.openLevel,
    Change.define "x" (.string "first visit"), Change.closeLevel, Change.openLevel]).2.2.2 _ hinner
      "x").trans rfl

end SolidOps.Scope
