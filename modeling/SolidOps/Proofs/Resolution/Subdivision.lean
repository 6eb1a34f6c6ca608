import Mathlib
import SolidOps.Resolution
import SolidOps.Proofs.Numeric.Coercion
import SolidOps.Proofs.Run
import SolidOps.Proofs.Text.Lowercase

/-!
# Reading a subdivision

Level and type of a subdivision are read from two bindings, which may come the other way round, and
each reading may have something to report.

* `Resolution.TakenAs` says which of two bound values counts as the level and which as the type.
* `Resolution.BelowZero` says of which levels there is a warning.
* `Scheme.names` and `Scheme.SpelledBy` say which texts name a scheme, over all of Unicode, and
  `Resolution.Recognised` which values stand for one.

A type that is not a string is read through its text, too, and it must be seen that this text never
names a scheme.  Its first character tells: the names begin with a letter that begins the text of no
boolean, number, vector or range (`Value.exists_chars_eq_cons_of_not_string`).

**`Resolution.subdivision_reports`** lists what is reported, in order, and says which scheme is
read.
-/

namespace SolidOps

/-! ## Level and type -/

namespace Resolution

/-- Where `v` is bound to the level and `w` to the type, `L` is taken for the level and `T` for the
type.  Only a string and a number that come the wrong way round change places. -/
inductive TakenAs : Value → Value → Value → Value → Prop
  | exchanged (s : String) (x : Binary64) :
      TakenAs (.string s) (.number x) (.number x) (.string s)
  | inPlace {v w : Value} (h : v.isString = true → w.isNumber = false) : TakenAs v w v w

lemma takenAs_iff {v w L T : Value} : TakenAs v w L T ↔ inOrder v w = (L, T) := by
  constructor
  · rintro (⟨s, x⟩ | h)
    · rfl
    · cases v with
      | string s =>
          cases w with
          | number x => simp [Value.isString, Value.isNumber] at h
          | _ => rfl
      | _ => rfl
  · intro h
    cases v with
    | string s =>
        cases w with
        | number x =>
            obtain ⟨rfl, rfl⟩ := Prod.mk.inj h
            exact .exchanged s x
        | _ =>
            obtain ⟨rfl, rfl⟩ := Prod.mk.inj h
            exact .inPlace fun _ => rfl
    | _ =>
        obtain ⟨rfl, rfl⟩ := Prod.mk.inj h
        exact .inPlace fun hstring => absurd hstring Bool.false_ne_true

end Resolution

/-! ## Names of schemes -/

namespace Scheme

/-- The names of a scheme, in one word and in two. -/
def names : Scheme → List String
  | catmullClark => ["catmullclark", "catmull clark"]
  | loop => ["loop"]
  | dooSabin => ["doosabin", "doo sabin"]
  | sqrt3 => ["sqrt3", "sqrt 3"]

/-- A text is a name of the scheme, each character as it is or as what may stand for it. -/
def SpelledBy (k : Scheme) (s : String) : Prop := ∃ name ∈ k.names, Spells s name

lemma ofName?_eq_some_iff {name : String} {k : Scheme} :
    ofName? name = some k ↔ name ∈ k.names := by
  constructor
  · intro h
    rw [ofName?] at h
    split_ifs at h with h₁ h₂ h₃ h₄ <;> cases h <;> simp_all [names]
  · intro h
    cases k <;> simp only [names, List.mem_cons, List.not_mem_nil, or_false] at h
    · rcases h with rfl | rfl <;> rfl
    · subst h
      rfl
    · rcases h with rfl | rfl <;> rfl
    · rcases h with rfl | rfl <;> rfl

lemma isPlain_of_mem_names (k : Scheme) : ∀ name ∈ k.names, ∀ d ∈ name.toList, IsPlain d := by
  cases k <;> simp [names, IsPlain]

/-- **A text is taken for a name exactly when it spells one.** -/
lemma ofName?_lowercase_eq_some_iff {s : String} {k : Scheme} :
    ofName? (lowercase s) = some k ↔ k.SpelledBy s := by
  rw [ofName?_eq_some_iff]
  constructor
  · intro h
    exact ⟨_, h, (lowercase_eq_iff_spells (k.isPlain_of_mem_names _ h) s).mp rfl⟩
  · rintro ⟨name, hname, hspells⟩
    rwa [(lowercase_eq_iff_spells (k.isPlain_of_mem_names name hname) s).mpr hspells]

/-- Names of schemes begin with one of four letters, small or capital. -/
lemma head_of_spelledBy {s : String} {k : Scheme} (h : k.SpelledBy s) :
    ∃ c cs, s.toList = c :: cs ∧ c ∈ ['c', 'C', 'l', 'L', 'd', 'D', 's', 'S'] := by
  obtain ⟨name, hname, hspells⟩ := h
  have hhead : ∃ d ds, name.toList = d :: ds ∧ d ∈ ['c', 'l', 'd', 's'] := by
    revert name
    cases k <;> simp [names]
  obtain ⟨d, ds, hd, hmem⟩ := hhead
  rw [Spells, hd, List.forall₂_cons_right_iff] at hspells
  obtain ⟨c, cs, hc, -, hs⟩ := hspells
  refine ⟨c, cs, hs, ?_⟩
  fin_cases hmem <;> rcases hc with rfl | rfl | ⟨-, hk⟩ <;> first | decide | cases hk

end Scheme

/-! ## Texts of values that are not strings -/

/-- The text of a number begins with a digit, a sign or the letters of `NaN` and `inf`. -/
lemma Binary64.exists_chars_eq_cons (x : Binary64) :
    ∃ c cs, x.chars = c :: cs ∧ (c ∈ ['N', 'i', '-'] ∨ ∃ d : Digit, c = d.toChar) := by
  rcases isFinite_or x with hfinite | hinf | hnan
  · obtain ⟨n, hn, -⟩ := exists_numeral hfinite
    obtain ⟨d, cs, hd⟩ := Numeral.natChars_eq_cons n.whole
    rw [hn, Numeral.chars_eq, hd]
    cases n.negative with
    | true => exact ⟨_, _, rfl, Or.inl (by decide)⟩
    | false => exact ⟨_, _, rfl, Or.inr ⟨d, rfl⟩⟩
  · rw [chars_of_isInfinite hinf]
    cases x.isNegative <;> exact ⟨_, _, rfl, Or.inl (by decide)⟩
  · rw [chars_of_isNaN hnan]
    exact ⟨_, _, rfl, Or.inl (by decide)⟩

/-- No text of a value but a string begins like the name of a scheme. -/
lemma Value.exists_chars_eq_cons_of_not_string {v : Value} (hv : v.isString = false) :
    ∃ c cs, v.chars = c :: cs ∧ c ∉ ['c', 'C', 'l', 'L', 'd', 'D', 's', 'S'] := by
  cases v with
  | undefined => exact ⟨_, _, rfl, by decide⟩
  | boolean b => cases b <;> exact ⟨_, _, rfl, by decide⟩
  | number x =>
      obtain ⟨c, cs, hchars, hc⟩ := x.exists_chars_eq_cons
      refine ⟨c, cs, hchars, ?_⟩
      rcases hc with hc | ⟨d, rfl⟩
      · fin_cases hc <;> decide
      · clear hchars
        revert d
        decide
  | string s => cases hv
  | vector items => cases items <;> exact ⟨_, _, rfl, by decide⟩
  | range start step stop => exact ⟨_, _, rfl, by decide⟩

/-- **Only a string names a scheme.** -/
lemma Scheme.not_spelledBy_text {v : Value} (hv : v.isString = false) (k : Scheme) :
    ¬k.SpelledBy v.text := by
  intro h
  have htext : v.text = v.display := by
    cases v <;> first | rfl | cases hv
  obtain ⟨c, cs, hchars, hc⟩ := Value.exists_chars_eq_cons_of_not_string hv
  obtain ⟨c', cs', hspelled, hc'⟩ := head_of_spelledBy h
  rw [htext, Value.display, String.toList_ofList, hchars, List.cons.injEq] at hspelled
  exact hc (hspelled.1 ▸ hc')

namespace Resolution

/-! ## What the readings report -/

/-- Levels that are raised to zero: numbers that are less than zero without their fractions. -/
def BelowZero (v : Value) : Prop := ∃ x, v = .number x ∧ x.TruncatesBelowZero

/-- The bound that a level is compared with, as a number. -/
lemma ofInt_leastLevel : Binary64.ofInt Defaults.leastLevel.toNat = Binary64.zero := rfl

lemma reports_level_of_belowZero {v : Value} (h : BelowZero v) : (level v).2 = [negativeLevel] := by
  obtain ⟨x, rfl, hx⟩ := h
  simp [level, Value.toNumber, ofInt_leastLevel, Binary64.isLess_zero_trunc_iff.mpr hx]

lemma reports_level_of_not_belowZero {v : Value} (h : ¬BelowZero v) : (level v).2 = [] := by
  have hzero : Binary64.zero.trunc.isLess .zero = false := by decide
  cases v with
  | number x =>
      have hx : ¬x.trunc.isLess .zero = true := fun hless =>
        h ⟨x, rfl, Binary64.isLess_zero_trunc_iff.mp hless⟩
      simp [level, Value.toNumber, ofInt_leastLevel, hx]
  | undefined => rfl
  | _ => simp [level, Value.toNumber, ofInt_leastLevel, hzero]

/-- Values that stand for a scheme: `undef` and the strings that name one. -/
inductive Recognised : Value → Scheme → Prop
  | undefined : Recognised .undefined .catmullClark
  | named {s : String} {k : Scheme} (h : k.SpelledBy s) : Recognised (.string s) k

lemma scheme_of_recognised {v : Value} {k : Scheme} (h : Recognised v k) : scheme v = (k, []) := by
  cases h with
  | undefined => rfl
  | named h =>
      rw [← Scheme.ofName?_lowercase_eq_some_iff] at h
      simp [scheme, schemeName, Value.text, h]

lemma scheme_of_not_recognised {v : Value} (h : ∀ k, ¬Recognised v k) :
    scheme v = (.catmullClark, [unknownScheme (lowercase v.text), schemeReplaced]) := by
  have hname : schemeName v = lowercase v.text := by
    cases v with
    | undefined => exact absurd .undefined (h .catmullClark)
    | _ => rfl
  have hnone : Scheme.ofName? (lowercase v.text) = none := by
    rw [Option.eq_none_iff_forall_ne_some]
    intro k hk
    rw [Scheme.ofName?_lowercase_eq_some_iff] at hk
    cases hv : v.isString with
    | false => exact Scheme.not_spelledBy_text hv k hk
    | true =>
        cases v <;> simp [Value.isString] at hv
        exact h k (.named hk)
  simp [scheme, hname, hnone, Defaults.scheme]

/-- Settings of a subdivision and what is reported for them, level first. -/
lemma ofBindings_subdivision {b : Bindings} {L T : Value}
    (h : TakenAs (b.get "level") (b.get "type") L T) :
    Settings.ofBindings .subdivision b =
      (.subdivision (convexity (b.get "convexity")) (level L).1 (scheme T).1,
        (level L).2 ++ (scheme T).2) := by
  simp [Settings.ofBindings, takenAs_iff.mp h]

lemma exists_takenAs (v w : Value) : ∃ L T, TakenAs v w L T :=
  ⟨_, _, takenAs_iff.mpr rfl⟩

/-- **What is reported of a subdivision, and which scheme it has.**

Let `L` and `T` be taken for level and type.  Any sink is given, after what it has, first one
warning if `L` is a number that is below zero without its fraction, and then two if `T` is neither
`undef` nor a string that names a scheme: the first shows the lowercase of its text and hints at the
names, the second says what is done.  The scheme is the one that `T` names, and Catmull-Clark if it
names none.  The text of a value that is not a string never spells a name. -/
theorem subdivision_reports (b : Bindings) :
    ∃ L T, TakenAs (b.get "level") (b.get "type") L T ∧
      (∃ c l k levelReports typeReports,
        Settings.ofBindings .subdivision b = (.subdivision c l k, levelReports ++ typeReports) ∧
        (∀ (σ : Type) [Sink σ] (t : σ),
          (Run.reportAll (Settings.ofBindings .subdivision b).2).perform t =
            (.ok (), typeReports.foldl (fun t d => Sink.report d t)
              (levelReports.foldl (fun t d => Sink.report d t) t))) ∧
        (BelowZero L →
          levelReports = [⟨.warning, "Subdivision cannot be less than 0. Setting to 0.", none⟩]) ∧
        (¬BelowZero L → levelReports = []) ∧
        (∀ k', Recognised T k' → k = k' ∧ typeReports = []) ∧
        ((∀ k', ¬Recognised T k') → k = .catmullClark ∧
          typeReports =
            [⟨.warning, "unknown subdivision type " ++ lowercase T.text,
                some "expected catmullclark, loop, doosabin or sqrt3"⟩,
              ⟨.warning, "setting to CatmullClark", none⟩])) ∧
      ∀ v : Value, v.isString = false → ∀ k : Scheme, ¬k.SpelledBy v.text := by
  obtain ⟨L, T, h⟩ := exists_takenAs (b.get "level") (b.get "type")
  have hsettings := ofBindings_subdivision h
  refine ⟨L, T, h, ⟨_, _, _, _, _, hsettings, ?_, reports_level_of_belowZero,
    reports_level_of_not_belowZero, ?_, ?_⟩, fun v => Scheme.not_spelledBy_text⟩
  · intro σ _ t
    rw [hsettings, Run.perform_reportAll, List.foldl_append]
  · intro k' hk
    rw [scheme_of_recognised hk]
    exact ⟨rfl, rfl⟩
  · intro hnone
    rw [scheme_of_not_recognised hnone]
    exact ⟨rfl, rfl⟩

/-- All three warnings, in their order: the number is the level although it is bound to the type,
and the text is no name. -/
theorem subdivision_reports_of_unknown_name :
    (Settings.ofBindings .subdivision
      ⟨[("level", .string "Triangles"), ("type", .number ⟨0xBFF8000000000000⟩)]⟩).2 =
        [negativeLevel, unknownScheme "triangles", schemeReplaced] := by
  have hbelow : BelowZero (.number ⟨0xBFF8000000000000⟩) :=
    ⟨_, rfl, Binary64.isLess_zero_trunc_iff.mp (by decide)⟩
  have hunknown : ∀ k, ¬Recognised (.string "Triangles") k := by
    rintro k (_ | hspelled)
    rw [← Scheme.ofName?_lowercase_eq_some_iff] at hspelled
    revert k
    decide
  obtain ⟨L, T, htaken, ⟨c, l, k, levelReports, typeReports, hsettings, -, hlevel, -, -, htype⟩,
    -⟩ := subdivision_reports
      ⟨[("level", .string "Triangles"), ("type", .number ⟨0xBFF8000000000000⟩)]⟩
  obtain ⟨rfl, rfl⟩ : .number ⟨0xBFF8000000000000⟩ = L ∧ .string "Triangles" = T :=
    Prod.mk.inj (takenAs_iff.mp htaken)
  have hlower : lowercase (Value.string "Triangles").text = "triangles" := by
    decide
  rw [hsettings, hlevel hbelow, (htype hunknown).2, hlower]
  rfl

/-- A level and a type the wrong way round, the name with a Kelvin sign for its last letter. -/
example : Settings.ofBindings .subdivision
      ⟨[("level", .string "Catmull CLAR\u212A"), ("type", .number ⟨0xBFF8000000000000⟩)]⟩ =
    (.subdivision 0 0 .catmullClark, [negativeLevel]) := by
  rfl

end Resolution

end SolidOps
