import Mathlib
import SolidOps.Proofs.Resolution.Subdivision

/-!
# Settings from numbers

A convexity and a level are integers of 32 bits, and any number may be bound to them.  Both are the
exact value without its fraction, held between bounds as `Binary64.CoercesTo` has it.

For the convexity this is one conversion.  A level has its fraction dropped first, is tested for
being negative, and is converted only if it is not.  Neither of the first two steps shows in the
result: dropping the fraction commutes with the conversion (`Binary64.clamp_trunc`), and what the
test finds to be negative would become zero anyway
(`Binary64.CoercesTo.eq_zero_of_truncatesBelowZero`).  So the level is that of a conversion alone
(`Resolution.level_number`), and the test only decides on the warning.

**`Resolution.number_settings_exact`** says this of the settings of operators.
-/

namespace SolidOps

namespace Binary64

variable {x : Binary64}

lemma toUInt32_trunc (x : Binary64) : x.trunc.toUInt32 = x.toUInt32 := by
  rw [toUInt32, toUInt32, clamp_trunc]

/-- Numbers between minus one and one become zero. -/
lemma CoercesTo.eq_zero_of_lt_one {low high i : ℤ} (hlow : low ≤ 0) (hhigh : 0 ≤ high)
    (hi : x.CoercesTo low high i) (hx : -1 < x.extended) (hx' : x.extended < 1) : i = 0 := by
  rcases isFinite_or x with hfinite | hinf | hnan
  · have hone : (1 : EReal) = ((1 : ℝ) : EReal) := rfl
    rw [extended_of_isFinite hfinite, hone, ← EReal.coe_neg, EReal.coe_lt_coe_iff] at hx
    rw [extended_of_isFinite hfinite, hone, EReal.coe_lt_coe_iff] at hx'
    have hzero : towardZero x.value = 0 :=
      towardZero_eq_zero (by exact_mod_cast hx) (by exact_mod_cast hx')
    rw [hi.finite hfinite, hzero, min_eq_right hhigh, max_eq_right hlow]
  · rw [extended_of_isInfinite hinf] at hx hx'
    cases hsign : x.isNegative with
    | true => simp [hsign] at hx
    | false => simp [hsign] at hx'
  · exact hi.nan hnan

end Binary64

namespace Resolution

lemma belowZero_number {x : Binary64} :
    BelowZero (.number x) ↔ x.isNaN = false ∧ x.extended ≤ -1 := by
  rw [← Binary64.truncatesBelowZero_iff_le]
  constructor
  · rintro ⟨y, hy, hbelow⟩
    cases hy
    exact hbelow
  · intro hbelow
    exact ⟨x, rfl, hbelow⟩

lemma eq_zero_of_toNat {l : UInt32} (h : (l.toNat : ℤ) = 0) : l = 0 :=
  UInt32.toNat_inj.mp (Int.natCast_eq_zero.mp h)

/-- **The level of a number is the number converted**, with no regard to the test. -/
lemma level_number (x : Binary64) : (level (.number x)).1 = x.toUInt32 := by
  show (if x.trunc.isLess (.ofInt Defaults.leastLevel.toNat) then
    (Defaults.leastLevel, [negativeLevel]) else (x.trunc.toUInt32, [])).1 = x.toUInt32
  rw [ofInt_leastLevel]
  split_ifs with h
  · rw [Binary64.isLess_zero_trunc_iff] at h
    exact (eq_zero_of_toNat (x.coercesTo_toUInt32.eq_zero_of_truncatesBelowZero h)).symm
  · exact x.toUInt32_trunc

/-- A type is never the reason for the warning about a level. -/
lemma negativeLevel_not_mem_scheme (v : Value) : negativeLevel ∉ (scheme v).2 := by
  rw [scheme]
  cases Scheme.ofName? (schemeName v) with
  | some k => simp
  | none => simp [negativeLevel, unknownScheme, schemeReplaced, Diagnostic.warning,
      Diagnostic.withHint]

lemma negativeLevel_mem_level {v : Value} : negativeLevel ∈ (level v).2 ↔ BelowZero v := by
  by_cases h : BelowZero v
  · simp [reports_level_of_belowZero h, h]
  · simp [reports_level_of_not_belowZero h, h]

/-- **Numbers as settings, exactly.**

A number that is bound to the convexity of an operator that has one becomes its value without the
fraction, held between `-2 ^ 31` and `2 ^ 31 - 1`; a number taken for a level likewise, between `0`
and `2 ^ 32 - 1`, whether its fraction is dropped before the conversion or not.  An infinity becomes
the bound on its side and a NaN zero.  There is a warning about a level for the numbers from minus
one downwards and no others, and a convexity makes no difference to what is reported.  Both settings
grow with the number. -/
theorem number_settings_exact (x : Binary64) :
    (∀ op ∈ [Operator.minkowski, .glide, .subdivision], ∀ b : Bindings,
      b.get "convexity" = .number x →
        (Settings.ofBindings op b).1.convexity? = some (convexity (.number x))) ∧
    x.CoercesTo (-2 ^ 31) (2 ^ 31 - 1) (convexity (.number x)).toInt ∧
    (∀ (b : Bindings) (T : Value), TakenAs (b.get "level") (b.get "type") (.number x) T →
      ∃ c k reports,
        Settings.ofBindings .subdivision b = (.subdivision c (level (.number x)).1 k, reports) ∧
        (negativeLevel ∈ reports ↔ x.isNaN = false ∧ x.extended ≤ -1)) ∧
    x.CoercesTo 0 (2 ^ 32 - 1) ((level (.number x)).1.toNat : ℤ) ∧
    (x.extended ≤ -1 → (level (.number x)).1 = 0) ∧
    (-1 < x.extended → x.extended < 1 → (level (.number x)).1 = 0) ∧
    ((level (.number x)).1 = x.trunc.toUInt32 ∧ (level (.number x)).1 = x.toUInt32) ∧
    (∀ (op : Operator) (b b' : Bindings), b.get "level" = b'.get "level" →
      b.get "type" = b'.get "type" →
        (Settings.ofBindings op b).2 = (Settings.ofBindings op b').2) ∧
    ∀ y : Binary64, x.isNaN = false → y.isNaN = false → x.extended ≤ y.extended →
      convexity (.number x) ≤ convexity (.number y) ∧
      (level (.number x)).1 ≤ (level (.number y)).1 := by
  have hconvexity (x : Binary64) :
      x.CoercesTo (-2 ^ 31) (2 ^ 31 - 1) (convexity (.number x)).toInt := x.coercesTo_toInt32
  have hlevel (x : Binary64) : x.CoercesTo 0 (2 ^ 32 - 1) ((level (.number x)).1.toNat : ℤ) := by
    rw [level_number]
    exact x.coercesTo_toUInt32
  refine ⟨?_, hconvexity x, ?_, hlevel x, ?_, ?_, ⟨?_, level_number x⟩, ?_, ?_⟩
  · intro op hop b hb
    fin_cases hop <;> simp [Settings.ofBindings, Settings.convexity?, hb]
  · intro b T h
    refine ⟨_, _, _, ofBindings_subdivision h, ?_⟩
    rw [List.mem_append, negativeLevel_mem_level, belowZero_number,
      or_iff_left (negativeLevel_not_mem_scheme T)]
  · intro hle
    cases hnan : x.isNaN with
    | true => exact eq_zero_of_toNat ((hlevel x).nan hnan)
    | false =>
        have hbelow := Binary64.truncatesBelowZero_iff_le.mpr ⟨hnan, hle⟩
        exact eq_zero_of_toNat ((hlevel x).eq_zero_of_truncatesBelowZero hbelow)
  · intro hlow hhigh
    exact eq_zero_of_toNat ((hlevel x).eq_zero_of_lt_one le_rfl (by norm_num) hlow hhigh)
  · rw [level_number, x.toUInt32_trunc]
  · intro op b b' hb hb'
    cases op <;> simp [Settings.ofBindings, hb, hb']
  · intro y hx hy hxy
    constructor
    · rw [Int32.le_iff_toInt_le]
      exact (hconvexity x).mono (by norm_num) (by norm_num) (hconvexity y) hx hy hxy
    · rw [UInt32.le_iff_toNat_le]
      exact_mod_cast (hlevel x).mono le_rfl (by norm_num) (hlevel y) hx hy hxy

/-- Minus infinity for both settings, the level in the place of the type. -/
theorem number_settings_exact_of_infinity :
    Settings.ofBindings .subdivision ⟨[("level", .string "loop"),
        ("type", .number ⟨0xFFF0000000000000⟩), ("convexity", .number ⟨0xFFF0000000000000⟩)]⟩ =
      (.subdivision Int32.minValue 0 .loop, [negativeLevel]) := by
  set x : Binary64 := ⟨0xFFF0000000000000⟩
  have hinf : x.isInfinite = true := by decide
  have hbelow : x.extended ≤ -1 := by
    rw [Binary64.extended_of_isInfinite hinf]
    exact bot_le
  set b : Bindings := ⟨[("level", .string "loop"), ("type", .number x), ("convexity", .number x)]⟩
  obtain ⟨hsettings, hcoerces, hlevel, -, hzero, -⟩ := number_settings_exact x
  obtain ⟨c, k, reports, hb, -⟩ := hlevel b (.string "loop") (.exchanged "loop" x)
  have hc := hsettings .subdivision (by decide) b rfl
  rw [hb, Settings.convexity?, Option.some.injEq] at hc
  have hleast : c = Int32.minValue := by
    rw [← Int32.toInt_inj, hc]
    exact hcoerces.below hinf (by decide)
  have hscheme : scheme (.string "loop") = (.loop, []) :=
    scheme_of_recognised (.named (Scheme.ofName?_lowercase_eq_some_iff.mp (by decide)))
  have hreports := reports_level_of_belowZero (belowZero_number.mpr ⟨by decide, hbelow⟩)
  have hread := ofBindings_subdivision (b := b) (.exchanged "loop" x)
  rw [hb, hscheme, hreports, List.append_nil, Prod.mk.injEq, Settings.subdivision.injEq] at hread
  obtain ⟨⟨-, -, rfl⟩, rfl⟩ := hread
  rw [hb, hleast, hzero hbelow]

end Resolution

end SolidOps
