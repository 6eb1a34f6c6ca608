import SolidOps.Proofs.Resolution.Numbers
import SolidOps.Proofs.Value.Equality

/-!
# Settings from equal values

Two values that are equal need not be the same: the language compares numbers as numbers, so that a
zero and a minus zero are equal, also inside vectors and ranges.  Their texts differ, and one
setting is read from a text.  Still, equal bindings give equal settings.

Each reading is a case distinction over `Value.Equal`, and where numbers are read, only the two
zeros have to be looked at (`Binary64.congr_of_equals`).  A number, vector or range never names a
scheme, whatever its text is, so the difference of texts is seen in what is reported and nowhere
else (`Resolution.scheme_of_equal`).

**`Settings.ofBindings_respects_equality`** puts the readings together.
-/

namespace SolidOps

/-! ## Equal numbers converted -/

namespace Binary64

variable {x y : Binary64}

/-- Equal numbers have the same whole part, between any bounds. -/
lemma clamp_of_equals (low high : ℤ) (h : x.equals y = true) :
    x.clamp low high = y.clamp low high := by
  have hwhole (negative : Bool) : (ofMagnitude negative 0).wholePart = 0 := by
    rw [wholePart, magnitude_ofMagnitude (by decide), Magnitude.value_zero]
    cases (ofMagnitude negative 0).isNegative <;> rfl
  refine congr_of_equals (clamp low high) ?_ h
  rw [clamp, clamp, hwhole, hwhole]
  rfl

lemma toInt32_of_equals (h : x.equals y = true) : x.toInt32 = y.toInt32 := by
  rw [toInt32, toInt32, clamp_of_equals _ _ h]

lemma toUInt32_of_equals (h : x.equals y = true) : x.toUInt32 = y.toUInt32 := by
  rw [toUInt32, toUInt32, clamp_of_equals _ _ h]

end Binary64

/-- Parts that replace others axis by axis are related when they are in the lists and when they are
not. -/
lemma Axes.overlay_related {α : Type} {R : α → α → Prop} {a b : Axes α} {xs ys : List α}
    (hx : R a.x b.x) (hy : R a.y b.y) (hz : R a.z b.z) (h : List.Forall₂ R xs ys) :
    R (a.overlay xs).x (b.overlay ys).x ∧ R (a.overlay xs).y (b.overlay ys).y ∧
      R (a.overlay xs).z (b.overlay ys).z := by
  rcases h with _ | ⟨h₁, _ | ⟨h₂, _ | ⟨h₃, h₄⟩⟩⟩
  · exact ⟨hx, hy, hz⟩
  · exact ⟨h₁, hy, hz⟩
  · exact ⟨h₁, h₂, hz⟩
  · exact ⟨h₁, h₂, h₃⟩

/-! ## Readings of equal values -/

namespace Resolution

variable {v w v' w' : Value}

lemma convexity_of_equal (h : v.Equal w) : convexity v = convexity w := by
  cases h with
  | number h => exact Binary64.toInt32_of_equals h
  | _ => rfl

lemma level_of_equal (h : v.Equal w) : level v = level w := by
  cases h with
  | number h =>
      refine Prod.ext ?_ (Binary64.congr_of_equals (fun x => (level (.number x)).2) (by decide) h)
      rw [level_number, level_number, Binary64.toUInt32_of_equals h]
  | _ => rfl

/-- Where the texts of equal values differ, neither of them names a scheme. -/
lemma scheme_of_equal (h : v.Equal w) :
    (scheme v).1 = (scheme w).1 ∧ (scheme v).2.length = (scheme w).2.length := by
  have hunnamed : ∀ {u u' : Value}, (∀ k, ¬Recognised u k) → (∀ k, ¬Recognised u' k) →
      (scheme u).1 = (scheme u').1 ∧ (scheme u).2.length = (scheme u').2.length := by
    intro u u' hu hu'
    rw [scheme_of_not_recognised hu, scheme_of_not_recognised hu']
    exact ⟨rfl, rfl⟩
  cases h with
  | undefined => exact ⟨rfl, rfl⟩
  | string s => exact ⟨rfl, rfl⟩
  | boolean b => exact ⟨rfl, rfl⟩
  | number h => exact hunnamed nofun nofun
  | vector h => exact hunnamed nofun nofun
  | range a b c a' b' c' => exact hunnamed nofun nofun

/-- Equal values change places alike. -/
lemma inOrder_of_equal (h : v.Equal w) (h' : v'.Equal w') :
    (inOrder v v').1.Equal (inOrder w w').1 ∧ (inOrder v v').2.Equal (inOrder w w').2 := by
  cases h with
  | string s =>
      cases h' with
      | number h' => exact ⟨.number h', .string s⟩
      | undefined => exact ⟨.string s, .undefined⟩
      | boolean b => exact ⟨.string s, .boolean b⟩
      | string t => exact ⟨.string s, .string t⟩
      | vector h' => exact ⟨.string s, .vector h'⟩
      | range a b c a' b' c' => exact ⟨.string s, .range a b c a' b' c'⟩
  | undefined => exact ⟨.undefined, h'⟩
  | boolean b => exact ⟨.boolean b, h'⟩
  | number h => exact ⟨.number h, h'⟩
  | vector h => exact ⟨.vector h, h'⟩
  | range a b c a' b' c' => exact ⟨.range a b c a' b' c', h'⟩

lemma newSize_of_equal (h : v.Equal w) :
    (newSize v).x.equals (newSize w).x = true ∧ (newSize v).y.equals (newSize w).y = true ∧
      (newSize v).z.equals (newSize w).z = true := by
  cases h with
  | @vector xs ys h =>
      have hsizes : List.Forall₂ (fun x y : Binary64 => x.equals y = true)
          ((xs.take Defaults.axisCount).map Value.toNumber)
          ((ys.take Defaults.axisCount).map Value.toNumber) := by
        rw [List.forall₂_map_left_iff, List.forall₂_map_right_iff]
        exact (List.forall₂_take _ h).imp fun _ _ h => (Value.equal_of_equals h).toNumber_equals
      exact Axes.overlay_related (R := fun x y : Binary64 => x.equals y = true) rfl rfl rfl hsizes
  | _ => exact ⟨rfl, rfl, rfl⟩

lemma auto_of_equal (h : v.Equal w) : auto v = auto w := by
  cases h with
  | @vector xs ys h =>
      have hflags : (xs.take Defaults.axisCount).map Value.toBool
          = (ys.take Defaults.axisCount).map Value.toBool := by
        rw [← List.forall₂_eq_eq_eq, List.forall₂_map_left_iff, List.forall₂_map_right_iff]
        exact (List.forall₂_take _ h).imp fun _ _ h => (Value.equal_of_equals h).toBool_eq
      exact congrArg Defaults.auto.overlay hflags
  | _ => rfl

end Resolution

/-! ## Equal bindings -/

/-- The same names in the same order, with equal values. -/
def Bindings.Equal (b b' : Bindings) : Prop :=
  List.Forall₂ (fun e e' => e.1 = e'.1 ∧ e.2.equals e'.2 = true) b.entries b'.entries

lemma Bindings.Equal.get_equals {b b' : Bindings} (h : b.Equal b') (name : String) :
    (b.get name).equals (b'.get name) = true := by
  obtain ⟨entries⟩ := b
  obtain ⟨entries'⟩ := b'
  change List.Forall₂ _ entries entries' at h
  rw [get, get]
  induction h with
  | nil => rfl
  | @cons e e' es es' h _ ih =>
      rw [List.lookup_cons, List.lookup_cons, h.1]
      cases name == e'.1 with
      | true => exact h.2
      | false => exact ih

namespace Settings

/-- **Equal bindings give equal settings.**

Let two bindings have the same names in the same order, and equal values.  The settings that are
read from them are equal for every operator, and as many diagnostics are reported for the one as for
the other.  What these say can be different: a vector that is taken for a type is shown by its text,
and a zero in it has a text that depends on its sign. -/
theorem ofBindings_respects_equality :
    (∀ (op : Operator) (b b' : Bindings), b.Equal b' →
      (ofBindings op b).1.equals (ofBindings op b').1 = true ∧
      (ofBindings op b).2.length = (ofBindings op b').2.length) ∧
    ∃ b b' : Bindings, b.Equal b' ∧
      (ofBindings .subdivision b).2 ≠ (ofBindings .subdivision b').2 := by
  constructor
  · intro op b b' h
    have hget (name : String) : (b.get name).Equal (b'.get name) :=
      Value.equal_of_equals (h.get_equals name)
    have hconvexity := Resolution.convexity_of_equal (hget "convexity")
    cases op with
    | minkowski => simp [ofBindings, equals, hconvexity]
    | glide => simp [ofBindings, equals, hconvexity, h.get_equals]
    | subdivision =>
        obtain ⟨hL, hT⟩ := Resolution.inOrder_of_equal (hget "level") (hget "type")
        have hlevel := Resolution.level_of_equal hL
        obtain ⟨hscheme, hlength⟩ := Resolution.scheme_of_equal hT
        simp [ofBindings, equals, hconvexity, hlevel, hscheme, hlength]
    | hull => exact ⟨rfl, rfl⟩
    | resize =>
        have hauto := Resolution.auto_of_equal (hget "auto")
        simp [ofBindings, equals, Resolution.newSize_of_equal (hget "newsize"), hauto]
  · refine ⟨⟨[("type", .vector [.number (.ofMagnitude false 0)])]⟩,
      ⟨[("type", .vector [.number (.ofMagnitude true 0)])]⟩, ?_, ?_⟩
    · exact .cons ⟨rfl, rfl⟩ .nil
    · decide

/-- Sizes and flags with zeros of either sign: the first size keeps its sign, and no flag is set. -/
theorem ofBindings_respects_equality_of_zeros :
    ofBindings .resize
        ⟨[("newsize", .vector [.number ⟨0⟩, .number ⟨0x3FF0000000000000⟩]),
          ("auto", .vector [.number ⟨0x8000000000000000⟩])]⟩ =
      (.resize ⟨⟨0⟩, ⟨0x3FF0000000000000⟩, ⟨0⟩⟩ (.all false), []) ∧
    ofBindings .resize
        ⟨[("newsize", .vector [.number ⟨0x8000000000000000⟩, .number ⟨0x3FF0000000000000⟩]),
          ("auto", .vector [.number ⟨0⟩])]⟩ =
      (.resize ⟨⟨0x8000000000000000⟩, ⟨0x3FF0000000000000⟩, ⟨0⟩⟩ (.all false), []) ∧
    (Settings.resize ⟨⟨0⟩, ⟨0x3FF0000000000000⟩, ⟨0⟩⟩ (.all false)).equals
      (.resize ⟨⟨0x8000000000000000⟩, ⟨0x3FF0000000000000⟩, ⟨0⟩⟩ (.all false)) = true := by
  have hequal : Bindings.Equal
      ⟨[("newsize", .vector [.number ⟨0⟩, .number ⟨0x3FF0000000000000⟩]),
        ("auto", .vector [.number ⟨0x8000000000000000⟩])]⟩
      ⟨[("newsize", .vector [.number ⟨0x8000000000000000⟩, .number ⟨0x3FF0000000000000⟩]),
        ("auto", .vector [.number ⟨0⟩])]⟩ :=
    .cons ⟨rfl, rfl⟩ (.cons ⟨rfl, rfl⟩ .nil)
  exact ⟨rfl, rfl, (ofBindings_respects_equality.1 .resize _ _ hequal).1⟩

end Settings

end SolidOps
