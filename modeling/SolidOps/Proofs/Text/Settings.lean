import Mathlib
import SolidOps.Settings
import SolidOps.Proofs.Text.Value

/-!
# Canonical text as a key

The canonical text of settings is what a node is looked up by, so different settings should not
share it.  How far they do not is said here.

* `Settings.Alike`: the same settings, but for the payloads of NaNs.
* `Settings.nestsQuote`: the settings have a path with a string inside a vector that contains a
  double quote.
* **`Settings.text_eq_iff_alike`**: among settings without such a string, the text says which
  settings they are.
* `Settings.text_eq_of_quoted_item`: with one, two paths of different lengths can have one text.
* **`Settings.text_collides_by_nested_quote`**: nothing else can go wrong; settings that share a
  text differ in their paths at most, and then one of the paths has such a string.

The parts of the text are cut off from the left, where each ends at the first character that cannot
be part of it.  Only a path can contain anything, so the convexity behind it is cut off from the
right.
-/

namespace SolidOps

open Json Json.Scanner

/-! ## Integers -/

lemma intChars_eq_chars_ofInt (i : ℤ) : intChars i = (Numeral.ofInt i).chars := by
  rw [Numeral.chars_eq]
  by_cases hi : i < 0 <;>
    simp [intChars, Numeral.ofInt, Numeral.pointChars, Numeral.scaleChars, hi]

lemma intChars_injective : Function.Injective intChars := by
  intro i j h
  rw [intChars_eq_chars_ofInt, intChars_eq_chars_ofInt] at h
  have hnumeral : some (Numeral.ofInt i) = some (Numeral.ofInt j) := by
    rw [← Numeral.ofChars?_chars, ← Numeral.ofChars?_chars, h]
  have hread : some i = some j := by
    rw [← Numeral.toInt?_ofInt, ← Numeral.toInt?_ofInt, Option.some.inj hnumeral]
  exact Option.some.inj hread

lemma continuesWord_of_mem_intChars {i : ℤ} : ∀ c ∈ intChars i, continuesWord c = true := by
  rw [intChars_eq_chars_ofInt]
  exact continuesWord_of_mem_chars _

lemma natChars_injective : Function.Injective natChars := by
  intro n m h
  have hint (k : ℕ) : intChars k = natChars k := by simp [intChars]
  have hcast : (n : ℤ) = m := intChars_injective (by rw [hint, hint, h])
  exact_mod_cast hcast

lemma int32Chars_injective {c c' : Int32} (h : intChars c.toInt = intChars c'.toInt) : c = c' :=
  Int32.toInt_inj.mp (intChars_injective h)

/-! ## Axes -/

/-- Three words between brackets are told apart by the commas. -/
lemma Axes.chars_inj {α : Type} {shown : α → List Char}
    (hshown : ∀ a, ∀ c ∈ shown a, continuesWord c = true) {a b : Axes α} {rest rest' : List Char}
    (h : a.chars shown ++ rest = b.chars shown ++ rest') :
    (shown a.x = shown b.x ∧ shown a.y = shown b.y ∧ shown a.z = shown b.z) ∧ rest = rest' := by
  simp only [chars, List.cons_append, List.append_assoc, List.cons.injEq, true_and] at h
  obtain ⟨hx, h⟩ := append_cons_inj_of_words rfl (hshown _) (hshown _) h
  obtain ⟨hy, h⟩ := append_cons_inj_of_words rfl (hshown _) (hshown _) h
  obtain ⟨hz, h⟩ := append_cons_inj_of_words rfl (hshown _) (hshown _) h
  exact ⟨⟨hx, hy, hz⟩, h⟩

namespace Settings

lemma flagChars_injective : Function.Injective flagChars := by
  intro b b' h
  cases b <;> cases b' <;> simp [flagChars] at h ⊢

lemma continuesWord_of_mem_flagChars (b : Bool) : ∀ c ∈ flagChars b, continuesWord c = true := by
  cases b <;> exact List.all_eq_true.mp rfl

/-! ## Between the parentheses -/

lemma innerChars_minkowski (c : Int32) :
    (minkowski c).innerChars = "convexity = ".toList ++ intChars c.toInt := rfl

lemma innerChars_glide (c : Int32) (path : Value) :
    (glide c path).innerChars =
      "path = ".toList ++ path.chars ++ ", convexity = ".toList ++ intChars c.toInt := rfl

lemma innerChars_subdivision (c : Int32) (level : UInt32) (scheme : Scheme) :
    (subdivision c level scheme).innerChars =
      "type = ".toList ++ natChars scheme.code ++ ", level = ".toList ++ natChars level.toNat ++
        ", convexity = ".toList ++ intChars c.toInt := rfl

lemma innerChars_resize (size : Axes Binary64) (auto : Axes Bool) :
    (resize size auto).innerChars =
      "newsize = ".toList ++ size.chars Binary64.chars ++ ", auto = ".toList ++
        auto.chars flagChars := rfl

/-! ## Settings that are alike -/

/-- Settings of one operator with the same integers, scheme and flags, the same path and the same
sizes, except that NaNs may have different payloads. -/
inductive Alike : Settings → Settings → Prop
  | minkowski (c : Int32) : Alike (.minkowski c) (.minkowski c)
  | glide (c : Int32) {path path' : Value} (h : path.Alike path') :
      Alike (.glide c path) (.glide c path')
  | subdivision (c : Int32) (level : UInt32) (scheme : Scheme) :
      Alike (.subdivision c level scheme) (.subdivision c level scheme)
  | hull : Alike .hull .hull
  | resize {size size' : Axes Binary64} (x : size.x.Alike size'.x) (y : size.y.Alike size'.y)
      (z : size.z.Alike size'.z) (auto : Axes Bool) : Alike (.resize size auto) (.resize size' auto)

/-- Whether a string inside a vector of the path contains a double quote. -/
def nestsQuote : Settings → Bool
  | glide _ path => path.nestsQuote
  | _ => false

lemma Alike.chars_eq {p q : Settings} (h : p.Alike q) : p.chars = q.chars := by
  cases h with
  | glide c h => rw [chars, chars, innerChars_glide, innerChars_glide, h.chars_eq]; rfl
  | resize x y z auto =>
      rw [chars, chars, innerChars_resize, innerChars_resize, Axes.chars, Axes.chars,
        Binary64.chars_eq_iff.mpr x, Binary64.chars_eq_iff.mpr y, Binary64.chars_eq_iff.mpr z]
      rfl
  | _ => rfl

/-! ## Cutting the text of settings -/

/-- The keyword ends at the parenthesis, so the operator and what stands between the parentheses
can be told. -/
lemma operator_innerChars_of_chars_eq {p q : Settings} (h : p.chars = q.chars) :
    p.operator = q.operator ∧ p.innerChars = q.innerChars := by
  have hkeyword : ∀ op : Operator, ∀ c ∈ op.keyword.toList, (c != '(') = true := by
    intro op
    cases op <;> exact List.all_eq_true.mp rfl
  obtain ⟨hname, hinner⟩ := append_inj_of_runs (hkeyword _) (hkeyword _) (by simp) (by simp) h
  constructor
  · revert hname
    cases p.operator <;> cases q.operator <;> simp [Operator.keyword]
  · exact List.append_cancel_right (List.cons.inj hinner).2

/-- An integer behind a text that ends with a blank is told from the right. -/
lemma append_intChars_inj {cs cs' : List Char} {i j : ℤ}
    (h : cs ++ ' ' :: intChars i = cs' ++ ' ' :: intChars j) :
    cs = cs' ∧ intChars i = intChars j := by
  have hrun : ∀ k : ℤ, ∀ c ∈ (intChars k).reverse, continuesWord c = true := by
    intro k c hc
    exact continuesWord_of_mem_intChars c (List.mem_reverse.mp hc)
  have hreverse : (intChars i).reverse ++ ' ' :: cs.reverse
      = (intChars j).reverse ++ ' ' :: cs'.reverse := by
    simpa using congrArg List.reverse h
  obtain ⟨hint, hcs⟩ := append_cons_inj_of_words rfl (hrun i) (hrun j) hreverse
  exact ⟨List.reverse_injective hcs, List.reverse_injective hint⟩

/-- The path of a glide and its convexity. -/
lemma glide_inj {c c' : Int32} {path path' : Value}
    (h : (glide c path).innerChars = (glide c' path').innerChars) :
    path.chars = path'.chars ∧ c = c' := by
  have hsplit (c : Int32) (path : Value) : (glide c path).innerChars =
      ("path = ".toList ++ path.chars ++ ", convexity =".toList) ++ ' ' :: intChars c.toInt := by
    rw [innerChars_glide]
    simp
  rw [hsplit, hsplit] at h
  obtain ⟨hpath, hint⟩ := append_intChars_inj h
  exact ⟨List.append_cancel_left (List.append_cancel_right hpath), int32Chars_injective hint⟩

lemma subdivision_inj {c c' : Int32} {level level' : UInt32} {scheme scheme' : Scheme}
    (h : (subdivision c level scheme).innerChars = (subdivision c' level' scheme').innerChars) :
    c = c' ∧ level = level' ∧ scheme = scheme' := by
  have hrun (n : ℕ) : ∀ c ∈ natChars n, continuesWord c = true := fun c hc =>
    continuesWord_of_mem_natChars hc
  have hlevel : ", level = ".toList = ',' :: " level = ".toList := rfl
  have hconvexity : ", convexity = ".toList = ',' :: " convexity = ".toList := rfl
  rw [innerChars_subdivision, innerChars_subdivision, hlevel, hconvexity] at h
  simp only [List.append_assoc, List.append_cancel_left_eq, List.cons_append] at h
  obtain ⟨hscheme, h⟩ := append_cons_inj_of_words rfl (hrun _) (hrun _) h
  simp only [List.append_cancel_left_eq] at h
  obtain ⟨hlevels, h⟩ := append_cons_inj_of_words rfl (hrun _) (hrun _) h
  refine ⟨int32Chars_injective (List.append_cancel_left h),
    UInt32.toNat_inj.mp (natChars_injective hlevels), ?_⟩
  have hcode := natChars_injective hscheme
  revert hcode
  cases scheme <;> cases scheme' <;> simp [Scheme.code]

lemma resize_inj {size size' : Axes Binary64} {auto auto' : Axes Bool}
    (h : (resize size auto).innerChars = (resize size' auto').innerChars) :
    (resize size auto).Alike (resize size' auto') := by
  rw [innerChars_resize, innerChars_resize] at h
  simp only [List.append_assoc, List.append_cancel_left_eq] at h
  obtain ⟨⟨hx, hy, hz⟩, h⟩ := Axes.chars_inj Binary64.continuesWord_of_mem_chars h
  have hflags : auto.chars flagChars ++ [] = auto'.chars flagChars ++ [] := by simpa using h
  obtain ⟨⟨hx', hy', hz'⟩, -⟩ := Axes.chars_inj continuesWord_of_mem_flagChars hflags
  obtain rfl : auto = auto' := by
    cases auto
    cases auto'
    simp only at hx' hy' hz'
    rw [flagChars_injective hx', flagChars_injective hy', flagChars_injective hz']
  exact .resize (Binary64.chars_eq_iff.mp hx) (Binary64.chars_eq_iff.mp hy)
    (Binary64.chars_eq_iff.mp hz) auto

/-! ## The text as a key -/

/-- **The canonical text says which settings they are**, when no string inside a vector of a path
contains a quote. -/
theorem text_eq_iff_alike (p q : Settings) (hp : p.nestsQuote = false)
    (hq : q.nestsQuote = false) : p.text = q.text ↔ p.Alike q := by
  rw [text, text, String.ofList_inj]
  constructor
  · intro h
    obtain ⟨hop, hinner⟩ := operator_innerChars_of_chars_eq h
    cases p with
    | minkowski c =>
        cases q with
        | minkowski c' =>
            rw [innerChars_minkowski, innerChars_minkowski] at hinner
            obtain rfl := int32Chars_injective (List.append_cancel_left hinner)
            exact .minkowski c
        | _ => cases hop
    | glide c path =>
        cases q with
        | glide c' path' =>
            obtain ⟨hpath, rfl⟩ := glide_inj hinner
            exact .glide c (Value.alike_of_chars_eq hp hq hpath)
        | _ => cases hop
    | subdivision c level scheme =>
        cases q with
        | subdivision c' level' scheme' =>
            obtain ⟨rfl, rfl, rfl⟩ := subdivision_inj hinner
            exact .subdivision c level scheme
        | _ => cases hop
    | hull =>
        cases q with
        | hull => exact .hull
        | _ => cases hop
    | resize size auto =>
        cases q with
        | resize size' auto' => exact resize_inj hinner
        | _ => cases hop
  · exact Alike.chars_eq

/-- Two NaNs of different payloads, next to a string, in paths that share their text. -/
theorem text_eq_iff_alike_of_nan_payloads :
    (glide (-3) (.vector [.string "[0 : 1]", .number ⟨0x7FF8000000000000⟩])).text =
      (glide (-3) (.vector [.string "[0 : 1]", .number ⟨0xFFF0000000000001⟩])).text :=
  (text_eq_iff_alike _ _ rfl rfl).mpr (.glide (-3) (.vector (.cons (.string _)
    (.cons (.number (Or.inr ⟨rfl, rfl⟩)) .nil))))

/-- **A quote inside a string can end it early**: the text of one string between brackets is that of
two strings, and so settings with different paths have one text. -/
theorem text_eq_of_quoted_item :
    (glide 0 (.vector [.string "a", .string "b"])).text =
        (glide 0 (.vector [.string "a\", \"b"])).text ∧
      ¬(glide 0 (.vector [.string "a", .string "b"])).Alike
        (glide 0 (.vector [.string "a\", \"b"])) := by
  refine ⟨rfl, ?_⟩
  rintro (_ | ⟨_, hpath⟩)
  rcases hpath with _ | _ | _ | _ | hitems
  rcases hitems with _ | ⟨_, htail⟩
  cases htail

/-! ## Which settings share a text -/

/-- Settings with one text are alike, or their paths have one text and all else is the same. -/
lemma alike_or_glide_of_chars_eq {p q : Settings} (h : p.chars = q.chars) :
    p.Alike q ∨
      ∃ c path path', p = glide c path ∧ q = glide c path' ∧ path.chars = path'.chars := by
  obtain ⟨hop, hinner⟩ := operator_innerChars_of_chars_eq h
  cases p with
  | glide c path =>
      cases q with
      | glide c' path' =>
          obtain ⟨hpath, rfl⟩ := glide_inj hinner
          exact .inr ⟨c, path, path', rfl, rfl, hpath⟩
      | _ => cases hop
  | minkowski c =>
      cases q with
      | minkowski c' =>
          rw [innerChars_minkowski, innerChars_minkowski] at hinner
          rw [int32Chars_injective (List.append_cancel_left hinner)]
          exact .inl (.minkowski c')
      | _ => cases hop
  | subdivision c level scheme =>
      cases q with
      | subdivision c' level' scheme' =>
          obtain ⟨rfl, rfl, rfl⟩ := subdivision_inj hinner
          exact .inl (.subdivision c level scheme)
      | _ => cases hop
  | hull =>
      cases q with
      | hull => exact .inl .hull
      | _ => cases hop
  | resize size auto =>
      cases q with
      | resize size' auto' => exact .inl (resize_inj hinner)
      | _ => cases hop

/-- Settings nest no quote when they have no path, when the path is a string by itself, or when it
has no string in it at all. -/
lemma nestsQuote_eq_false {p : Settings}
    (h : ∀ c path, p = glide c path → (∃ s, path = .string s) ∨ path.isStringFree = true) :
    p.nestsQuote = false := by
  cases p with
  | glide c path =>
      rcases h c path rfl with ⟨s, rfl⟩ | hfree
      · rfl
      · exact path.nestsQuote_of_isStringFree hfree
  | _ => rfl

/-- **Only a quote inside a string inside a vector lets two texts collide.**  Settings that share a
text and are not alike are those of two glides with one convexity, and in one of the paths a string
inside a vector contains a quote.  So the text says which settings they are when no path is like
that; and none is when there is no path, when the path is a string by itself, whatever characters it
has, or when it has no string in it, like numbers in vectors of any depth. -/
theorem text_collides_by_nested_quote :
    (∀ p q : Settings, p.text = q.text → ¬p.Alike q →
      ∃ c path path', p = glide c path ∧ q = glide c path' ∧
        (path.nestsQuote = true ∨ path'.nestsQuote = true)) ∧
    (∀ p q : Settings, p.nestsQuote = false → q.nestsQuote = false →
      p.text = q.text → p.Alike q) ∧
    ∀ p : Settings,
      (∀ c path, p = glide c path → (∃ s, path = .string s) ∨ path.isStringFree = true) →
        p.nestsQuote = false := by
  have hcollide : ∀ p q : Settings, p.text = q.text → ¬p.Alike q →
      ∃ c path path', p = glide c path ∧ q = glide c path' ∧
        (path.nestsQuote = true ∨ path'.nestsQuote = true) := by
    intro p q h hdiffer
    have hchars : p.chars = q.chars := String.ofList_inj.mp h
    rcases alike_or_glide_of_chars_eq hchars with halike | ⟨c, path, path', rfl, rfl, hpath⟩
    · exact absurd halike hdiffer
    · refine ⟨c, path, path', rfl, rfl, ?_⟩
      by_contra hquote
      simp only [not_or, Bool.not_eq_true] at hquote
      exact hdiffer (.glide c (Value.alike_of_chars_eq hquote.1 hquote.2 hpath))
  refine ⟨hcollide, fun p q hp hq h => ?_, fun p => nestsQuote_eq_false⟩
  by_contra hdiffer
  obtain ⟨c, path, path', rfl, rfl, hquote⟩ := hcollide p q h hdiffer
  rcases hquote with hquote | hquote
  · exact Bool.noConfusion (hquote.symm.trans hp)
  · exact Bool.noConfusion (hquote.symm.trans hq)

/-- Two paths of two strings each, of which the quotes can be taken for those around an item; two
NaNs by themselves; and a path of numbers. -/
theorem text_collides_by_nested_quote_of_shifted_comma :
    ((glide 7 (.vector [.string "x\", \"y", .string "z"])).text =
        (glide 7 (.vector [.string "x", .string "y\", \"z"])).text ∧
      ∃ c path path', glide 7 (.vector [.string "x\", \"y", .string "z"]) = glide c path ∧
        glide 7 (.vector [.string "x", .string "y\", \"z"]) = glide c path' ∧
        (path.nestsQuote = true ∨ path'.nestsQuote = true)) ∧
    (glide 7 (.number ⟨0x7FF8000000000000⟩)).Alike (glide 7 (.number ⟨0xFFF0000000000001⟩)) ∧
    (glide 7 (.vector [.vector [.number ⟨0⟩], .range ⟨0⟩ ⟨0⟩ ⟨0⟩])).nestsQuote = false := by
  have hnan : (glide 7 (.number ⟨0x7FF8000000000000⟩)).text =
      (glide 7 (.number ⟨0xFFF0000000000001⟩)).text :=
    congrArg String.ofList (Alike.chars_eq (.glide 7 (.number (Or.inr ⟨rfl, rfl⟩))))
  refine ⟨⟨rfl, text_collides_by_nested_quote.1 _ _ rfl ?_⟩,
    text_collides_by_nested_quote.2.1 _ _ rfl rfl hnan,
    text_collides_by_nested_quote.2.2 _ fun c path h => ?_⟩
  · rintro (_ | ⟨_, hpath⟩)
    rcases hpath with _ | _ | _ | _ | hitems
    rcases hitems with _ | ⟨hhead, _⟩
    exact absurd hhead.chars_eq (by decide)
  · cases h
    exact .inr rfl

end Settings

end SolidOps
