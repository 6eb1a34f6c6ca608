import Mathlib
import SolidOps.Text.Lowercase

/-!
# Which texts have a given lowercase

A keyword is compared after lowercasing, so what is accepted for it is whatever has it for a
lowercase, and that is a question about all of Unicode.  For a keyword in ASCII the answer is short:

* `StandsFor` says which characters may stand for a character of the keyword: the character itself,
  its capital, and for `k` also the Kelvin sign.
* `Spells` says so of a text and a keyword, one character after the other.

The case table has few ways into ASCII (`CaseTable.run_cases`): the run of the capitals, the Kelvin
sign, and nothing else.  The two rules that are not in the table lead out of ASCII.  The dotted
capital I becomes two characters, of which the second one is not ASCII, and a capital sigma becomes
one of two small sigmas.  So neighbours play no part, although the rule for sigma looks at them.

**`lowercase_eq_iff_spells`** is the result for whole texts.
-/

namespace SolidOps

/-! ## Characters that stand for another one -/

/-- The sign for the unit kelvin, U+212A, which looks like a capital K. -/
def kelvinSign : Char := Char.ofNat 0x212A

/-- A character may be written for `d`: as it is, as a capital, and for `k` as the Kelvin sign. -/
def StandsFor (c d : Char) : Prop := c = d ∨ c = d.toUpper ∨ c = kelvinSign ∧ d = 'k'

instance (c d : Char) : Decidable (StandsFor c d) :=
  inferInstanceAs (Decidable (c = d ∨ c = d.toUpper ∨ c = kelvinSign ∧ d = 'k'))

/-- A text is a keyword character by character, up to what may stand for each. -/
def Spells (s keyword : String) : Prop := List.Forall₂ StandsFor s.toList keyword.toList

/-- ASCII characters other than capitals, the ones that keywords are made of. -/
def IsPlain (d : Char) : Prop := d.toNat < 0x80 ∧ ¬(0x41 ≤ d.toNat ∧ d.toNat ≤ 0x5A)

instance (d : Char) : Decidable (IsPlain d) :=
  inferInstanceAs (Decidable (d.toNat < 0x80 ∧ ¬(0x41 ≤ d.toNat ∧ d.toNat ≤ 0x5A)))

/-! ## Ways into ASCII -/

namespace CaseTable

/-- A run of the case table is that of the capitals, the Kelvin sign by itself, or it stays outside
of ASCII, and then it leads from characters to characters. -/
lemma run_cases : ∀ run ∈ lowercaseRuns,
    (run.first = 0x41 ∧ run.last = 0x5A ∧ run.target = 0x61) ∨
      (run.first = 0x212A ∧ run.last = 0x212A ∧ run.target = 0x6B) ∨
      (0x80 ≤ run.first ∧ 0x80 ≤ run.target ∧
        (run.target + (run.last - run.first) < 0xD800 ∨
          0xDFFF < run.target ∧ run.target + (run.last - run.first) < 0x110000)) := by
  decide +kernel

lemma covers_iff {run : Run} {code : ℕ} : run.covers code = true ↔
    run.first ≤ code ∧ code ≤ run.last ∧ (code - run.first) % run.step = 0 := by
  simp only [Run.covers, Bool.and_eq_true, decide_eq_true_eq, beq_iff_eq, and_assoc]

/-- The run that is found for a code point covers it. -/
lemma covers_of_find? {run : Run} {code : ℕ}
    (h : lowercaseRuns.find? (fun run => run.covers code) = some run) :
    run ∈ lowercaseRuns ∧ run.first ≤ code ∧ code ≤ run.last := by
  have hcovers : run.covers code = true :=
    List.find?_some (p := fun run : Run => run.covers code) h
  obtain ⟨hfirst, hlast, -⟩ := covers_iff.mp hcovers
  exact ⟨List.mem_of_find?_eq_some h, hfirst, hlast⟩

lemma exists_capitals : ∃ run ∈ lowercaseRuns,
    run.first = 0x41 ∧ run.last = 0x5A ∧ run.step = 1 := by
  decide +kernel

/-- Every capital is in the table. -/
lemma exists_find?_of_capital (code : ℕ) (hfirst : 0x41 ≤ code) (hlast : code ≤ 0x5A) :
    ∃ run, lowercaseRuns.find? (fun run => run.covers code) = some run := by
  obtain ⟨run, hmem, hrun⟩ := exists_capitals
  rw [← Option.isSome_iff_exists, List.find?_isSome]
  refine ⟨run, hmem, covers_iff.mpr ?_⟩
  rw [hrun.2.2, Nat.mod_one]
  omega

end CaseTable

variable {c d : Char}

lemma toNat_toUpper (d : Char) :
    d.toUpper.toNat = if 0x61 ≤ d.toNat ∧ d.toNat ≤ 0x7A then d.toNat - 0x20 else d.toNat := by
  have hcase : ('a'.val ≤ d.val ∧ d.val ≤ 'z'.val) ↔ 0x61 ≤ d.toNat ∧ d.toNat ≤ 0x7A := Iff.rfl
  have hshift : ('A'.val - 'a'.val).toNat = 2 ^ 32 - 0x20 := rfl
  rw [Char.toUpper]
  by_cases h : 'a'.val ≤ d.val ∧ d.val ≤ 'z'.val
  · rw [dif_pos h, if_pos (hcase.mp h)]
    show (d.val + ('A'.val - 'a'.val)).toNat = _
    rw [UInt32.toNat_add, hshift, d.toNat_val]
    have := hcase.mp h
    omega
  · rw [dif_neg h, if_neg (hcase.not.mp h)]

/-- No plain character is in the case table. -/
lemma lowercaseOf_of_isPlain (hd : IsPlain d) : lowercaseOf d = [d] := by
  obtain ⟨hascii, hcapital⟩ := hd
  rw [lowercaseOf, if_neg (by omega)]
  cases hfind : CaseTable.lowercaseRuns.find? fun run => run.covers d.toNat with
  | none => rfl
  | some run =>
      obtain ⟨hmem, hfirst, hlast⟩ := CaseTable.covers_of_find? hfind
      rcases CaseTable.run_cases run hmem with h | h | h <;> omega

lemma lowercaseOf_toUpper (hd : IsPlain d) : lowercaseOf d.toUpper = [d] := by
  have hupper := toNat_toUpper d
  by_cases hletter : 0x61 ≤ d.toNat ∧ d.toNat ≤ 0x7A
  · -- a run of the table covers the capital, and it can only be the one of the capitals
    rw [if_pos hletter] at hupper
    obtain ⟨run, hfind⟩ :=
      CaseTable.exists_find?_of_capital d.toUpper.toNat (by omega) (by omega)
    obtain ⟨hmem, hfirst, hlast⟩ := CaseTable.covers_of_find? hfind
    have himage : run.image d.toUpper.toNat = d.toNat := by
      rw [CaseTable.Run.image]
      rcases CaseTable.run_cases run hmem with h | h | h <;> omega
    rw [lowercaseOf, if_neg (by omega), hfind]
    show [Char.ofNat (run.image d.toUpper.toNat)] = [d]
    rw [himage, Char.ofNat_toNat]
  · rw [if_neg hletter] at hupper
    rw [Char.toNat_inj.mp hupper, lowercaseOf_of_isPlain hd]

lemma lowercaseOf_kelvinSign : lowercaseOf kelvinSign = ['k'] := by
  decide

/-- Only what stands for a plain character has it for a lowercase. -/
lemma standsFor_of_lowercaseOf (hd : IsPlain d) (h : lowercaseOf c = [d]) : StandsFor c d := by
  obtain ⟨hascii, hcapital⟩ := hd
  rw [lowercaseOf] at h
  split at h
  · simp at h
  · cases hfind : CaseTable.lowercaseRuns.find? fun run => run.covers c.toNat with
    | none =>
        rw [hfind] at h
        exact Or.inl (List.singleton_inj.mp h)
    | some run =>
        rw [hfind] at h
        obtain ⟨hmem, hfirst, hlast⟩ := CaseTable.covers_of_find? hfind
        have himage : (Char.ofNat (run.target + (c.toNat - run.first))).toNat = d.toNat :=
          congrArg Char.toNat (List.singleton_inj.mp h)
        rw [Char.toNat_ofNat] at himage
        rcases CaseTable.run_cases run hmem with hcapitals | hkelvin | ⟨-, htarget, hvalid⟩
        · rw [if_pos (by omega)] at himage
          have hupper := toNat_toUpper d
          rw [if_pos (by omega)] at hupper
          exact Or.inr (Or.inl (Char.toNat_inj.mp (by omega)))
        · rw [if_pos (by omega)] at himage
          have hc : c.toNat = kelvinSign.toNat := by
            rw [show kelvinSign.toNat = 0x212A from rfl]
            omega
          have hk : d.toNat = 'k'.toNat := by
            rw [show 'k'.toNat = 0x6B from rfl]
            omega
          exact Or.inr (Or.inr ⟨Char.toNat_inj.mp hc, Char.toNat_inj.mp hk⟩)
        · rw [if_pos (by omega)] at himage
          omega

/-- **The characters whose lowercase is a plain character** are those that stand for it. -/
lemma lowercaseOf_eq_iff_standsFor (hd : IsPlain d) : lowercaseOf c = [d] ↔ StandsFor c d := by
  constructor
  · exact standsFor_of_lowercaseOf hd
  · rintro (rfl | rfl | ⟨rfl, rfl⟩)
    · exact lowercaseOf_of_isPlain hd
    · exact lowercaseOf_toUpper hd
    · exact lowercaseOf_kelvinSign

/-! ## The two rules beside the table -/

/-- The lowercase of a character is one character, or it has one in it that is not ASCII. -/
lemma lowercaseOf_cases (c : Char) :
    (∃ x, lowercaseOf c = [x]) ∨ ∃ x y, lowercaseOf c = [x, y] ∧ ¬IsPlain y := by
  rw [lowercaseOf]
  split
  · exact Or.inr ⟨_, _, rfl, by decide⟩
  · split <;> exact Or.inl ⟨_, rfl⟩

/-- Neither of the small sigmas is ASCII, and neither is the capital. -/
lemma sigmaBetween_ne (before after : List Char) (hd : IsPlain d) :
    sigmaBetween before after ≠ d := by
  rw [sigmaBetween]
  split <;> (rintro rfl; exact absurd hd (by decide))

lemma not_standsFor_of_sigma (hc : c.toNat = 0x3A3) (hd : IsPlain d) : ¬StandsFor c d := by
  have hupper := toNat_toUpper d
  obtain ⟨hascii, -⟩ := hd
  rintro (rfl | rfl | ⟨rfl, rfl⟩)
  · omega
  · split at hupper <;> omega
  · exact absurd hc (by decide)

/-! ## Texts -/

/-- After any text, what has a plain lowercase is what stands for it, character by character. -/
lemma lowercaseAfter_eq_iff (before cs : List Char) {ds : List Char} (hds : ∀ d ∈ ds, IsPlain d) :
    lowercaseAfter before cs = ds ↔ List.Forall₂ StandsFor cs ds := by
  induction cs generalizing before ds with
  | nil => rw [lowercaseAfter, List.forall₂_nil_left_iff, eq_comm]
  | cons c rest ih =>
      rw [lowercaseAfter]
      cases ds with
      | nil =>
          rcases lowercaseOf_cases c with ⟨x, hx⟩ | ⟨x, y, hx, -⟩ <;> split <;> simp [hx]
      | cons d ds =>
          rw [List.forall_mem_cons] at hds
          obtain ⟨hd, hds⟩ := hds
          rw [List.forall₂_cons, ← ih (c :: before) hds]
          by_cases hsigma : c.toNat = 0x3A3
          · rw [if_pos hsigma]
            simp [sigmaBetween_ne before rest hd, not_standsFor_of_sigma hsigma hd]
          · rw [if_neg hsigma, ← lowercaseOf_eq_iff_standsFor hd]
            rcases lowercaseOf_cases c with ⟨x, hx⟩ | ⟨x, y, hx, hy⟩
            · simp [hx]
            · -- the second character would have to be the next one of the keyword
              have hne : y :: lowercaseAfter (c :: before) rest ≠ ds := by
                rintro rfl
                exact hy (hds y List.mem_cons_self)
              simp [hx, hne]

/-- **A text has a plain keyword for its lowercase** exactly when it spells the keyword: each of its
characters is the one of the keyword, the capital of that, or the Kelvin sign for a `k`. -/
theorem lowercase_eq_iff_spells {keyword : String} (h : ∀ d ∈ keyword.toList, IsPlain d)
    (s : String) : lowercase s = keyword ↔ Spells s keyword := by
  rw [lowercase, Spells, ← lowercaseAfter_eq_iff [] s.toList h]
  constructor
  · rintro rfl
    rw [String.toList_ofList]
  · intro hlower
    rw [hlower, String.ofList_toList]

end SolidOps
