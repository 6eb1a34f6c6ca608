import SolidOps.Proofs.Interchange
import SolidOps.Proofs.Numeric.Truncation

/-!
# Normal form of JSON text

A reader takes many spellings of one thing: members in any order and strange ones among them,
records as arrays, numerals of any length, escapes, blanks.  A writer has one.  To read a text and
write what was read is to normalise it (`Interchange.normalised?`), and a text that has been
normalised stays as it is.

What could go wrong is that a spelling gives something that the writer cannot express, or can
express only with more containers than the reader opens.  `Interchange.Fits` rules out both: finite
numbers throughout, and a tree that is no deeper than there is room.

* `Numeral.isFinite_of_toBinary64?`: a numeral of any length and exponent is read as a finite
  number or refused.
* `Value.fits_of_ofJson?`, `Settings.fits_of_ofJson?`, `Diagnostic.fits_of_ofJson?`: whatever is
  read from a tree fits into the room it was read with.  Of a tree only the parts that are read
  matter here, so a tree may well be deeper than the room.
* **`Interchange.normalised_text_stays`**: with the round trip, what is read from an accepted text
  is read again from its own text.
-/

namespace SolidOps

namespace Interchange

/-- The text that a text is normalised to: what is read from it, written. -/
def normalised? (α : Type) [Interchange α] (room : ℕ) (text : String) : Option String :=
  (readWithin? room text : Option α).map write

/-- Something with the given numbers and the given tree can be written, and be read again with the
given room. -/
def Fits (room : ℕ) (numbers : List Binary64) (tree : Json) : Prop :=
  (∀ x ∈ numbers, x.isFinite) ∧ tree.depth ≤ room

lemma fits_of_no_numbers {room : ℕ} {tree : Json} (h : tree.depth ≤ room) : Fits room [] tree :=
  ⟨by simp, h⟩

end Interchange

open Interchange (Fits fits_of_no_numbers)

/-! ## Numbers -/

/-- **A numeral is read as a finite number or not at all**; what rounds to infinity is refused. -/
lemma Numeral.isFinite_of_toBinary64? {n : Numeral} {x : Binary64} (h : n.toBinary64? = some x) :
    x.isFinite := by
  rw [toBinary64?] at h
  generalize (n.decimal.abridge significantDigits).nearestMagnitude = m at h
  obtain ⟨hm, hx⟩ := Option.ite_none_right_eq_some.mp h
  have hsign : m < Binary64.signBit := hm.trans (by decide)
  obtain rfl := Option.some.inj hx
  rw [Binary64.isFinite, Binary64.magnitude_ofMagnitude hsign]
  exact decide_eq_true hm

namespace Json

lemma isFinite_of_toBinary64? {j : Json} {x : Binary64} (h : j.toBinary64? = some x) :
    x.isFinite := by
  cases j with
  | number n =>
      have hnumeral : n.toBinary64? = some x := h
      exact Numeral.isFinite_of_toBinary64? hnumeral
  | _ => cases h

/-! ## Containers -/

lemma opened?_eq_some_iff {room room' : ℕ} : opened? room = some room' ↔ room = room' + 1 := by
  cases room <;> simp [opened?]

/-- Three things that are read from an array, which is a container, are each read from an item. -/
lemma exists_of_toAxes? {α : Type} {item? : Json → Option α} {room : ℕ} {j : Json} {a : Axes α}
    (h : j.toAxes? item? room = some a) : 1 ≤ room ∧ ∀ x ∈ a.toList, ∃ k, item? k = some x := by
  rw [toAxes?.eq_def] at h
  split at h
  · simp only [Option.bind_eq_bind, Option.bind_eq_some_iff, opened?_eq_some_iff,
      Option.some.injEq] at h
    obtain ⟨room', rfl, x, hx, y, hy, z, hz, rfl⟩ := h
    refine ⟨by omega, ?_⟩
    simp only [Axes.toList, List.forall_mem_cons]
    exact ⟨⟨_, hx⟩, ⟨_, hy⟩, ⟨_, hz⟩, by simp⟩
  · cases h

end Json

/-! ## Values -/

namespace Value

lemma fits_of_rangeOfJson? {room : ℕ} {j : Json} {v : Value} (h : rangeOfJson? room j = some v) :
    Fits (room + 1) v.numbers v.toJson := by
  simp only [rangeOfJson?, Option.bind_eq_bind, Option.bind_eq_some_iff,
    Json.opened?_eq_some_iff] at h
  obtain ⟨room', rfl, fields, -, hv⟩ := h
  split at hv
  · simp only [Option.bind_eq_some_iff, Option.some.injEq] at hv
    obtain ⟨start, hstart, step, hstep, stop, hstop, rfl⟩ := hv
    have hdepth : (range start step stop).toJson.depth = 2 := by
      simp [toJson, Json.record, Json.depth, Json.depthOfMembers]
    refine ⟨?_, by omega⟩
    simp only [numbers, List.forall_mem_cons]
    exact ⟨Json.isFinite_of_toBinary64? hstart, Json.isFinite_of_toBinary64? hstep,
      Json.isFinite_of_toBinary64? hstop, by simp⟩
  · cases hv

/-- The items of a vector fit together when each of them fits. -/
lemma fits_of_mapM {room : ℕ} {read? : Json → Option Value}
    (hread : ∀ {j v}, read? j = some v → Fits room v.numbers v.toJson) {js : List Json}
    {items : List Value} (h : js.mapM read? = some items) :
    Fits (room + 2) (vector items).numbers (vector items).toJson := by
  rw [Fits, numbers, toJson, Json.depth_tagged, Json.depth, Nat.add_le_add_iff_right,
    Nat.add_le_add_iff_right]
  induction js generalizing items with
  | nil =>
      obtain rfl := Option.some.inj h
      simp [numbersOfItems, itemsToJson, Json.depthOfItems]
  | cons j js ih =>
      simp only [List.mapM_cons, Option.bind_eq_bind, Option.bind_eq_some_iff, Option.pure_def,
        Option.some.injEq] at h
      obtain ⟨item, hitem, rest, hrest, rfl⟩ := h
      obtain ⟨hfinite, hdepth⟩ := hread hitem
      obtain ⟨hfinite', hdepth'⟩ := ih hrest
      rw [numbersOfItems, itemsToJson, Json.depthOfItems]
      exact ⟨List.forall_mem_append.mpr ⟨hfinite, hfinite'⟩, max_le hdepth hdepth'⟩

/-- **A value that is read fits into the room it was read with.**  The items of a vector are read
with less room, so the induction is on the room. -/
lemma fits_of_ofJson? {room : ℕ} {j : Json} {v : Value} (h : ofJson? room j = some v) :
    Fits room v.numbers v.toJson := by
  induction room using Nat.strong_induction_on generalizing j v with
  | _ room ih =>
      rw [ofJson?.eq_def] at h
      split at h
      · -- a bare name, which only `undefined` has
        obtain ⟨-, hv⟩ := Option.ite_none_right_eq_some.mp h
        obtain rfl := Option.some.inj hv
        exact fits_of_no_numbers (by simp [toJson])
      · split_ifs at h
        · obtain rfl := Option.some.inj h
          exact fits_of_no_numbers (by simp [toJson])
        · obtain ⟨b, -, rfl⟩ := Option.map_eq_some_iff.mp h
          exact fits_of_no_numbers (by simp [toJson, Json.depth])
        · obtain ⟨x, hx, rfl⟩ := Option.map_eq_some_iff.mp h
          exact ⟨by simpa [numbers] using Json.isFinite_of_toBinary64? hx, by simp [toJson]⟩
        · obtain ⟨s, -, rfl⟩ := Option.map_eq_some_iff.mp h
          exact fits_of_no_numbers (by simp [toJson, Json.depth])
        · split at h
          · obtain ⟨items, hitems, rfl⟩ := Option.map_eq_some_iff.mp h
            exact fits_of_mapM (ih _ (by omega)) hitems
          · cases h
        · exact fits_of_rangeOfJson? h
      · cases h

end Value

/-! ## Settings -/

namespace Settings

/-- The settings of an operator take one container more than the contents of its case. -/
lemma fits_of_contentsOfJson? {op : Operator} {room : ℕ} {j : Json} {s : Settings}
    (h : contentsOfJson? op room j = some s) : Fits (room + 1) s.numbers s.toJson := by
  cases op with
  | hull =>
      obtain ⟨-, hs⟩ := Option.ite_none_right_eq_some.mp h
      obtain rfl := Option.some.inj hs
      exact fits_of_no_numbers (by simp [toJson])
  | minkowski =>
      simp only [contentsOfJson?, Option.bind_eq_bind, Option.bind_eq_some_iff,
        Json.opened?_eq_some_iff] at h
      obtain ⟨room', rfl, fields, -, hs⟩ := h
      split at hs
      · obtain ⟨c, -, hs⟩ := Option.bind_eq_some_iff.mp hs
        obtain rfl := Option.some.inj hs
        exact fits_of_no_numbers (by simp [toJson, Json.record, Json.depth, Json.depthOfMembers])
      · cases hs
  | glide =>
      simp only [contentsOfJson?, Option.bind_eq_bind, Option.bind_eq_some_iff,
        Json.opened?_eq_some_iff] at h
      obtain ⟨room', rfl, fields, -, hs⟩ := h
      split at hs
      · simp only [Option.bind_eq_some_iff, Option.some.injEq] at hs
        obtain ⟨c, -, path, hpath, rfl⟩ := hs
        obtain ⟨hfinite, hdepth⟩ := Value.fits_of_ofJson? hpath
        refine ⟨hfinite, ?_⟩
        simpa [toJson, Json.record, Json.depth, Json.depthOfMembers] using hdepth
      · cases hs
  | subdivision =>
      simp only [contentsOfJson?, Option.bind_eq_bind, Option.bind_eq_some_iff,
        Json.opened?_eq_some_iff] at h
      obtain ⟨room', rfl, fields, -, hs⟩ := h
      split at hs
      · simp only [Option.bind_eq_some_iff, Option.some.injEq] at hs
        obtain ⟨c, -, level, -, scheme, -, rfl⟩ := hs
        have hscheme : (Interchange.toJson scheme).depth = 0 := rfl
        refine fits_of_no_numbers ?_
        simp [toJson, Json.record, Json.depth, Json.depthOfMembers, hscheme]
      · cases hs
  | resize =>
      simp only [contentsOfJson?, Option.bind_eq_bind, Option.bind_eq_some_iff,
        Json.opened?_eq_some_iff] at h
      obtain ⟨room', rfl, fields, -, hs⟩ := h
      split at hs
      · simp only [Option.bind_eq_some_iff, Option.some.injEq] at hs
        obtain ⟨size, hsize, auto, -, rfl⟩ := hs
        obtain ⟨hroom, hnumbers⟩ := Json.exists_of_toAxes? hsize
        have hdepth : (resize size auto).toJson.depth = 3 := by
          simp [toJson, Json.record, Json.depth, Json.depthOfMembers, Json.depthOfItems,
            Axes.toList]
        refine ⟨fun x hx => ?_, by omega⟩
        obtain ⟨k, hk⟩ := hnumbers x hx
        exact Json.isFinite_of_toBinary64? hk
      · cases hs

/-- **Settings that are read fit into the room they were read with.** -/
lemma fits_of_ofJson? {room : ℕ} {j : Json} {s : Settings} (h : ofJson? room j = some s) :
    Fits room s.numbers s.toJson := by
  rw [ofJson?.eq_def] at h
  split at h
  · obtain ⟨-, hs⟩ := Option.ite_none_right_eq_some.mp h
    obtain rfl := Option.some.inj hs
    exact fits_of_no_numbers (by simp [toJson])
  · simp only [Option.bind_eq_bind, Option.bind_eq_some_iff, Json.opened?_eq_some_iff] at h
    obtain ⟨room', rfl, op, -, hs⟩ := h
    exact fits_of_contentsOfJson? hs
  · cases h

end Settings

/-! ## Diagnostics -/

lemma Diagnostic.depth_toJson (d : Diagnostic) : d.toJson.depth = 1 := by
  have hseverity : (Interchange.toJson d.severity).depth = 0 := rfl
  have hhint : (hintToJson d.hint).depth = 0 := by
    cases d.hint <;> rfl
  simp [toJson, Json.record, Json.depth, Json.depthOfMembers, hseverity, hhint]

/-- **A diagnostic that is read fits into the room it was read with.** -/
lemma Diagnostic.fits_of_ofJson? {room : ℕ} {j : Json} {d : Diagnostic}
    (h : ofJson? room j = some d) : Fits room [] d.toJson := by
  simp only [ofJson?, Option.bind_eq_bind, Option.bind_eq_some_iff,
    Json.opened?_eq_some_iff] at h
  obtain ⟨room', rfl, -⟩ := h
  refine fits_of_no_numbers ?_
  rw [depth_toJson]
  omega

/-! ## Normal form -/

namespace Interchange

/-- What it takes for something, read with some room, to have a text that is its normal form: its
numbers are finite, and with at least this room its text is read as the thing itself and is
normalised to itself. -/
structure HasNormalForm {α : Type} [Interchange α] (room : ℕ) (numbers : List Binary64) (a : α) :
    Prop where
  finite : ∀ x ∈ numbers, x.isFinite
  read_again : ∀ room', room ≤ room' → readWithin? room' (write a) = some a
  stays : ∀ room', room ≤ room' → normalised? α room' (write a) = some (write a)

/-- What is written as a tree that is read back, and fits whenever it is read, has a normal form. -/
lemma hasNormalForm_of_readWithin? {α : Type} [Interchange α] (numbers : α → List Binary64)
    (hback : ∀ a : α, ReadsAs ofJson? (toJson a) (numbers a) a)
    (hfits : ∀ {room j} {a : α}, ofJson? room j = some a → Fits room (numbers a) (toJson a))
    {room : ℕ} {text : String} {a : α} (h : readWithin? room text = some a) :
    HasNormalForm room (numbers a) a := by
  obtain ⟨j, -, hj⟩ := Option.bind_eq_some_iff.mp h
  obtain ⟨hfinite, hdepth⟩ := hfits hj
  have hagain (room' : ℕ) (hroom : room ≤ room') : readWithin? room' (write a) = some a := by
    rw [readWithin?_write, hback a room', if_pos ⟨hfinite, hdepth.trans hroom⟩]
  refine ⟨hfinite, hagain, fun room' hroom => ?_⟩
  rw [normalised?, hagain room' hroom, Option.map_some]

/-- **A normalised text stays as it is.**  Whatever text is read as settings, as a value or as a
diagnostic, with whatever room: all numbers of what is read are finite, the text written from it is
accepted and read as the same thing, number for number by their words, and is written as itself. -/
theorem normalised_text_stays (room : ℕ) (text : String) :
    (∀ s : Settings, readWithin? room text = some s → HasNormalForm room s.numbers s) ∧
    (∀ v : Value, readWithin? room text = some v → HasNormalForm room v.numbers v) ∧
    (∀ d : Diagnostic, readWithin? room text = some d → HasNormalForm room [] d) := by
  refine ⟨fun s hs => ?_, fun v hv => ?_, fun d hd => ?_⟩
  · exact hasNormalForm_of_readWithin? _ Settings.ofJson?_toJson Settings.fits_of_ofJson? hs
  · exact hasNormalForm_of_readWithin? _ Value.ofJson?_toJson Value.fits_of_ofJson? hv
  · exact hasNormalForm_of_readWithin? (fun _ => []) Diagnostic.ofJson?_toJson
      Diagnostic.fits_of_ofJson? hd

/-- A record with its fields in another order, a member that is deeper than the room, and minus zero
with an exponent; a record as an array of three zeros; blanks, and escapes of which two make one
character. -/
theorem normalised_text_stays_of_spellings :
    ((readWithin? 3
        "\x7b\"Glide\":\x7b\"path\":\x7b\"Number\":-0.0E+7\x7d,\"x\":[[]],\"convexity\":3\x7d\x7d" :
          Option Settings) = some (.glide 3 (.number ⟨0x8000000000000000⟩)) ∧
      HasNormalForm 3 [⟨0x8000000000000000⟩] (Settings.glide 3 (.number ⟨0x8000000000000000⟩))) ∧
    ((readWithin? 2 "\x7b\"Range\":[0e-9,-0.0,0]\x7d" : Option Value) =
        some (.range ⟨0⟩ ⟨0x8000000000000000⟩ ⟨0⟩) ∧
      HasNormalForm 2 [⟨0⟩, ⟨0x8000000000000000⟩, ⟨0⟩]
        (Value.range ⟨0⟩ ⟨0x8000000000000000⟩ ⟨0⟩)) ∧
    ((readWithin? 1 " [\"\\u0057arning\",\"\\t\\ud83d\\uDE00\" , null]\n" : Option Diagnostic) =
        some ⟨.warning, "\t😀", none⟩ ∧
      HasNormalForm 1 [] (⟨.warning, "\t😀", none⟩ : Diagnostic)) := by
  have hsettings : (readWithin? 3
      "\x7b\"Glide\":\x7b\"path\":\x7b\"Number\":-0.0E+7\x7d,\"x\":[[]],\"convexity\":3\x7d\x7d" :
        Option Settings) = some (.glide 3 (.number ⟨0x8000000000000000⟩)) := by
    cbv
  have hvalue : (readWithin? 2 "\x7b\"Range\":[0e-9,-0.0,0]\x7d" : Option Value) =
      some (.range ⟨0⟩ ⟨0x8000000000000000⟩ ⟨0⟩) := by
    cbv
  have hdiagnostic : (readWithin? 1
      " [\"\\u0057arning\",\"\\t\\ud83d\\uDE00\" , null]\n" : Option Diagnostic) =
        some ⟨.warning, "\t😀", none⟩ := by
    cbv
  exact ⟨⟨hsettings, (normalised_text_stays 3 _).1 _ hsettings⟩,
    ⟨hvalue, (normalised_text_stays 2 _).2.1 _ hvalue⟩,
    ⟨hdiagnostic, (normalised_text_stays 1 _).2.2 _ hdiagnostic⟩⟩

end Interchange

end SolidOps
