import Mathlib
import SolidOps.Value.Text
import SolidOps.Proofs.Text.Number

/-!
# The text of a value

When does the text of a value say which value it is?  Numbers are told apart by their texts but for
the NaNs, so the best one can hope for is the value up to those: `Value.Alike`.

Inside a vector the texts of the items stand side by side, and what tells them apart is where each
one ends.  A word ends where something comes that is not part of a word, a bracket is closed, and a
string ends with its second quote.  The last is the weak spot, since a quote inside the string is
not escaped.  `Value.nestsQuote` says that there is such a string inside a vector.

Without one, a text in front of another text can be cut off in only one way
(`Value.chars_append_inj`), by recursion over the value for any text that follows.  A string by
itself needs no care: its last quote is the end of the text (`Value.alike_of_chars_eq`).
-/

namespace SolidOps

open Json Json.Scanner

/-! ## Cutting text -/

/-- Text that runs as far as its characters have some property can be cut off in only one way. -/
lemma append_inj_of_runs {p : Char → Bool} {u u' rest rest' : List Char}
    (hu : ∀ c ∈ u, p c = true) (hu' : ∀ c ∈ u', p c = true) (hrest : ∀ c ∈ rest.head?, p c = false)
    (hrest' : ∀ c ∈ rest'.head?, p c = false) (h : u ++ rest = u' ++ rest') :
    u = u' ∧ rest = rest' := by
  have hrun : ∀ {u rest : List Char}, (∀ c ∈ u, p c = true) → (∀ c ∈ rest.head?, p c = false) →
      (u ++ rest).takeWhile p = u := by
    intro u rest hu hrest
    rw [List.takeWhile_append_of_pos hu]
    cases rest with
    | nil => simp
    | cons c cs => simp [hrest c rfl]
  obtain rfl : u = u' := by rw [← hrun hu hrest, ← hrun hu' hrest', h]
  exact ⟨rfl, List.append_cancel_left h⟩

/-- A word in front of a character that is not part of it can be cut off in only one way. -/
lemma append_cons_inj_of_words {c : Char} {u u' cs cs' : List Char} (hc : continuesWord c = false)
    (hu : ∀ c ∈ u, continuesWord c = true) (hu' : ∀ c ∈ u', continuesWord c = true)
    (h : u ++ c :: cs = u' ++ c :: cs') : u = u' ∧ cs = cs' := by
  obtain ⟨hword, hcons⟩ := append_inj_of_runs hu hu' (endsWord_cons hc cs) (endsWord_cons hc cs') h
  exact ⟨hword, (List.cons.inj hcons).2⟩

namespace Value

/-! ## Values that are alike -/

mutual

/-- Values of one structure with the same flags and strings, and with numbers that are alike one by
one. -/
inductive Alike : Value → Value → Prop
  | undefined : Alike .undefined .undefined
  | boolean (b : Bool) : Alike (.boolean b) (.boolean b)
  | number {x y : Binary64} (h : x.Alike y) : Alike (.number x) (.number y)
  | string (s : String) : Alike (.string s) (.string s)
  | vector {xs ys : List Value} (h : AlikeItems xs ys) : Alike (.vector xs) (.vector ys)
  | range {start start' step step' stop stop' : Binary64} (hstart : start.Alike start')
      (hstep : step.Alike step') (hstop : stop.Alike stop') :
      Alike (.range start step stop) (.range start' step' stop')

/-- Lists of values that are alike item by item. -/
inductive AlikeItems : List Value → List Value → Prop
  | nil : AlikeItems [] []
  | cons {x y : Value} {xs ys : List Value} (head : Alike x y) (tail : AlikeItems xs ys) :
      AlikeItems (x :: xs) (y :: ys)

end

mutual

/-- Values that are alike have one text. -/
lemma Alike.chars_eq : ∀ {v w : Value}, v.Alike w → v.chars = w.chars
  | _, _, .undefined => rfl
  | _, _, .boolean _ => rfl
  | _, _, .number h => by simp only [chars, Binary64.chars_eq_iff.mpr h]
  | _, _, .string _ => rfl
  | _, _, .vector .nil => rfl
  | _, _, .vector (.cons head tail) => by simp only [chars, head.chars_eq, tail.laterItems_eq]
  | _, _, .range hstart hstep hstop => by
      simp only [chars, Binary64.chars_eq_iff.mpr hstart, Binary64.chars_eq_iff.mpr hstep,
        Binary64.chars_eq_iff.mpr hstop]

lemma AlikeItems.laterItems_eq : ∀ {xs ys : List Value}, AlikeItems xs ys →
    laterItems xs = laterItems ys
  | _, _, .nil => rfl
  | _, _, .cons head tail => by simp only [laterItems, head.chars_eq, tail.laterItems_eq]

end

/-! ## Quotes -/

mutual

/-- Whether a string in the value, at any depth, contains a double quote. -/
def hasQuote : Value → Bool
  | string s => s.toList.contains '"'
  | vector items => itemsHaveQuote items
  | _ => false

/-- Whether a string in one of the values contains a double quote. -/
def itemsHaveQuote : List Value → Bool
  | [] => false
  | item :: items => hasQuote item || itemsHaveQuote items

end

/-- Whether a string inside a vector, at any depth, contains a double quote. -/
def nestsQuote : Value → Bool
  | vector items => itemsHaveQuote items
  | _ => false

mutual

/-- Whether no string is in the value, at any depth. -/
def isStringFree : Value → Bool
  | string _ => false
  | vector items => itemsAreStringFree items
  | _ => true

/-- Whether no string is in any of the values. -/
def itemsAreStringFree : List Value → Bool
  | [] => true
  | item :: items => isStringFree item && itemsAreStringFree items

end

mutual

lemma hasQuote_of_isStringFree : ∀ {v : Value}, v.isStringFree = true → v.hasQuote = false
  | .undefined, _ => rfl
  | .boolean _, _ => rfl
  | .number _, _ => rfl
  | .range _ _ _, _ => rfl
  | .vector _, h => itemsHaveQuote_of_itemsAreStringFree h

lemma itemsHaveQuote_of_itemsAreStringFree : ∀ {items : List Value},
    itemsAreStringFree items = true → itemsHaveQuote items = false
  | [], _ => rfl
  | item :: items, h => by
      simp only [itemsAreStringFree, Bool.and_eq_true] at h
      rw [itemsHaveQuote, hasQuote_of_isStringFree h.1,
        itemsHaveQuote_of_itemsAreStringFree h.2, Bool.or_self]

end

lemma nestsQuote_of_isStringFree (v : Value) (h : v.isStringFree = true) :
    v.nestsQuote = false := by
  cases v with
  | vector items => exact itemsHaveQuote_of_itemsAreStringFree h
  | _ => rfl

/-! ## Words -/

/-- Whether the text of a value is a word: no bracket and no quote in it. -/
def isWord : Value → Bool
  | undefined => true
  | boolean _ => true
  | number _ => true
  | _ => false

lemma continuesWord_of_isWord {v : Value} (hv : v.isWord = true) :
    ∀ c ∈ v.chars, continuesWord c = true := by
  cases v with
  | undefined => exact List.all_eq_true.mp rfl
  | boolean b => cases b <;> exact List.all_eq_true.mp rfl
  | number x => exact x.continuesWord_of_mem_chars
  | _ => simp [isWord] at hv

lemma chars_ne_nil (v : Value) : v.chars ≠ [] := by
  cases v with
  | boolean b => cases b <;> simp [chars, boolChars]
  | number x => exact x.chars_ne_word rfl (by simp)
  | vector items => cases items <;> simp [chars]
  | _ => simp [chars]

/-- Every word says which value it is. -/
lemma alike_of_isWord {v w : Value} (hv : v.isWord = true) (hw : w.isWord = true)
    (h : v.chars = w.chars) : v.Alike w := by
  cases v with
  | undefined =>
      cases w with
      | undefined => exact .undefined
      | boolean b => cases b <;> simp [chars, boolChars] at h
      | number y => exact absurd h.symm (y.chars_ne_word rfl (by decide))
      | _ => simp [isWord] at hw
  | boolean b =>
      cases w with
      | undefined => cases b <;> simp [chars, boolChars] at h
      | boolean b' =>
          cases b <;> cases b' <;> first
            | exact .boolean _
            | simp [chars, boolChars] at h
      | number y => cases b <;> exact absurd h.symm (y.chars_ne_word rfl (by decide))
      | _ => simp [isWord] at hw
  | number x =>
      cases w with
      | undefined => exact absurd h (x.chars_ne_word rfl (by decide))
      | boolean b => cases b <;> exact absurd h (x.chars_ne_word rfl (by decide))
      | number y => exact .number (Binary64.chars_eq_iff.mp h)
      | _ => simp [isWord] at hw
  | _ => simp [isWord] at hv

/-- What is not a word begins with a quote or a bracket. -/
lemma exists_chars_eq_cons {v : Value} (hv : v.isWord = false) :
    ∃ c cs, v.chars = c :: cs ∧ (c = '"' ∨ c = '[') := by
  cases v with
  | string s => exact ⟨_, _, rfl, Or.inl rfl⟩
  | vector items => cases items <;> exact ⟨_, _, rfl, Or.inr rfl⟩
  | range start step stop => exact ⟨_, _, rfl, Or.inr rfl⟩
  | _ => simp [isWord] at hv

/-- A word is cut off in front of other text in only one way, whatever the other value is. -/
lemma chars_append_inj_of_isWord {v w : Value} {rest rest' : List Char} (hv : v.isWord = true)
    (hrest : EndsWord rest) (hrest' : EndsWord rest')
    (h : v.chars ++ rest = w.chars ++ rest') : v.Alike w ∧ rest = rest' := by
  cases hw : w.isWord with
  | true =>
      obtain ⟨hchars, hrests⟩ := append_inj_of_runs (continuesWord_of_isWord hv)
        (continuesWord_of_isWord hw) hrest hrest' h
      exact ⟨alike_of_isWord hv hw hchars, hrests⟩
  | false =>
      -- the first character of the word is a bracket or a quote, which is in no word
      obtain ⟨c, cs, hc, hopen⟩ := exists_chars_eq_cons hw
      obtain ⟨c', cs', hc'⟩ := List.exists_cons_of_ne_nil v.chars_ne_nil
      rw [hc, hc', List.cons_append, List.cons_append, List.cons.injEq] at h
      have hword : continuesWord c = true := by
        rw [← h.1]
        exact continuesWord_of_isWord hv c' (by simp [hc'])
      rcases hopen with rfl | rfl <;> exact absurd hword (by decide)

/-! ## Brackets -/

lemma endsWord_laterItems (items : List Value) (rest : List Char) :
    EndsWord (laterItems items ++ rest) := by
  cases items with
  | nil => exact endsWord_cons (by decide) rest
  | cons item items => exact endsWord_cons (by decide) _

/-- No value begins with the bracket that closes a vector. -/
lemma chars_append_ne_bracket (v : Value) (rest cs : List Char) : v.chars ++ rest ≠ ']' :: cs := by
  intro h
  cases hv : v.isWord with
  | true =>
      obtain ⟨c, cs', hc⟩ := List.exists_cons_of_ne_nil v.chars_ne_nil
      rw [hc, List.cons_append, List.cons.injEq] at h
      have hword := continuesWord_of_isWord hv c (by simp [hc])
      rw [h.1] at hword
      exact absurd hword (by decide)
  | false =>
      obtain ⟨c, cs', hc, hopen⟩ := exists_chars_eq_cons hv
      rw [hc, List.cons_append, List.cons.injEq] at h
      rcases hopen with rfl | rfl <;> simp at h

/-- The items of a vector are not taken for the bounds of a range: what follows the first item is a
comma or a bracket, and what follows the first bound is a blank. -/
lemma item_append_ne_bound (v : Value) (items : List Value) (x : Binary64)
    (rest cs : List Char) :
    v.chars ++ (laterItems items ++ rest) ≠ x.chars ++ ' ' :: cs := by
  intro h
  have hnumber : (number x).chars = x.chars := rfl
  rw [← hnumber] at h
  obtain ⟨-, hrest⟩ := chars_append_inj_of_isWord (v := number x) rfl (endsWord_cons (by decide) cs)
    (endsWord_laterItems items rest) h.symm
  cases items <;> simp [laterItems] at hrest

lemma bound_append_inj {x y : Binary64} {c : Char} {cs cs' : List Char}
    (hc : continuesWord c = false) (h : x.chars ++ c :: cs = y.chars ++ c :: cs') :
    x.Alike y ∧ cs = cs' := by
  obtain ⟨hchars, hrest⟩ := append_cons_inj_of_words hc x.continuesWord_of_mem_chars
    y.continuesWord_of_mem_chars h
  exact ⟨Binary64.chars_eq_iff.mp hchars, hrest⟩

lemma range_append_inj {start step stop start' step' stop' : Binary64} {rest rest' : List Char}
    (h : (range start step stop).chars ++ rest = (range start' step' stop').chars ++ rest') :
    (range start step stop).Alike (range start' step' stop') ∧ rest = rest' := by
  simp only [chars, List.cons_append, List.append_assoc, List.cons.injEq, true_and] at h
  obtain ⟨hstart, h⟩ := bound_append_inj rfl h
  simp only [List.cons.injEq, true_and] at h
  obtain ⟨hstep, h⟩ := bound_append_inj rfl h
  simp only [List.cons.injEq, true_and] at h
  obtain ⟨hstop, h⟩ := bound_append_inj rfl h
  exact ⟨.range hstart hstep hstop, h⟩

/-! ## Strings -/

/-- Without a quote inside, the second quote is where a string ends. -/
lemma string_append_inj {s t : String} {rest rest' : List Char}
    (hs : (string s).hasQuote = false) (ht : (string t).hasQuote = false)
    (h : (string s).chars ++ rest = (string t).chars ++ rest') :
    (string s).Alike (string t) ∧ rest = rest' := by
  have hrun : ∀ {s : String}, (string s).hasQuote = false → ∀ c ∈ s.toList, (c != '"') = true := by
    intro s hs c hc
    simp only [hasQuote, List.contains_eq_mem, decide_eq_false_iff_not] at hs
    rw [bne_iff_ne]
    rintro rfl
    exact hs hc
  simp only [chars, List.cons_append, List.append_assoc, List.cons.injEq, true_and,
    List.nil_append] at h
  obtain ⟨hst, hrest⟩ := append_inj_of_runs (hrun hs) (hrun ht) (by simp) (by simp) h
  obtain rfl : s = t := String.toList_injective hst
  exact ⟨.string s, (List.cons.inj hrest).2⟩

/-! ## Values inside other text -/

/-- What is cut off in front of a word is a word. -/
lemma isWord_eq_false {v w : Value} {rest rest' : List Char} (hv : v.isWord = false)
    (hrest : EndsWord rest) (hrest' : EndsWord rest')
    (h : v.chars ++ rest = w.chars ++ rest') : w.isWord = false := by
  rw [Bool.eq_false_iff]
  intro hw
  obtain ⟨halike, -⟩ := chars_append_inj_of_isWord hw hrest' hrest h.symm
  cases halike <;> simp_all [isWord]

mutual

/-- **A value in front of other text can be cut off in only one way**, when no quote is inside a
string and what follows is not part of a word. -/
lemma chars_append_inj : ∀ (v w : Value) {rest rest' : List Char}, v.hasQuote = false →
    w.hasQuote = false → EndsWord rest → EndsWord rest' →
    v.chars ++ rest = w.chars ++ rest' → v.Alike w ∧ rest = rest'
  | .undefined, _, _, _, _, _, hrest, hrest', h => chars_append_inj_of_isWord rfl hrest hrest' h
  | .boolean _, _, _, _, _, _, hrest, hrest', h => chars_append_inj_of_isWord rfl hrest hrest' h
  | .number _, _, _, _, _, _, hrest, hrest', h => chars_append_inj_of_isWord rfl hrest hrest' h
  | .string s, w, _, _, hs, hw, hrest, hrest', h => by
      have hword := isWord_eq_false rfl hrest hrest' h
      cases w with
      | string t => exact string_append_inj hs hw h
      | vector items => cases items <;> simp [chars] at h
      | range start step stop => simp [chars] at h
      | _ => simp [isWord] at hword
  | .range start step stop, w, _, _, _, _, hrest, hrest', h => by
      have hword := isWord_eq_false rfl hrest hrest' h
      cases w with
      | string t => simp [chars] at h
      | vector items =>
          simp only [chars, List.cons_append, List.append_assoc] at h
          cases items with
          | nil =>
              have hbracket := (List.cons.inj h).2
              exact absurd hbracket (chars_append_ne_bracket (.number start) _ _)
          | cons y ys =>
              simp only [chars, List.cons_append, List.append_assoc] at h
              exact absurd (List.cons.inj h).2.symm (item_append_ne_bound y ys start _ _)
      | range start' step' stop' => exact range_append_inj h
      | _ => simp [isWord] at hword
  | .vector [], w, _, _, _, _, hrest, hrest', h => by
      have hword := isWord_eq_false rfl hrest hrest' h
      cases w with
      | string t => simp [chars] at h
      | vector items =>
          cases items with
          | nil => exact ⟨.vector .nil, by simpa [chars] using h⟩
          | cons y ys =>
              simp only [chars, List.cons_append, List.append_assoc] at h
              exact absurd (List.cons.inj h).2.symm (chars_append_ne_bracket y _ _)
      | range start' step' stop' =>
          simp only [chars, List.cons_append, List.append_assoc] at h
          exact absurd (List.cons.inj h).2.symm (chars_append_ne_bracket (.number start') _ _)
      | _ => simp [isWord] at hword
  | .vector (x :: xs), w, _, _, hv, hw, hrest, hrest', h => by
      have hword := isWord_eq_false rfl hrest hrest' h
      cases w with
      | string t => simp [chars] at h
      | vector items =>
          cases items with
          | nil =>
              simp only [chars, List.cons_append, List.append_assoc] at h
              exact absurd (List.cons.inj h).2 (chars_append_ne_bracket x _ _)
          | cons y ys =>
              simp only [chars, List.cons_append, List.append_assoc] at h
              simp only [hasQuote, itemsHaveQuote, Bool.or_eq_false_iff] at hv hw
              obtain ⟨hxy, hlater⟩ := chars_append_inj x y hv.1 hw.1 (endsWord_laterItems _ _)
                (endsWord_laterItems _ _) (List.cons.inj h).2
              obtain ⟨hitems, hrests⟩ := laterItems_append_inj xs ys hv.2 hw.2 hlater
              exact ⟨.vector (.cons hxy hitems), hrests⟩
      | range start' step' stop' =>
          simp only [chars, List.cons_append, List.append_assoc] at h
          exact absurd (List.cons.inj h).2 (item_append_ne_bound x xs start' _ _)
      | _ => simp [isWord] at hword

lemma laterItems_append_inj : ∀ (xs ys : List Value) {rest rest' : List Char},
    itemsHaveQuote xs = false → itemsHaveQuote ys = false →
    laterItems xs ++ rest = laterItems ys ++ rest' → AlikeItems xs ys ∧ rest = rest'
  | [], [], _, _, _, _, h => ⟨.nil, by simpa [laterItems] using h⟩
  | [], _ :: _, _, _, _, _, h => by simp [laterItems] at h
  | _ :: _, [], _, _, _, _, h => by simp [laterItems] at h
  | x :: xs, y :: ys, _, _, hxs, hys, h => by
      simp only [laterItems, List.cons_append, List.append_assoc, List.cons.injEq, true_and] at h
      simp only [itemsHaveQuote, Bool.or_eq_false_iff] at hxs hys
      obtain ⟨hxy, hlater⟩ := chars_append_inj x y hxs.1 hys.1 (endsWord_laterItems _ _)
        (endsWord_laterItems _ _) h
      obtain ⟨hitems, hrests⟩ := laterItems_append_inj xs ys hxs.2 hys.2 hlater
      exact ⟨.cons hxy hitems, hrests⟩

end

/-! ## Values by themselves -/

lemma hasQuote_eq_nestsQuote {v : Value} (hv : ∀ s, v ≠ .string s) : v.hasQuote = v.nestsQuote := by
  cases v with
  | string s => exact absurd rfl (hv s)
  | _ => rfl

/-- Only a string has the text of a string. -/
lemma chars_ne_string {v : Value} (hv : ∀ s, v ≠ .string s) (t : String) :
    v.chars ≠ (string t).chars := by
  intro h
  cases hword : v.isWord with
  | true =>
      have hquote := continuesWord_of_isWord hword '"' (by simp [h, chars])
      exact absurd hquote (by decide)
  | false =>
      cases v with
      | string s => exact hv s rfl
      | vector items => cases items <;> simp [chars] at h
      | range start step stop => simp [chars] at h
      | _ => simp [isWord] at hword

/-- **The text of a value says which value it is**, when no string inside a vector contains a
quote. -/
theorem alike_of_chars_eq {v w : Value} (hv : v.nestsQuote = false) (hw : w.nestsQuote = false)
    (h : v.chars = w.chars) : v.Alike w := by
  by_cases hs : ∃ s, v = .string s
  · obtain ⟨s, rfl⟩ := hs
    by_cases ht : ∃ t, w = .string t
    · obtain ⟨t, rfl⟩ := ht
      simp only [chars, List.cons.injEq, true_and, List.append_cancel_right_eq] at h
      obtain rfl : s = t := String.toList_injective h
      exact .string s
    · rw [not_exists] at ht
      exact absurd h.symm (chars_ne_string ht s)
  · rw [not_exists] at hs
    by_cases ht : ∃ t, w = .string t
    · obtain ⟨t, rfl⟩ := ht
      exact absurd h (chars_ne_string hs t)
    · rw [not_exists] at ht
      rw [← hasQuote_eq_nestsQuote hs] at hv
      rw [← hasQuote_eq_nestsQuote ht] at hw
      exact (chars_append_inj v w hv hw endsWord_nil endsWord_nil (by simpa using h)).1

end Value

end SolidOps
