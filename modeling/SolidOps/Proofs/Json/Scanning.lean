import Mathlib
import SolidOps.Json.Token
import SolidOps.Proofs.Json.Numeral

/-!
# Scanning compact text

The compact text of a JSON value has the tokens one expects.  `Json.tokens` lists them, by the same
recursion that writes the text, and `Json.tokens?_chars` says that the scanner finds exactly these.

The scanner works from left to right and cannot know what is to come, so the statement that goes
through an induction is about a text in front of another one: `Scans cs ts rest` says that `cs`
gives the tokens `ts` and leaves the scanner between two tokens where `rest` begins.  Most pieces
of text do so whatever follows.  A word is different: it gives its token only when something that
is not part of a word follows (`EndsWord`), as it does in compact text, where a value is followed by
a comma, a closing bracket, or nothing.
-/

namespace SolidOps.Json

open Scanner

/-! ## Tokens of a value -/

mutual

/-- The tokens of the compact text of a JSON value. -/
def tokens : Json → List Token
  | null => [.null]
  | bool b => [.bool b]
  | number n => [.number n]
  | string s => [.string s]
  | array [] => [.openArray, .closeArray]
  | array (item :: items) => .openArray :: (tokens item ++ laterItemTokens items)
  | object [] => [.openObject, .closeObject]
  | object ((key, value) :: members) =>
    .openObject :: .string key :: .colon :: (tokens value ++ laterMemberTokens members)

/-- The tokens of the items of an array after its first, and the closing bracket. -/
def laterItemTokens : List Json → List Token
  | [] => [.closeArray]
  | item :: items => .comma :: (tokens item ++ laterItemTokens items)

/-- The tokens of the members of an object after its first, and the closing brace. -/
def laterMemberTokens : List (Text × Json) → List Token
  | [] => [.closeObject]
  | (key, value) :: members =>
    .comma :: .string key :: .colon :: (tokens value ++ laterMemberTokens members)

end

/-! ## Pieces of text -/

/-- The text `cs` in front of `rest` gives the tokens `ts`. -/
def Scans (cs : List Char) (ts : List Token) (rest : List Char) : Prop :=
  between.scan (cs ++ rest) = (between.scan rest).map (ts ++ ·)

lemma Scans.append {cs cs' rest : List Char} {ts ts' : List Token}
    (h : Scans cs ts (cs' ++ rest)) (h' : Scans cs' ts' rest) :
    Scans (cs ++ cs') (ts ++ ts') rest := by
  unfold Scans at *
  rw [List.append_assoc, h, h', Option.map_map]
  congr 1
  funext more
  exact (List.append_assoc _ _ _).symm

/-- A character that completes no token changes what is at hand. -/
lemma scan_cons_of_next {s s' : Scanner} {c : Char} (h : s.next c = some ([], s'))
    (cs : List Char) : s.scan (c :: cs) = s'.scan cs := by
  rw [scan, h]
  simp

lemma scan_cons_of_token {s s' : Scanner} {c : Char} {t : Token} (h : s.next c = some ([t], s'))
    (cs : List Char) : s.scan (c :: cs) = (s'.scan cs).map ([t] ++ ·) := by
  rw [scan, h]

/-! ## Punctuation -/

lemma scans_punctuation {c : Char} {t : Token} (hc : start c = ([t], between))
    (rest : List Char) : Scans [c] [t] rest := by
  have hnext : between.next c = some ([t], between) := congrArg some hc
  exact scan_cons_of_token hnext rest

/-! ## Words -/

/-- Where a word ends: at the end of the text, or at a character that does not go on with it. -/
def EndsWord (rest : List Char) : Prop := ∀ c ∈ rest.head?, continuesWord c = false

lemma start_of_continuesWord {c : Char} (hc : continuesWord c = true) :
    start c = ([], word [c]) := by
  simp only [continuesWord, Bool.and_eq_true, Bool.not_eq_true', bne_iff_ne, ne_eq,
    Option.isNone_iff_eq_none] at hc
  obtain ⟨⟨hblank, hpunctuation⟩, hquote⟩ := hc
  simp only [start, hblank, hpunctuation, if_neg hquote, Bool.false_eq_true, if_false]

lemma scan_word_append {w : List Char} (hw : ∀ c ∈ w, continuesWord c = true)
    (before rest : List Char) :
    (word before).scan (w ++ rest) = (word (w.reverse ++ before)).scan rest := by
  induction w generalizing before with
  | nil => rfl
  | cons c cs ih =>
      have hnext : (word before).next c = some ([], word (c :: before)) := by
        simp only [next, hw c List.mem_cons_self, if_true]
      rw [List.cons_append, scan_cons_of_next hnext,
        ih (fun c' hc' => hw c' (List.mem_cons_of_mem _ hc'))]
      simp

lemma scan_word_end {before rest : List Char} {t : Token} (hrest : EndsWord rest)
    (ht : wordToken? before.reverse = some t) :
    (word before).scan rest = (between.scan rest).map ([t] ++ ·) := by
  cases rest with
  | nil => simp [scan, finish, ht]
  | cons c cs =>
      have hc : continuesWord c = false := hrest c rfl
      simp only [scan, next, hc, ht, Bool.false_eq_true, if_false, Option.map_some, Option.map_map]
      rfl

/-- **A word is scanned as its token** when something else follows it. -/
lemma scans_word {w rest : List Char} {t : Token} (hne : w ≠ [])
    (hw : ∀ c ∈ w, continuesWord c = true) (ht : wordToken? w = some t) (hrest : EndsWord rest) :
    Scans w [t] rest := by
  cases w with
  | nil => exact absurd rfl hne
  | cons c cs =>
      have hfirst : between.next c = some ([], word [c]) :=
        congrArg some (start_of_continuesWord (hw c List.mem_cons_self))
      have hcs : ∀ c' ∈ cs, continuesWord c' = true :=
        fun c' hc' => hw c' (List.mem_cons_of_mem _ hc')
      show between.scan (c :: (cs ++ rest)) = _
      rw [scan_cons_of_next hfirst, scan_word_append hcs]
      refine scan_word_end hrest ?_
      rw [List.reverse_append, List.reverse_reverse]
      exact ht

/-! ## Numerals -/

lemma continuesWord_digit (d : Digit) : continuesWord d.toChar = true := by
  revert d
  decide

lemma continuesWord_of_mem_natChars {n : ℕ} {c : Char} (hc : c ∈ natChars n) :
    continuesWord c = true := by
  obtain ⟨d, -, rfl⟩ := List.mem_map.mp hc
  exact continuesWord_digit d

lemma continuesWord_of_mem_chars (n : Numeral) : ∀ c ∈ n.chars, continuesWord c = true := by
  intro c hc
  rw [Numeral.chars_eq] at hc
  simp only [List.mem_append] at hc
  rcases hc with hsign | hwhole | hpoint | hscale
  · cases hneg : n.negative with
    | true =>
        obtain rfl : c = '-' := by simpa [hneg] using hsign
        decide
    | false => simp [hneg] at hsign
  · exact continuesWord_of_mem_natChars hwhole
  · by_cases h : n.fraction = []
    · simp [Numeral.pointChars, h] at hpoint
    · rw [Numeral.pointChars, if_neg h, List.mem_cons] at hpoint
      rcases hpoint with rfl | hdigit
      · decide
      · obtain ⟨d, -, rfl⟩ := List.mem_map.mp hdigit
        exact continuesWord_digit d
  · cases hexp : n.exponent with
    | none => simp [Numeral.scaleChars, hexp] at hscale
    | some e =>
        rw [hexp, Numeral.scaleChars, List.mem_cons, List.mem_cons] at hscale
        rcases hscale with rfl | hsign | hdigit
        · decide
        · by_cases he : e < 0
          · rw [hsign, if_pos he]
            decide
          · rw [hsign, if_neg he]
            decide
        · exact continuesWord_of_mem_natChars hdigit

/-- No literal is a numeral, so a numeral is taken for what it is. -/
lemma wordToken?_chars (n : Numeral) : wordToken? n.chars = some (.number n) := by
  have hread := Numeral.ofChars?_chars n
  have hnull : n.chars ≠ ['n', 'u', 'l', 'l'] := by
    intro h
    rw [h] at hread
    cases hread
  have htrue : n.chars ≠ ['t', 'r', 'u', 'e'] := by
    intro h
    rw [h] at hread
    cases hread
  have hfalse : n.chars ≠ ['f', 'a', 'l', 's', 'e'] := by
    intro h
    rw [h] at hread
    cases hread
  rw [wordToken?, if_neg hnull, if_neg htrue, if_neg hfalse, hread, Option.map_some]

lemma scans_numeral (n : Numeral) {rest : List Char} (hrest : EndsWord rest) :
    Scans n.chars [.number n] rest := by
  refine scans_word ?_ (continuesWord_of_mem_chars n) (wordToken?_chars n) hrest
  intro h
  have hread := Numeral.ofChars?_chars n
  rw [h] at hread
  cases hread

/-! ## Strings -/

/-- The piece that a character of a string is scanned as: a character by itself or after a
backslash, or the unit that a control character without a short escape is written as. -/
def pieceOf (c : Char) : Piece :=
  if c.toNat < 32 ∧ c.toNat ∉ [8, 9, 10, 12, 13] then .unit c.toNat else .char c

lemma hexValue?_hexChar : ∀ n < 16, hexValue? (hexChar n) = some n := by
  decide

lemma eq_ofNat_of_toNat {c : Char} {n : ℕ} (h : c.toNat = n) : c = Char.ofNat n := by
  rw [← h, Char.ofNat_toNat]

lemma scan_short_escape {c e : Char} {cs : List Char} (he : e ≠ 'u')
    (hshort : shortEscape? e = some (.char c)) (pieces : List Piece) :
    (Scanner.string pieces).scan ('\\' :: e :: cs)
      = (Scanner.string (.char c :: pieces)).scan cs := by
  have hnext : (Scanner.escape pieces).next e = some ([], .string (.char c :: pieces)) := by
    simp only [next, if_neg he, hshort, Option.map_some]
  rw [scan_cons_of_next rfl, scan_cons_of_next hnext]

lemma scan_unit_escape {c : Char} (hc : c.toNat < 32) (cs : List Char) (pieces : List Piece) :
    (Scanner.string pieces).scan
        ('\\' :: 'u' :: '0' :: '0' :: hexChar (c.toNat / 16) :: hexChar (c.toNat % 16) :: cs)
      = (Scanner.string (.unit c.toNat :: pieces)).scan cs := by
  have hhigh := hexValue?_hexChar (c.toNat / 16) (by omega)
  have hlow := hexValue?_hexChar (c.toNat % 16) (by omega)
  have hvalue : 16 * (c.toNat / 16) + c.toNat % 16 = c.toNat := by omega
  have hthird : (Scanner.hex 2 0 pieces).next (hexChar (c.toNat / 16))
      = some ([], .hex 1 (c.toNat / 16) pieces) := by
    simp [next, hhigh]
  have hfourth : (Scanner.hex 1 (c.toNat / 16) pieces).next (hexChar (c.toNat % 16))
      = some ([], .string (.unit c.toNat :: pieces)) := by
    simp [next, hlow, hvalue]
  have hzeros : (Scanner.hex 4 0 pieces).scan
      ('0' :: '0' :: hexChar (c.toNat / 16) :: hexChar (c.toNat % 16) :: cs)
      = (Scanner.hex 2 0 pieces).scan (hexChar (c.toNat / 16) :: hexChar (c.toNat % 16) :: cs) := by
    rw [scan_cons_of_next rfl, scan_cons_of_next rfl]
    rfl
  rw [scan_cons_of_next rfl, scan_cons_of_next rfl, hzeros, scan_cons_of_next hthird,
    scan_cons_of_next hfourth]

/-- **An escaped character is scanned as its piece.** -/
lemma scan_escape (c : Char) (cs : List Char) (pieces : List Piece) :
    (Scanner.string pieces).scan (escape c ++ cs)
      = (Scanner.string (pieceOf c :: pieces)).scan cs := by
  unfold escape
  split_ifs with hquote hbackslash h8 h9 h10 h12 h13 hcontrol
  · subst hquote
    exact scan_short_escape (by decide) rfl pieces
  · subst hbackslash
    exact scan_short_escape (by decide) rfl pieces
  · obtain rfl := eq_ofNat_of_toNat h8
    exact scan_short_escape (by decide) rfl pieces
  · obtain rfl := eq_ofNat_of_toNat h9
    exact scan_short_escape (by decide) rfl pieces
  · obtain rfl := eq_ofNat_of_toNat h10
    exact scan_short_escape (by decide) rfl pieces
  · obtain rfl := eq_ofNat_of_toNat h12
    exact scan_short_escape (by decide) rfl pieces
  · obtain rfl := eq_ofNat_of_toNat h13
    exact scan_short_escape (by decide) rfl pieces
  · have hpiece : pieceOf c = .unit c.toNat := by
      rw [pieceOf, if_pos]
      simp [hcontrol, h8, h9, h10, h12, h13]
    rw [hpiece]
    exact scan_unit_escape hcontrol cs pieces
  · have hpiece : pieceOf c = .char c := by
      rw [pieceOf, if_neg (fun h => hcontrol h.1)]
    have hnext : (Scanner.string pieces).next c = some ([], .string (.char c :: pieces)) := by
      simp only [next, if_neg hquote, if_neg hbackslash, if_neg hcontrol]
    rw [hpiece]
    exact scan_cons_of_next hnext cs

lemma scan_escapes (s cs : List Char) (pieces : List Piece) :
    (Scanner.string pieces).scan (s.flatMap escape ++ cs)
      = (Scanner.string ((s.map pieceOf).reverse ++ pieces)).scan cs := by
  induction s generalizing pieces with
  | nil => rfl
  | cons c s ih =>
      rw [List.flatMap_cons, List.append_assoc, scan_escape, ih, List.map_cons, List.reverse_cons,
        List.append_assoc]
      rfl

/-- The pieces of a text spell the text: a control character is no half of a surrogate pair. -/
lemma assemble_pieces (s : List Char) : assembleAfter none (s.map pieceOf) = some s := by
  induction s with
  | nil => rfl
  | cons c s ih =>
      rw [List.map_cons, pieceOf]
      split
      · rename_i hcontrol
        have hleading : isLeading c.toNat = false := by
          simp only [isLeading, Bool.and_eq_false_imp, decide_eq_true_eq]
          omega
        have htrailing : isTrailing c.toNat = false := by
          simp only [isTrailing, Bool.and_eq_false_imp, decide_eq_true_eq]
          omega
        simp only [assembleAfter, hleading, htrailing, ih, Bool.false_eq_true, if_false,
          Option.map_some, Char.ofNat_toNat]
      · simp only [assembleAfter, ih, Option.map_some]

/-- **A string is scanned as its text**, also when it has none. -/
lemma scans_text (s : Text) (rest : List Char) : Scans (textChars s) [.string s] rest := by
  cases s with
  | none =>
      have hhalf : assembleAfter none [.unit 0xD800] = none := by
        simp [assembleAfter, isLeading]
      have hclose : (Scanner.string [.unit 0xD800]).next '"' = some ([.string none], between) := by
        simp only [next, if_true, assemble, List.reverse_singleton, hhalf, Option.map_none]
      have hchars : textChars none = ['"', '\\', 'u', 'd', '8', '0', '0', '"'] :=
        String.toList_ofList
      rw [hchars]
      show between.scan ('"' :: '\\' :: 'u' :: 'd' :: '8' :: '0' :: '0' :: '"' :: rest) = _
      rw [scan_cons_of_next rfl, scan_cons_of_next rfl, scan_cons_of_next rfl,
        scan_cons_of_next rfl, scan_cons_of_next rfl, scan_cons_of_next rfl,
        scan_cons_of_next rfl]
      exact scan_cons_of_token hclose rest
  | some s =>
      have hassemble : assemble (s.toList.map pieceOf) = some s := by
        rw [assemble, assemble_pieces, Option.map_some, String.ofList_toList]
      have hclose : (Scanner.string ((s.toList.map pieceOf).reverse ++ [])).next '"'
          = some ([.string (some s)], between) := by
        simp only [next, if_true, List.append_nil, List.reverse_reverse, hassemble]
      show between.scan ('"' :: ((s.toList.flatMap escape ++ ['"']) ++ rest)) = _
      rw [scan_cons_of_next rfl, List.append_assoc, scan_escapes]
      exact scan_cons_of_token hclose rest

/-! ## Trees -/

lemma endsWord_nil : EndsWord [] := by
  intro c hc
  cases hc

lemma endsWord_cons {c : Char} (hc : continuesWord c = false) (cs : List Char) :
    EndsWord (c :: cs) := by
  intro c' hc'
  obtain rfl : c = c' := by simpa using hc'
  exact hc

lemma endsWord_laterItems (items : List Json) (rest : List Char) :
    EndsWord (laterItems items ++ rest) := by
  cases items with
  | nil => exact endsWord_cons (by decide) rest
  | cons item items => exact endsWord_cons (by decide) _

lemma endsWord_laterMembers (members : List (Text × Json)) (rest : List Char) :
    EndsWord (laterMembers members ++ rest) := by
  cases members with
  | nil => exact endsWord_cons (by decide) rest
  | cons member members => exact endsWord_cons (by decide) _

lemma scans_name (key : Text) (rest : List Char) :
    Scans (textChars key ++ [':']) [.string key, .colon] rest :=
  (scans_text key _).append (scans_punctuation rfl rest)

mutual

/-- The text of a value gives the tokens of the value, when no word goes on behind it. -/
lemma scans_chars (j : Json) (rest : List Char) (hrest : EndsWord rest) :
    Scans (chars j) (tokens j) rest := by
  match j with
  | .null =>
      rw [chars, tokens]
      exact scans_word (by decide) (List.all_eq_true.mp (by decide)) rfl hrest
  | .bool true =>
      rw [chars, tokens]
      exact scans_word (by decide) (List.all_eq_true.mp (by decide)) rfl hrest
  | .bool false =>
      rw [chars, tokens]
      exact scans_word (by decide) (List.all_eq_true.mp (by decide)) rfl hrest
  | .number n => exact scans_numeral n hrest
  | .string s => exact scans_text s rest
  | .array [] =>
      exact (scans_punctuation (c := '[') rfl _).append (scans_punctuation (c := ']') rfl rest)
  | .array (item :: items) =>
      have hitem := scans_chars item _ (endsWord_laterItems items rest)
      have hitems := scans_laterItems items rest
      exact (scans_punctuation (c := '[') rfl _).append (hitem.append hitems)
  | .object [] =>
      exact (scans_punctuation (c := '{') rfl _).append (scans_punctuation (c := '}') rfl rest)
  | .object ((key, value) :: members) =>
      have hvalue := scans_chars value _ (endsWord_laterMembers members rest)
      have hmembers := scans_laterMembers members rest
      have hmember := (scans_name key _).append (hvalue.append hmembers)
      rw [List.append_assoc] at hmember
      exact (scans_punctuation (c := '{') rfl _).append hmember

lemma scans_laterItems (items : List Json) (rest : List Char) :
    Scans (laterItems items) (laterItemTokens items) rest := by
  match items with
  | [] => exact scans_punctuation rfl rest
  | item :: items =>
      have hitem := scans_chars item _ (endsWord_laterItems items rest)
      have hitems := scans_laterItems items rest
      exact (scans_punctuation (c := ',') rfl _).append (hitem.append hitems)

lemma scans_laterMembers (members : List (Text × Json)) (rest : List Char) :
    Scans (laterMembers members) (laterMemberTokens members) rest := by
  match members with
  | [] => exact scans_punctuation rfl rest
  | (key, value) :: members =>
      have hvalue := scans_chars value _ (endsWord_laterMembers members rest)
      have hmembers := scans_laterMembers members rest
      have hmember := (scans_name key _).append (hvalue.append hmembers)
      rw [List.append_assoc] at hmember
      exact (scans_punctuation (c := ',') rfl _).append hmember

end

/-- **The scanner finds the tokens of compact text.** -/
theorem tokens?_chars (j : Json) : tokens? (chars j) = some (tokens j) := by
  have h := scans_chars j [] endsWord_nil
  rw [Scans, List.append_nil] at h
  rw [tokens?, h]
  simp [scan, finish]

end SolidOps.Json
