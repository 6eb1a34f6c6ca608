import Mathlib
import SolidOps.Json.Reader
import SolidOps.Proofs.Json.Scanning

/-!
# Reading compact text

The reader rebuilds a JSON value from the tokens of its compact text, and so, with the scanner, from
the text itself: `Json.ofChars?_chars`.

The invariant is about a value in the middle of a text.  A reader that awaits a value takes the
tokens of one and then has it complete, with the stack it had before (`run?_tokens`).  Inside a
container, the later items or members are taken up to the closing bracket, which puts those before
them in their order again.
-/

namespace SolidOps.Json

namespace Reader

lemma run?_cons {r r' : Reader} {token : Token} (h : r.next? token = some r')
    (more : List Token) : r.run? (token :: more) = r'.run? more := by
  rw [run?, h]

/-- The first token of a value is no closing bracket. -/
lemma tokens_eq_cons (j : Json) : ∃ token more, tokens j = token :: more ∧ token ≠ .closeArray := by
  match j with
  | .null => exact ⟨_, _, tokens.eq_1, by simp⟩
  | .bool b => exact ⟨_, _, tokens.eq_2 b, by simp⟩
  | .number n => exact ⟨_, _, tokens.eq_3 n, by simp⟩
  | .string s => exact ⟨_, _, tokens.eq_4 s, by simp⟩
  | .array [] => exact ⟨_, _, tokens.eq_5, by simp⟩
  | .array (item :: items) => exact ⟨_, _, tokens.eq_6 item items, by simp⟩
  | .object [] => exact ⟨_, _, tokens.eq_7, by simp⟩
  | .object ((key, value) :: members) => exact ⟨_, _, tokens.eq_8 key value members, by simp⟩

/-- A value that may be the first item of an array is taken as such. -/
lemma run?_firstItem (stack : List Frame) (j : Json) (rest : List Token) :
    run? ⟨stack, .firstItem⟩ (tokens j ++ rest)
      = run? ⟨.array [] :: stack, .value⟩ (tokens j ++ rest) := by
  obtain ⟨token, more, hj, hclose⟩ := tokens_eq_cons j
  have hnext : next? ⟨stack, .firstItem⟩ token = next? ⟨.array [] :: stack, .value⟩ token := by
    cases token with
    | closeArray => exact absurd rfl hclose
    | _ => rfl
  rw [hj, List.cons_append, run?, run?, hnext]

mutual

/-- **A value is complete after its tokens**, and nothing that was open is touched. -/
lemma run?_tokens (j : Json) (stack : List Frame) (rest : List Token) :
    run? ⟨stack, .value⟩ (tokens j ++ rest) = run? ⟨stack, .rest j⟩ rest := by
  match j with
  | .null => rfl
  | .bool b => rfl
  | .number n => rfl
  | .string s => rfl
  | .array [] => rfl
  | .array (item :: items) =>
      have hitem := run?_tokens item (.array [] :: stack)
      have hitems := run?_laterItemTokens items item [] stack rest
      rw [tokens, List.cons_append, List.append_assoc, run?_cons rfl, run?_firstItem, hitem, hitems]
      rfl
  | .object [] => rfl
  | .object ((key, value) :: members) =>
      have hvalue := run?_tokens value (.object [] key :: stack)
      have hmembers := run?_laterMemberTokens members key value [] stack rest
      rw [tokens]
      simp only [List.cons_append, List.append_assoc]
      rw [run?_cons rfl, run?_cons rfl, run?_cons rfl, hvalue, hmembers]
      rfl

/-- The later items of an array follow those already there. -/
lemma run?_laterItemTokens (items : List Json) (item : Json) (before : List Json)
    (stack : List Frame) (rest : List Token) :
    run? ⟨.array before :: stack, .rest item⟩ (laterItemTokens items ++ rest)
      = run? ⟨stack, .rest (.array ((item :: before).reverse ++ items))⟩ rest := by
  match items with
  | [] =>
      rw [List.append_nil]
      rfl
  | next :: items =>
      have hnext := run?_tokens next (.array (item :: before) :: stack)
      have hitems := run?_laterItemTokens items next (item :: before) stack rest
      rw [laterItemTokens, List.cons_append, List.append_assoc, run?_cons rfl, hnext, hitems,
        List.reverse_cons (a := next), List.append_assoc]
      rfl

/-- The later members of an object follow those already there. -/
lemma run?_laterMemberTokens (members : List (Text × Json)) (key : Text) (value : Json)
    (before : List (Text × Json)) (stack : List Frame) (rest : List Token) :
    run? ⟨.object before key :: stack, .rest value⟩ (laterMemberTokens members ++ rest)
      = run? ⟨stack, .rest (.object (((key, value) :: before).reverse ++ members))⟩ rest := by
  match members with
  | [] =>
      rw [List.append_nil]
      rfl
  | (name, next) :: members =>
      have hnext := run?_tokens next (.object ((key, value) :: before) name :: stack)
      have hmembers := run?_laterMemberTokens members name next ((key, value) :: before) stack rest
      rw [laterMemberTokens]
      simp only [List.cons_append, List.append_assoc]
      rw [run?_cons rfl, run?_cons rfl, run?_cons rfl, hnext, hmembers,
        List.reverse_cons (a := (name, next)), List.append_assoc]
      rfl

end

end Reader

/-- **Every JSON value is read from its compact text.** -/
theorem ofChars?_chars (j : Json) : ofChars? (chars j) = some j := by
  have hrun := Reader.run?_tokens j [] []
  rw [List.append_nil] at hrun
  rw [ofChars?, tokens?_chars]
  simp only [Option.bind_eq_bind, Option.bind_some, Reader.initial, hrun]
  rfl

end SolidOps.Json
