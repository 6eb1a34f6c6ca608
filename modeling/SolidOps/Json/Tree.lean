import SolidOps.Json.Numeral

/-!
# JSON

A JSON value as a tree, and its compact text: no blanks, members in their order, numbers and strings
in one spelling.

**Strings.**  An escape in JSON text names a UTF-16 unit, and a unit that is one half of a surrogate
pair names no character by itself.  A string with such a half is grammatical JSON, but it is no text.
In a tree a string is therefore a `Json.Text`: its characters, or `none` when they cannot be had.
Whoever looks for a text finds none there; whoever passes over the member does not notice.

**Members.**  An object is the list of its members.  A name may occur more than once; what that
means is left to the reader of the object.
-/

namespace SolidOps

/-- The text of a JSON string; `none` when it holds half of a surrogate pair. -/
abbrev Json.Text := Option String

/-- A JSON value. -/
inductive Json
  | null
  | bool (b : Bool)
  | number (n : Numeral)
  | string (s : Option String)
  | array (items : List Json)
  | object (members : List (Option String × Json))

namespace Json

instance : Inhabited Json := ⟨null⟩

/-! ## Compact text -/

/-- A hexadecimal digit, in lower case. -/
def hexChar (n : Nat) : Char := Char.ofNat (if n < 10 then 48 + n else 87 + n)

/-- A character within a string.  Quotes, backslashes and control characters are escaped, the
commonest of them in short form. -/
def escape (c : Char) : List Char :=
  if c = '"' then ['\\', '"']
  else if c = '\\' then ['\\', '\\']
  else if c.toNat = 8 then ['\\', 'b']
  else if c.toNat = 9 then ['\\', 't']
  else if c.toNat = 10 then ['\\', 'n']
  else if c.toNat = 12 then ['\\', 'f']
  else if c.toNat = 13 then ['\\', 'r']
  else if c.toNat < 32 then
    ['\\', 'u', '0', '0', hexChar (c.toNat / 16), hexChar (c.toNat % 16)]
  else [c]

/-- A string between quotes.  What is no text is written as one half of a surrogate pair. -/
def textChars : Text → List Char
  | some s => '"' :: (s.toList.flatMap escape ++ ['"'])
  | none => "\"\\ud800\"".toList

mutual

/-- The compact text of a JSON value. -/
def chars : Json → List Char
  | null => ['n', 'u', 'l', 'l']
  | bool true => ['t', 'r', 'u', 'e']
  | bool false => ['f', 'a', 'l', 's', 'e']
  | number n => n.chars
  | string s => textChars s
  | array [] => ['[', ']']
  | array (item :: items) => '[' :: (chars item ++ laterItems items)
  | object [] => ['{', '}']
  | object ((key, value) :: members) =>
    '{' :: (textChars key ++ ':' :: (chars value ++ laterMembers members))

/-- The items of an array after its first, and the closing bracket. -/
def laterItems : List Json → List Char
  | [] => [']']
  | item :: items => ',' :: (chars item ++ laterItems items)

/-- The members of an object after its first, and the closing brace. -/
def laterMembers : List (Text × Json) → List Char
  | [] => ['}']
  | (key, value) :: members => ',' :: (textChars key ++ ':' :: (chars value ++ laterMembers members))

end

end Json

end SolidOps
