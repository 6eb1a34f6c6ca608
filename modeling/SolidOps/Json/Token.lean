import SolidOps.Json.Tree

/-!
# JSON tokens

The first half of reading JSON: from characters to tokens.  A `Scanner` is what has been read of the
token at hand, and `Scanner.next` takes one more character.  Every character is looked at once, so
scanning is a recursion on the text.

**Words.**  Whatever is neither blank, nor punctuation, nor part of a string belongs to a word, and a
word has to be `null`, `true`, `false` or a numeral.  A word ends only where another token or a blank
begins.

**Strings.**  A string is scanned into pieces, characters as they stand and UTF-16 units as escapes
name them.  `assemble` joins two halves of a surrogate pair into one character; a half without the
other leaves the string without a text, which is not an error here.  A control character is.
-/

namespace SolidOps.Json

/-- A token of JSON text. -/
inductive Token
  | openArray
  | closeArray
  | openObject
  | closeObject
  | comma
  | colon
  | null
  | bool (b : Bool)
  | number (n : Numeral)
  | string (s : Text)

/-! ## Character classes -/

/-- The four characters that may stand between tokens. -/
def isBlank (c : Char) : Bool := c == ' ' || c == '\t' || c == '\n' || c == '\r'

/-- The token that a punctuation character is by itself. -/
def punctuation? (c : Char) : Option Token :=
  if c = '[' then some .openArray
  else if c = ']' then some .closeArray
  else if c = '{' then some .openObject
  else if c = '}' then some .closeObject
  else if c = ',' then some .comma
  else if c = ':' then some .colon
  else none

/-- The value of a hexadecimal digit, in either case. -/
def hexValue? (c : Char) : Option Nat :=
  if 48 ≤ c.toNat ∧ c.toNat < 58 then some (c.toNat - 48)
  else if 65 ≤ c.toNat ∧ c.toNat < 71 then some (c.toNat - 55)
  else if 97 ≤ c.toNat ∧ c.toNat < 103 then some (c.toNat - 87)
  else none

/-! ## Strings -/

/-- A piece of a string. -/
inductive Piece
  | char (c : Char)
  /-- A UTF-16 unit named by four hexadecimal digits. -/
  | unit (u : Nat)

/-- Whether a unit is the first half of a surrogate pair. -/
def isLeading (u : Nat) : Bool := decide (0xD800 ≤ u) && decide (u < 0xDC00)

/-- Whether a unit is the second half of a surrogate pair. -/
def isTrailing (u : Nat) : Bool := decide (0xDC00 ≤ u) && decide (u < 0xE000)

/-- The character of a surrogate pair. -/
def joined (u w : Nat) : Char := Char.ofNat (0x10000 + (u - 0xD800) * 0x400 + (w - 0xDC00))

/-- The characters that pieces spell, given the leading half that awaits its other half. -/
def assembleAfter : Option Nat → List Piece → Option (List Char)
  | none, [] => some []
  | some _, [] => none
  | none, .char c :: pieces => (assembleAfter none pieces).map (c :: ·)
  | some _, .char _ :: _ => none
  | none, .unit u :: pieces =>
    if isLeading u then assembleAfter (some u) pieces
    else if isTrailing u then none
    else (assembleAfter none pieces).map (Char.ofNat u :: ·)
  | some u, .unit w :: pieces =>
    if isTrailing w then (assembleAfter none pieces).map (joined u w :: ·) else none

/-- The text that pieces spell, if they spell one. -/
def assemble (pieces : List Piece) : Text := (assembleAfter none pieces).map String.ofList

/-- The piece of a short escape. -/
def shortEscape? (c : Char) : Option Piece :=
  if c = '"' ∨ c = '\\' ∨ c = '/' then some (.char c)
  else if c = 'b' then some (.char (Char.ofNat 8))
  else if c = 't' then some (.char (Char.ofNat 9))
  else if c = 'n' then some (.char (Char.ofNat 10))
  else if c = 'f' then some (.char (Char.ofNat 12))
  else if c = 'r' then some (.char (Char.ofNat 13))
  else none

/-! ## Words -/

/-- The token that a word is. -/
def wordToken? (word : List Char) : Option Token :=
  if word = ['n', 'u', 'l', 'l'] then some .null
  else if word = ['t', 'r', 'u', 'e'] then some (.bool true)
  else if word = ['f', 'a', 'l', 's', 'e'] then some (.bool false)
  else (Numeral.ofChars? word).map .number

/-! ## Scanning -/

/-- What has been read of the token at hand; characters and pieces are listed latest first. -/
inductive Scanner
  /-- Nothing: the next character begins a token or is blank. -/
  | between
  | word (chars : List Char)
  | string (pieces : List Piece)
  /-- A string just after a backslash. -/
  | escape (pieces : List Piece)
  /-- A string within the digits of a unit, of which `missing` are still to come. -/
  | hex (missing value : Nat) (pieces : List Piece)

namespace Scanner

/-- Takes a character that begins a token or is blank: the tokens it completes and what is at hand
then. -/
def start (c : Char) : List Token × Scanner :=
  if isBlank c then ([], between)
  else
    match punctuation? c with
    | some token => ([token], between)
    | none => if c = '"' then ([], string []) else ([], word [c])

/-- Whether a character goes on with a word. -/
def continuesWord (c : Char) : Bool := !isBlank c && (punctuation? c).isNone && c != '"'

/-- Takes one character: the tokens it completes and what is at hand then. -/
def next (c : Char) : Scanner → Option (List Token × Scanner)
  | between => some (start c)
  | word chars =>
    if continuesWord c then some ([], word (c :: chars))
    else (wordToken? chars.reverse).map fun token => (token :: (start c).1, (start c).2)
  | string pieces =>
    if c = '"' then some ([.string (assemble pieces.reverse)], between)
    else if c = '\\' then some ([], escape pieces)
    else if c.toNat < 32 then none
    else some ([], string (.char c :: pieces))
  | escape pieces =>
    if c = 'u' then some ([], hex 4 0 pieces)
    else (shortEscape? c).map fun piece => ([], string (piece :: pieces))
  | hex missing value pieces =>
    (hexValue? c).map fun digit =>
      if missing ≤ 1 then ([], string (.unit (16 * value + digit) :: pieces))
      else ([], hex (missing - 1) (16 * value + digit) pieces)

/-- The tokens completed by the end of the text, which no string survives. -/
def finish : Scanner → Option (List Token)
  | between => some []
  | word chars => (wordToken? chars.reverse).map fun token => [token]
  | _ => none

/-- The tokens of a text, after what is at hand. -/
def scan : Scanner → List Char → Option (List Token)
  | s, [] => s.finish
  | s, c :: cs =>
    match s.next c with
    | none => none
    | some (tokens, s') => (scan s' cs).map (tokens ++ ·)

end Scanner

/-- The tokens of a text. -/
def tokens? (cs : List Char) : Option (List Token) := Scanner.between.scan cs

end SolidOps.Json
