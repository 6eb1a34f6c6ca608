import SolidOps.Json.Token

/-!
# Reading JSON

The second half of reading JSON: from tokens to a tree.  The reader takes one token after another.
It keeps a stack of the arrays and objects that are still open, and `Awaiting` says which tokens may
come next.  The text is one JSON value when, after the last token, a value is complete and nothing is
open.

Nesting is not limited here; how deep a value may go is a matter of what it is read as.
-/

namespace SolidOps.Json

/-- An open container, with what it already has, latest first. -/
inductive Frame
  | array (items : List Json)
  /-- An object within the value of the member `key`. -/
  | object (members : List (Text × Json)) (key : Text)

/-- What may come next. -/
inductive Awaiting
  /-- A value. -/
  | value
  /-- A value or the end of the array just opened. -/
  | firstItem
  /-- A name or the end of the object just opened. -/
  | firstName
  /-- The name of a further member. -/
  | name (members : List (Text × Json))
  /-- The colon after a name. -/
  | colon (members : List (Text × Json)) (key : Text)
  /-- Whatever may follow a complete value. -/
  | rest (done : Json)

/-- The state of the reader. -/
structure Reader where
  stack : List Frame
  awaiting : Awaiting

namespace Reader

/-- The state before the first token. -/
def initial : Reader := ⟨[], .value⟩

/-- Takes a token that begins a value. -/
def begin? (stack : List Frame) : Token → Option Reader
  | .null => some ⟨stack, .rest .null⟩
  | .bool b => some ⟨stack, .rest (.bool b)⟩
  | .number n => some ⟨stack, .rest (.number n)⟩
  | .string s => some ⟨stack, .rest (.string s)⟩
  | .openArray => some ⟨stack, .firstItem⟩
  | .openObject => some ⟨stack, .firstName⟩
  | _ => none

/-- Takes a token after a complete value: a comma, or the end of the innermost container. -/
def continue? (done : Json) : List Frame → Token → Option Reader
  | .array items :: stack, .comma => some ⟨.array (done :: items) :: stack, .value⟩
  | .array items :: stack, .closeArray => some ⟨stack, .rest (.array (done :: items).reverse)⟩
  | .object members key :: stack, .comma => some ⟨stack, .name ((key, done) :: members)⟩
  | .object members key :: stack, .closeObject =>
    some ⟨stack, .rest (.object ((key, done) :: members).reverse)⟩
  | _, _ => none

/-- Takes a token. -/
def next? (r : Reader) (token : Token) : Option Reader :=
  match r.awaiting, token with
  | .value, token => begin? r.stack token
  | .firstItem, .closeArray => some ⟨r.stack, .rest (.array [])⟩
  | .firstItem, token => begin? (.array [] :: r.stack) token
  | .firstName, .closeObject => some ⟨r.stack, .rest (.object [])⟩
  | .firstName, .string key => some ⟨r.stack, .colon [] key⟩
  | .name members, .string key => some ⟨r.stack, .colon members key⟩
  | .colon members key, .colon => some ⟨.object members key :: r.stack, .value⟩
  | .rest done, token => continue? done r.stack token
  | _, _ => none

/-- Takes all tokens of a text. -/
def run? (r : Reader) : List Token → Option Reader
  | [] => some r
  | token :: tokens =>
    match r.next? token with
    | none => none
    | some r' => run? r' tokens

/-- The value that was read, when nothing is open or missing. -/
def result? : Reader → Option Json
  | ⟨[], .rest done⟩ => some done
  | _ => none

end Reader

/-- Reads the characters of a JSON text. -/
def ofChars? (cs : List Char) : Option Json := do
  let tokens ← tokens? cs
  let reader ← Reader.initial.run? tokens
  reader.result?

end SolidOps.Json
