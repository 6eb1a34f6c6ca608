import SolidOps.Text.CaseTable

/-!
# Lowercase text

The full Unicode lowercase of a text.  Three rules make it up:

* a character found in the case table becomes the one character listed there, and any other
  character stays;
* the dotted capital I, U+0130, becomes two characters, a small i and a combining dot above;
* a capital sigma becomes a final sigma at the end of a word and a plain small sigma elsewhere.

Only the last rule looks at neighbours.  A sigma ends a word when, looking through case-ignorable
characters, there is a cased character before it and none after it.  `lowercaseAfter` therefore
carries the text already read, nearest character first.
-/

namespace SolidOps

/-- Whether the first character that is not case-ignorable is cased. -/
def meetsCased : List Char → Bool
  | [] => false
  | c :: rest =>
    if CaseTable.within CaseTable.ignorableRanges c.toNat then meetsCased rest
    else CaseTable.within CaseTable.casedRanges c.toNat

/-- The lowercase of a character by itself. -/
def lowercaseOf (c : Char) : List Char :=
  if c.toNat = 0x130 then [Char.ofNat 0x69, Char.ofNat 0x307]
  else
    match CaseTable.lowercaseRuns.find? fun run => run.covers c.toNat with
    | some run => [Char.ofNat (run.image c.toNat)]
    | none => [c]

/-- The lowercase of a capital sigma between the text `before`, nearest character first, and the
text `after`. -/
def sigmaBetween (before after : List Char) : Char :=
  if meetsCased before && !meetsCased after then Char.ofNat 0x3C2 else Char.ofNat 0x3C3

/-- The lowercase of a text that follows the characters `before`, nearest first. -/
def lowercaseAfter (before : List Char) : List Char → List Char
  | [] => []
  | c :: rest =>
    (if c.toNat = 0x3A3 then [sigmaBetween before rest] else lowercaseOf c) ++
      lowercaseAfter (c :: before) rest

/-- The lowercase of a text. -/
def lowercase (s : String) : String := String.ofList (lowercaseAfter [] s.toList)

end SolidOps
