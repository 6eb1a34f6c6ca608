import SolidOps.Operator
import SolidOps.Run

/-!
# Keyword tables

A keyword table says which operator a name calls.  A name can be registered once; to register it
again is an error and changes nothing.

Entries are kept in the order of their names, compared byte by byte in UTF-8, so that the names can
be listed in order.  `KeywordTable.builtin` is the table of the five keywords that calls are looked
up in.
-/

namespace SolidOps

/-- Names and the operators they call, in the order of the names. -/
structure KeywordTable where
  entries : List (String × Operator)

namespace KeywordTable

/-- The table without entries. -/
def empty : KeywordTable := ⟨[]⟩

instance : Inhabited KeywordTable := ⟨empty⟩

/-- The operator that a name calls. -/
def lookup? (t : KeywordTable) (name : String) : Option Operator := t.entries.lookup name

/-- The registered names in order. -/
def names (t : KeywordTable) : List String := t.entries.map Prod.fst

/-- The number of registered names. -/
def size (t : KeywordTable) : Nat := t.entries.length

/-- Whether nothing is registered. -/
def isEmpty (t : KeywordTable) : Bool := t.entries.isEmpty

/-! ## Registration -/

/-- The bytes of a name in UTF-8. -/
def nameBytes (name : String) : List UInt8 := name.toUTF8.data.toList

/-- Whether a name comes before another one. -/
def precedes (a b : String) : Bool := decide (nameBytes a < nameBytes b)

/-- Puts an entry in front of the first one whose name comes later. -/
def insertEntry (name : String) (op : Operator) :
    List (String × Operator) → List (String × Operator)
  | [] => [(name, op)]
  | entry :: entries =>
    if precedes name entry.1 then (name, op) :: entry :: entries
    else entry :: insertEntry name op entries

/-- Registers a name.  A name that is already there keeps its operator. -/
def register (name : String) (op : Operator) : Run KeywordTable Unit := do
  let t ← get
  match t.lookup? name with
  | some _ => throw (.keywordTaken name)
  | none => set (KeywordTable.mk (insertEntry name op t.entries))

/-- Registers the keywords of several operators in order.  The first one that is taken ends the
registration; those before it stay registered. -/
def registerEach : List Operator → Run KeywordTable Unit
  | [] => pure ()
  | op :: ops => do
    register op.keyword op
    registerEach ops

/-- Registers the keywords of all operators. -/
def registerAll : Run KeywordTable Unit := registerEach Operator.all

/-- The table that calls are looked up in. -/
def builtin : KeywordTable := (registerAll.perform empty).2

end KeywordTable

end SolidOps
