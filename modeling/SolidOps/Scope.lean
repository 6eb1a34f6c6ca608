import SolidOps.Value

/-!
# Lexical scope

The variables an expression can see.  A scope is a stack of levels; a name is looked up from the
innermost level outwards, so an inner definition shadows an outer one.

The global level is kept apart from the levels opened inside it.  It is always there, so closing a
level that was never opened does nothing.

A level remembers its definitions with the latest first; the first one found for a name is the one
that counts.
-/

namespace SolidOps

/-- The definitions of one level, latest first. -/
abbrev Level := List (String × Value)

/-- The global level and the levels open inside it, innermost first. -/
structure Scope where
  opened : List Level
  global : Level

namespace Scope

/-- The scope with nothing defined and no level opened. -/
def empty : Scope := ⟨[], []⟩

instance : Inhabited Scope := ⟨empty⟩

/-- Opens a level. -/
def push (s : Scope) : Scope := { s with opened := [] :: s.opened }

/-- Closes the innermost level and forgets what it defined; the global level stays. -/
def pop (s : Scope) : Scope := { s with opened := s.opened.tail }

/-- Defines a variable in the innermost level. -/
def define (s : Scope) (name : String) (value : Value) : Scope :=
  match s.opened with
  | [] => { s with global := (name, value) :: s.global }
  | level :: outer => { s with opened := ((name, value) :: level) :: outer }

/-- The levels, innermost first and the global one last. -/
def levels (s : Scope) : List Level := s.opened ++ [s.global]

/-- The value of a variable: the one its innermost level gives. -/
def get? (s : Scope) (name : String) : Option Value :=
  s.levels.findSome? fun level => level.lookup name

/-- The number of levels, the global one included. -/
def depth (s : Scope) : Nat := s.opened.length + 1

/-- Makes several definitions in order. -/
def defineAll (s : Scope) (definitions : List (String × Value)) : Scope :=
  definitions.foldl (fun s d => s.define d.1 d.2) s

/-- The scope with the given levels, outermost first, each a list of definitions in order. -/
def ofLevels : List (List (String × Value)) → Scope
  | [] => empty
  | outermost :: inner =>
    inner.foldl (fun s definitions => s.push.defineAll definitions) (empty.defineAll outermost)

end Scope

end SolidOps
