import SolidOps.Settings

/-!
# Nodes

The tree that calls build.  A node is either an operation, which has settings and children, or a
foreign node, of which only its name and canonical text are known here.  An operation's name comes
from its settings, so a node cannot go by one operator and carry the settings of another.

`Operation` is an operation by itself.  It is what a call gives and what a geometry backend works
on; `Operation.toNode` makes it a node, to be a child of other operations.
-/

namespace SolidOps

/-- A node of the tree. -/
inductive Node
  | foreign (name text : String)
  | operation (settings : Settings) (children : List Node)

namespace Node

instance : Inhabited Node := ⟨foreign "" ""⟩

/-- The name of a node; an operation has its operator's keyword. -/
def name : Node → String
  | foreign name _ => name
  | operation settings _ => settings.operator.keyword

/-- The text that stands for a node without its children. -/
def canonicalText : Node → String
  | foreign _ text => text
  | operation settings _ => settings.text

/-- The children of a node; a foreign node has none. -/
def children : Node → List Node
  | foreign _ _ => []
  | operation _ children => children

end Node

/-- An operation with its children. -/
structure Operation where
  settings : Settings
  children : List Node

namespace Operation

/-- The operator of an operation. -/
def operator (o : Operation) : Operator := o.settings.operator

/-- The keyword of its operator. -/
def name (o : Operation) : String := o.operator.keyword

/-- The text that stands for an operation without its children. -/
def canonicalText (o : Operation) : String := o.settings.text

/-- The operation as a node. -/
def toNode (o : Operation) : Node := .operation o.settings o.children

/-- The geometry that a backend makes of an operation.  The backend sees the whole operation and
decides by itself what to do about the children. -/
def geometry {α : Type} (backend : Operation → α) (o : Operation) : α := backend o

end Operation

end SolidOps
