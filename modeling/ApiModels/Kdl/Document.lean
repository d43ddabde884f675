/-!
# KDL documents

A document is a list of nodes. A node has a name, entries (arguments and properties, in the order
they are written) and possibly children.
-/

namespace ApiModels.Kdl

/-- A value. -/
inductive Value where
  | text (s : String)
  | number
  | bool (b : Bool)
  | null
deriving DecidableEq, Repr

/-- The text of a value, if it is one. -/
def Value.text? : Value → Option String
  | .text s => some s
  | _ => none

/-- An entry of a node: a property if it has a name, else an argument. -/
structure Entry where
  name : Option String
  value : Value
deriving DecidableEq, Repr

/-- A node. -/
inductive Node where
  | mk (name : String) (entries : List Entry) (children : Option (List Node))
deriving Repr

namespace Node

/-- The name of a node. -/
def name : Node → String
  | mk name _ _ => name

/-- The entries of a node. -/
def entries : Node → List Entry
  | mk _ entries _ => entries

/-- The children of a node, if it has a block of them. -/
def children : Node → Option (List Node)
  | mk _ _ children => children

/-- The first argument of a node. -/
def argument? (n : Node) : Option Value := (n.entries.find? fun e => e.name.isNone).map Entry.value

/-- The value of a property of a node. Of several the last counts. -/
def property? (n : Node) (key : String) : Option Value :=
  (n.entries.reverse.find? fun e => e.name = some key).map Entry.value

end Node

end ApiModels.Kdl
