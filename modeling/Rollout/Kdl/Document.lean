import Rollout.Number.Binary64

/-! KDL documents: a document is a list of nodes, and a node has a name, entries in order and
possibly a block of child nodes. Type annotations are not kept. -/

namespace Rollout.Kdl

/-- A value of an entry. -/
inductive Scalar
  | string (value : String)
  | integer (value : Int)
  | double (value : Double)
  | bool (value : Bool)
  | null
deriving DecidableEq, Inhabited

/-- An argument, or a property if it has a name. -/
structure Entry where
  name : Option String
  value : Scalar
deriving DecidableEq, Inhabited

structure Node where
  name : String
  entries : List Entry
  /-- The child nodes; an empty block is not the same as no block. -/
  block : Option (List Node)
deriving Inhabited

abbrev Document := List Node

namespace Scalar

def text? : Scalar → Option String
  | .string s => some s
  | _ => none

def bool? : Scalar → Option Bool
  | .bool b => some b
  | _ => none

end Scalar

namespace Node

/-- The values without a name, in order. -/
def arguments (n : Node) : List Scalar :=
  (n.entries.filter (·.name.isNone)).map (·.value)

/-- The value of a property. Of a repeated property the last one counts. -/
def property? (n : Node) (name : String) : Option Scalar :=
  (n.entries.reverse.find? (·.name = some name)).map (·.value)

/-- An argument that is a string. -/
def textArgument? (n : Node) (index : Nat) : Option String :=
  n.arguments[index]?.bind Scalar.text?

/-- A property that is a string. -/
def textProperty? (n : Node) (name : String) : Option String :=
  (n.property? name).bind Scalar.text?

def hasProperty (n : Node) (name : String) : Bool := (n.property? name).isSome

/-- The child nodes, none where there is no block. -/
def children (n : Node) : List Node := n.block.getD []

end Node

end Rollout.Kdl
