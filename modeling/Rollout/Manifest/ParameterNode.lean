import Rollout.Manifest.Basic
import Rollout.Kdl.Document

/-! Parameters as nodes of a manifest. A node gives a reference, an environment variable, a format
with parts, a list of items or a literal value, whichever of these comes first. -/

namespace Rollout.Manifest

/-- A string argument that has to be there. -/
def requiredText (node : Kdl.Node) (index : Nat) (what : String) : Except LoadProblem String :=
  match node.textArgument? index with
  | some text => .ok text
  | none => .error (.missingField what)

/-- How messages call a number that is not finite. -/
def nonFiniteText : Double → String
  | .infinite true => "-inf"
  | .infinite false => "inf"
  | _ => "NaN"

/-- A literal as a JSON value. Integers have 64 bits with their sign. -/
def literal (field : String) : Kdl.Scalar → Except LoadProblem Json
  | .string s => .ok (.string s)
  | .bool b => .ok (.bool b)
  | .integer i =>
    if Int64.minValue.toInt ≤ i ∧ i ≤ Int64.maxValue.toInt then .ok (.ofInt i)
    else .error (.invalidValue field ("integer " ++ toString i ++ " is out of range"))
  | .double (.finite x) => .ok (.number (.double x))
  | .double x => .error (.invalidValue field (nonFiniteText x ++ " is not a finite number"))
  | .null => .ok .null

/-- A parameter without children. The value is the argument at the given place. -/
def leafParameter (field : String) (valueIndex : Nat) (node : Kdl.Node) :
    Except LoadProblem Parameter :=
  if node.hasProperty "default" then .error (.invalidValue field "'default' requires 'env'")
  else
    match node.arguments[valueIndex]? with
    | some value => (literal field value).map Parameter.literal
    | none => .error (.missingField ("value of " ++ field))

def referenceParameter (field : String) (node : Kdl.Node) (target : String) :
    Except LoadProblem Parameter :=
  match Coordinate.parse? target with
  | some coordinate =>
    .ok (.reference ⟨coordinate, (node.textProperty? "property").getD Reference.idProperty⟩)
  | none => .error (.invalidReference (field ++ ": " ++ Coordinate.parseFailure target))

/-- How a parameter is given. -/
inductive Form
  | reference (target : String)
  | environment (name : String)
  | format (text : String)
  /-- Items or a literal. -/
  | plain

def formOf (node : Kdl.Node) : Form :=
  match node.textProperty? "ref", node.textProperty? "env", node.textProperty? "format" with
  | some target, _, _ => .reference target
  | none, some name, _ => .environment name
  | none, none, some text => .format text
  | none, none, none => .plain

mutual

/-- The parameter that a node gives. A literal is the argument at the given place. -/
def parameterOfNode (field : String) (valueIndex : Nat) : Kdl.Node → Except LoadProblem Parameter
  | ⟨name, entries, block⟩ =>
    let node : Kdl.Node := ⟨name, entries, none⟩
    match formOf node, block with
    | .reference target, _ => referenceParameter field node target
    | .environment name, _ => .ok (.environment name (node.textProperty? "default"))
    | .format text, none => .ok (.compound text [])
    | .format text, some children => (partsOfNodes field [] children).map (Parameter.compound text)
    | .plain, some children => (itemsOfNodes field 0 children).map Parameter.list
    | .plain, none => leafParameter field valueIndex node

/-- The parts of a format, after those read before. -/
def partsOfNodes (field : String) (parts : List (String × Parameter)) :
    List Kdl.Node → Except LoadProblem (List (String × Parameter))
  | [] => .ok parts
  | node :: rest =>
    if node.name = "part" then do
      let part ← requiredText node 0 ("part name in " ++ field)
      let value ← parameterOfNode (field ++ ", part '" ++ part ++ "'") 1 node
      if (Assoc.get? part parts).isSome then
        .error (.duplicate ("part '" ++ part ++ "' in " ++ field))
      else partsOfNodes field (Assoc.insert part value parts) rest
    else .error (.invalidValue field ("expected 'part', found '" ++ node.name ++ "'"))

/-- The items of a list, of which the first has the given number. -/
def itemsOfNodes (field : String) (index : Nat) :
    List Kdl.Node → Except LoadProblem (List Parameter)
  | [] => .ok []
  | node :: rest =>
    if node.name = "item" then do
      let item ← parameterOfNode (field ++ ", item " ++ toString index) 0 node
      return item :: (← itemsOfNodes field (index + 1) rest)
    else .error (.invalidValue field ("expected 'item', found '" ++ node.name ++ "'"))

end

end Rollout.Manifest
