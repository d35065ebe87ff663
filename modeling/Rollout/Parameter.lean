import Rollout.Context
import Rollout.Ascending
import Rollout.Text.Holes
import Rollout.Json.Printer

/-! Parameters of configs: which references they declare, and their values, given the environment
variables and what was deployed before. -/

namespace Rollout

/-- The environment variables of the process. -/
abbrev Variables := String → Option String

inductive Parameter
  | literal (value : Json)
  /-- An environment variable, with a value for when it is not set. -/
  | environment (name : String) (fallback : Option String)
  | reference (target : Reference)
  | list (items : List Parameter)
  /-- A text in which `${part}` stands for the value of the named part. -/
  | compound (format : String) (parts : List (String × Parameter))
deriving Inhabited

inductive ParameterError
  | variableNotSet (name : String)
  | notDeployed (target : Reference)
  | noSuchProperty (target : Reference)
  | noSuchPart (part : String)
  /-- Only strings, numbers and booleans can stand in a text. -/
  | partWithoutText (part : String) (value : Json)
deriving DecidableEq

namespace ParameterError

def message : ParameterError → String
  | .variableNotSet name => "environment variable '" ++ name ++ "' is not set"
  | .notDeployed target =>
    "reference " ++ target.display ++ " cannot be resolved: the config was not deployed in this run"
  | .noSuchProperty target =>
    "reference " ++ target.display ++ " cannot be resolved: the config has no property '" ++
      target.property ++ "'"
  | .noSuchPart part => "format references unknown part '" ++ part ++ "'"
  | .partWithoutText part value =>
    "invalid value: part '" ++ part ++ "' resolved to " ++ value.render ++
      ", which cannot be embedded in a format"

end ParameterError

namespace Parameter

mutual

/-- The references of a parameter at any depth, in the order in which they are declared. -/
def references : Parameter → List Reference
  | .literal _ => []
  | .environment _ _ => []
  | .reference target => [target]
  | .list items => itemReferences items
  | .compound _ parts => partReferences parts

def itemReferences : List Parameter → List Reference
  | [] => []
  | item :: rest => references item ++ itemReferences rest

def partReferences : List (String × Parameter) → List Reference
  | [] => []
  | (_, part) :: rest => references part ++ partReferences rest

end

/-- May stand in the name of a part after its first character. -/
def isPartChar (c : Char) : Bool :=
  Text.isLetterOrUnderscore c || c.isDigit || c = '.' || c = '-'

/-- A part `${name}` at the start of a text. -/
def partHole? : List Char → Option Text.Hole
  | '$' :: '{' :: rest =>
    let name := rest.takeWhile isPartChar
    match name, rest.drop name.length with
    | first :: _, '}' :: _ =>
      if Text.isLetterOrUnderscore first then some ⟨name, name.length + 3⟩ else none
    | _, _ => none
  | _ => none

def formatSegments (format : String) : List Text.Segment :=
  Text.Segment.scan partHole? 0 format.toList

/-- The text of a value that stands for a part. -/
def partText? : Json → Option String
  | .string s => some s
  | .number n => some n.text
  | .bool b => some (Json.render (.bool b))
  | _ => none

/-- The text of a named part, once all parts are resolved. -/
def partText (parts : List (String × Except ParameterError Json)) (name : String) :
    Except ParameterError String :=
  match Assoc.get? name parts with
  | none => .error (.noSuchPart name)
  | some (.error e) => .error e
  | some (.ok value) =>
    match partText? value with
    | some text => .ok text
    | none => .error (.partWithoutText name value)

/-- Fills a format from left to right, up to the first part that has no text. -/
def fillFormat (parts : List (String × Except ParameterError Json)) :
    List Text.Segment → Except ParameterError (List Char)
  | [] => .ok []
  | .char c :: rest => do return c :: (← fillFormat parts rest)
  | .hole name :: rest => do
    let text ← partText parts (.ofList name)
    return text.toList ++ (← fillFormat parts rest)

def resolveReference (ctx : Context) (target : Reference) : Except ParameterError Json :=
  if ctx.contains target.coordinate then
    match ctx.lookup? target with
    | some value => .ok value
    | none => .error (.noSuchProperty target)
  else .error (.notDeployed target)

mutual

/-- The value of a parameter. -/
def resolve (vars : Variables) (ctx : Context) : Parameter → Except ParameterError Json
  | .literal value => .ok value
  | .environment name fallback =>
    match vars name, fallback with
    | some text, _ => .ok (.string text)
    | none, some text => .ok (.string text)
    | none, none => .error (.variableNotSet name)
  | .reference target => resolveReference ctx target
  | .list items => (resolveItems vars ctx items).map Json.array
  | .compound format parts =>
    (fillFormat (resolveParts vars ctx parts) (formatSegments format)).map
      fun text => .string (.ofList text)

/-- The values of the items, or the first error. -/
def resolveItems (vars : Variables) (ctx : Context) :
    List Parameter → Except ParameterError (List Json)
  | [] => .ok []
  | item :: rest => do
    let value ← resolve vars ctx item
    return value :: (← resolveItems vars ctx rest)

/-- What comes of each part. An error in a part that the format does not name has no consequence. -/
def resolveParts (vars : Variables) (ctx : Context) :
    List (String × Parameter) → List (String × Except ParameterError Json)
  | [] => []
  | (name, part) :: rest => (name, resolve vars ctx part) :: resolveParts vars ctx rest

end

end Parameter

end Rollout
