import Rollout.Manifest.ParameterNode
import Rollout.Kdl.Reader

/-! Reading manifests. The document is walked once, collecting declarations and problems side by
side; then every declared config is looked at in every environment, and at last repeated coordinates
are reported. A manifest comes out only if there were no problems. -/

namespace Rollout.Manifest

/-! ### Bodies -/

/-- The body with a parameter node added. Names are distinct within one body. -/
def Body.addParameter (c : Coordinate) (body : Body) (node : Kdl.Node) :
    Except LoadProblem Body := do
  let name ← requiredText node 0 ("parameter name of " ++ c.display)
  let field := "parameter '" ++ name ++ "' of " ++ c.display
  if body.parameters.contains name then .error (.duplicate field)
  else
    let parameter ← parameterOfNode field 1 node
    return { body with parameters := body.parameters.insert name parameter }

/-- The body with a node added. -/
def Body.add (c : Coordinate) (body : Body) (node : Kdl.Node) : Except LoadProblem Body :=
  match node.name with
  | "template" => do
    let template ← requiredText node 0 ("template of " ++ c.display)
    return { body with template := some template }
  | "origin-object-id" => do
    let id ← requiredText node 0 ("origin-object-id of " ++ c.display)
    return { body with originObjectId := some id }
  | "skip" =>
    .ok { body with skip := some ((node.arguments.head?.bind Kdl.Scalar.bool?).getD true) }
  | "param" => body.addParameter c node
  | other => .error (.invalidValue c.display ("unknown node '" ++ other ++ "'"))

/-- Something read in part, with the problems found so far. -/
structure Draft (α : Type) where
  value : α
  problems : List LoadProblem

/-- Goes on after a step that may fail: a failed step changes nothing but is remembered. -/
def Draft.update {α : Type} (d : Draft α) (step : α → Except LoadProblem α) : Draft α :=
  match step d.value with
  | .ok value => ⟨value, d.problems⟩
  | .error problem => ⟨d.value, d.problems ++ [problem]⟩

def bodyOfNodes (c : Coordinate) (nodes : List Kdl.Node) : Draft Body :=
  nodes.foldl (fun d node => d.update fun body => body.add c node) ⟨Body.empty, []⟩

/-! ### Configs -/

/-- The children of a config: nodes of its body and overrides. -/
structure Contents where
  body : Body
  overrides : List (String × Body)

def Contents.empty : Contents := ⟨Body.empty, []⟩

/-- Adds a child of a config. -/
def addChild (c : Coordinate) (d : Draft Contents) (node : Kdl.Node) : Draft Contents :=
  if node.name = "override" then
    match requiredText node 0 ("override environment of " ++ c.display) with
    | .ok environment =>
      let changes := bodyOfNodes c node.children
      ⟨{ d.value with overrides := d.value.overrides ++ [(environment, changes.value)] },
        d.problems ++ changes.problems⟩
    | .error problem => ⟨d.value, d.problems ++ [problem]⟩
  else d.update fun contents => do
    let body ← contents.body.add c node
    return { contents with body }

/-- The coordinate and the type of a config node. -/
def headOfNode (project : String) (node : Kdl.Node) :
    Except LoadProblem (Coordinate × ConfigType) := do
  let typeName ← requiredText node 0 ("config type in project '" ++ project ++ "'")
  let place := "'" ++ typeName ++ "' in project '" ++ project ++ "'"
  let id ← requiredText node 1 ("config id of " ++ place)
  if id.toList.contains Coordinate.separator then
    .error (.invalidValue ("id '" ++ id ++ "' of " ++ place) "config ids must not contain ':'")
  else
    let c : Coordinate := ⟨project, typeName, id⟩
    match ConfigType.ofName? typeName with
    | some configType =>
      return (c, configType.withSchemaVersion (node.textProperty? "schema-version"))
    | none =>
      .error (.invalidValue ("type of " ++ c.display) ("unknown config type '" ++ typeName ++ "'"))

/-- The config of a node, with the problems inside it. -/
def declarationOfNode (project : String) (node : Kdl.Node) :
    Except LoadProblem (Draft Declaration) := do
  let (c, configType) ← headOfNode project node
  let contents := node.children.foldl (addChild c) ⟨Contents.empty, []⟩
  return ⟨⟨c, configType, contents.value.body, contents.value.overrides⟩, contents.problems⟩

/-! ### Projects and environments -/

/-- Adds a child of a project. Nodes of other names are no concern of ours. -/
def addConfig (project : String) (d : Draft (List Declaration)) (node : Kdl.Node) :
    Draft (List Declaration) :=
  if node.name = "config" then
    match declarationOfNode project node with
    | .ok declaration => ⟨d.value ++ [declaration.value], d.problems ++ declaration.problems⟩
    | .error problem => ⟨d.value, d.problems ++ [problem]⟩
  else d

def declarationsOfNodes (project : String) (nodes : List Kdl.Node) : Draft (List Declaration) :=
  nodes.foldl (addConfig project) ⟨[], []⟩

/-- What a document declares. -/
structure Outline where
  environments : List String
  projects : List (String × List Declaration)

def Outline.empty : Outline := ⟨[], []⟩

def addEnvironment (d : Draft Outline) (node : Kdl.Node) : Draft Outline :=
  d.update fun outline => do
    let name ← requiredText node 0 "environment name"
    if outline.environments.contains name then .error (.duplicate ("environment '" ++ name ++ "'"))
    else return { outline with environments := outline.environments ++ [name] }

/-- The name of a project, if it may be declared after those there are. -/
def projectName (declared : List (String × List Declaration)) (node : Kdl.Node) :
    Except LoadProblem String := do
  let name ← requiredText node 0 "project name"
  if name.toList.contains Coordinate.separator then
    .error (.invalidValue ("project '" ++ name ++ "'") "project names must not contain ':'")
  else if declared.any (·.1 = name) then .error (.duplicate ("project '" ++ name ++ "'"))
  else return name

def addProject (d : Draft Outline) (node : Kdl.Node) : Draft Outline :=
  match projectName d.value.projects node with
  | .ok name =>
    let declarations := declarationsOfNodes name node.children
    ⟨{ d.value with projects := d.value.projects ++ [(name, declarations.value)] },
      d.problems ++ declarations.problems⟩
  | .error problem => ⟨d.value, d.problems ++ [problem]⟩

/-- Adds a node of the document. Nodes of other names are no concern of ours. -/
def addNode (d : Draft Outline) (node : Kdl.Node) : Draft Outline :=
  match node.name with
  | "environment" => addEnvironment d node
  | "project" => addProject d node
  | _ => d

def outlineOf (document : Kdl.Document) : Draft Outline :=
  document.foldl addNode ⟨Outline.empty, []⟩

/-! ### Manifests -/

/-- The project with its configs in all environments, declaration by declaration. -/
def projectOf (environments : List String) (name : String) (declarations : List Declaration) :
    Project :=
  (declarations.flatMap (·.configs environments)).foldl Project.push (Project.new name)

/-- The manifest that an outline amounts to. -/
def Outline.manifest (o : Outline) : Manifest where
  environments := o.environments
  projects := o.projects.map fun (name, declarations) => projectOf o.environments name declarations

/-- The coordinates that are declared more than once, each of them once. -/
def Outline.repeated (o : Outline) : List Coordinate :=
  ascending (o.environments.flatMap fun environment =>
    repeatedCoordinates (o.manifest.configsFor environment))

/-- The problems that show only when everything is declared. -/
def Outline.problems (o : Outline) : List LoadProblem :=
  (if o.environments.isEmpty then [.missingField "environment"] else []) ++
    o.projects.flatMap (fun project => project.2.flatMap (·.problems o.environments)) ++
    o.repeated.map fun c => .duplicate c.display

/-- The manifest of a document, or all of its problems. -/
def ofDocument (document : Kdl.Document) : Except LoadError Manifest :=
  let outline := outlineOf document
  LoadError.check (outline.problems ++ outline.value.problems) outline.value.manifest

def ofText (text : String) : Except LoadError Manifest :=
  match Kdl.Document.parse? text with
  | some document => ofDocument document
  | none => .error (.single .malformed)

end Rollout.Manifest
