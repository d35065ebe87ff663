import Rollout.Deploy.Report

/-! Deploying a single config: its parameters are resolved, its template is rendered, and the object
that belongs to it is updated, or created where there is none. -/

namespace Rollout

/-- The text a payload takes from a parameter, none where it is absent or null. -/
def parameterText (values : SortedMap String Json) (name : String) : Option String :=
  match values.get? name with
  | none => none
  | some .null => none
  | some (.string s) => some s
  | some value => some value.render

namespace Config

/-- The values of all parameters by name, or the first error. -/
def resolveAll (vars : Variables) (ctx : Context) :
    List (String × Parameter) → Except DeployError (List (String × Json))
  | [] => .ok []
  | (name, parameter) :: rest =>
    match parameter.resolve vars ctx with
    | .error e => .error (.parameter name e)
    | .ok value => (resolveAll vars ctx rest).map ((name, value) :: ·)

/-- The payload of a config and the values that went into it. -/
def prepare (vars : Variables) (ctx : Context) (config : Config) :
    Except DeployError (Payload × SortedMap String Json) := do
  let values := SortedMap.ofList (← resolveAll vars ctx config.parameters.entries)
  match config.template.render values with
  | .error e => .error (.render e)
  | .ok content =>
    let name := parameterText values nameParameter
    let scope := parameterText values scopeParameter
    if config.configType.kind = .settings ∧ scope.isNone then .error .missingScope
    else if config.configType.identity = .name ∧ name.isNone then .error .missingName
    else
      let c := config.coordinate
      .ok (⟨c, name, c.externalId, scope, content⟩, values)

end Config

/-- Whether an object is the one a payload is for. -/
def Payload.isFor (payload : Payload) (identity : Identity) (object : RemoteObject) : Bool :=
  match identity with
  | .name => payload.name.isSome && object.name = payload.name
  | .externalId => object.externalId = some payload.externalId

section

variable {σ : Type} (P : Platform σ)

/-- Updates the one object that is there for a payload, or creates it. -/
def discover (type : ConfigType) (payload : Payload) : StateM σ (Except DeployError String) := do
  match ← P.handle (.list type) with
  | .error e => return .error (.remote e)
  | .ok existing =>
    match existing.filter (payload.isFor type.identity) with
    | [] =>
      match ← P.handle (.create type payload) with
      | .ok id => return .ok id
      | .error e => return .error (.remote e)
    | [object] =>
      match ← P.handle (.update type object.id payload) with
      | .ok _ => return .ok object.id
      | .error e => return .error (.remote e)
    | several => return .error (.ambiguous (payload.name.getD "") several.length)

/-- Brings a payload to the platform and gives the id of its object. A known object is updated
directly; if it is gone, the object is looked for as if none were known. -/
def deliver (config : Config) (payload : Payload) : StateM σ (Except DeployError String) := do
  match config.originObjectId with
  | none => discover P config.configType payload
  | some id =>
    match ← P.handle (.update config.configType id payload) with
    | .ok _ => return .ok id
    | .error e =>
      if e.isNotFound then discover P config.configType payload else return .error (.remote e)

/-- Deploys a config, unless the run is to stop. -/
def deployConfig (vars : Variables) (ctx : Context) (config : Config) :
    StateM σ (Except DeployError ResolvedEntity) := do
  if ← P.poll then return .error .cancelled
  match config.prepare vars ctx with
  | .error e => return .error e
  | .ok (payload, values) =>
    match ← deliver P config payload with
    | .error e => return .error e
    | .ok id => return .ok ⟨config.coordinate, id, values⟩

end

end Rollout
