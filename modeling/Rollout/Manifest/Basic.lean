import Rollout.Project
import Rollout.LoadError

/-! Manifests: the declared environments and the projects with their configs. A config is declared
once and exists once in every environment, with what the overrides for that environment change. -/

namespace Rollout

structure Manifest where
  /-- In the order of their declarations. -/
  environments : List String
  projects : List Project

namespace Manifest

/-- The configs of all projects for one environment. -/
def configsFor (m : Manifest) (environment : String) : List Config :=
  Rollout.configsFor m.projects environment

/-- What the body of a config or an override sets. -/
structure Body where
  template : Option String
  parameters : SortedMap String Parameter
  skip : Option Bool
  originObjectId : Option String

namespace Body

def empty : Body := ⟨none, ∅, none, none⟩

/-- What `changes` sets replaces what is set before, each parameter by itself. -/
def override (base changes : Body) : Body where
  template := changes.template.or base.template
  parameters := base.parameters.override changes.parameters
  skip := changes.skip.or base.skip
  originObjectId := changes.originObjectId.or base.originObjectId

end Body

/-- A config as declared. -/
structure Declaration where
  coordinate : Coordinate
  configType : ConfigType
  body : Body
  /-- The overrides in order, each with its environment. -/
  overrides : List (String × Body)

namespace Declaration

/-- What is set in an environment: the overrides that name it are applied in order. -/
def bodyIn (d : Declaration) (environment : String) : Body :=
  (d.overrides.filter (·.1 = environment)).foldl (fun body changes => body.override changes.2)
    d.body

/-- The config in an environment, if it has a template there. -/
def configIn? (d : Declaration) (environment : String) : Option Config :=
  let body := d.bodyIn environment
  body.template.map fun content =>
    { coordinate := d.coordinate
      configType := d.configType
      environment
      parameters := body.parameters
      template := ⟨d.coordinate.configId ++ ".json", content⟩
      skip := body.skip.getD false
      originObjectId := body.originObjectId }

/-- The configs in the declared environments. -/
def configs (environments : List String) (d : Declaration) : List Config :=
  environments.filterMap d.configIn?

/-- Overrides for environments that are not declared, then environments without a template. -/
def problems (environments : List String) (d : Declaration) : List LoadProblem :=
  (d.overrides.filter fun changes => !environments.contains changes.1).map (fun changes =>
      .unknownEnvironment ("'" ++ changes.1 ++ "' in override of " ++ d.coordinate.display)) ++
    (environments.filter fun environment => (d.configIn? environment).isNone).map fun environment =>
      .missingField
        ("template of " ++ d.coordinate.display ++ " in environment '" ++ environment ++ "'")

end Declaration

end Manifest

end Rollout
