import Rollout.ConfigType
import Rollout.Parameter
import Rollout.Template

/-! Configs: the objects to deploy, each in one environment. -/

namespace Rollout

structure Config where
  coordinate : Coordinate
  configType : ConfigType
  environment : String
  parameters : SortedMap String Parameter
  template : Template
  /-- Left out of deployments, though others may refer to it. -/
  skip : Bool
  /-- The id of an object that is known to be the config's. -/
  originObjectId : Option String

namespace Config

/-- The parameter with the display name of the object. -/
def nameParameter : String := "name"

/-- The parameter with the scope of a settings object. -/
def scopeParameter : String := "scope"

/-- The references of all parameters, in the order in which they are declared. -/
def references (c : Config) : List Reference := c.parameters.values.flatMap Parameter.references

/-- The coordinates that a config refers to, its own one included if it refers to itself. -/
def targets (c : Config) : List Coordinate := ascending (c.references.map (·.coordinate))

end Config

end Rollout
