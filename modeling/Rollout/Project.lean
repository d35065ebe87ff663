import Rollout.Config

/-! Projects: named groups of configs, which they hold by environment and type. -/

namespace Rollout

structure Project where
  id : String
  /-- By environment and by name of the type, in the order in which the configs were added. -/
  configs : SortedMap String (SortedMap String (List Config))

namespace Project

def new (id : String) : Project := ⟨id, ∅⟩

/-- Adds a config behind those of its environment and type. -/
def push (p : Project) (c : Config) : Project :=
  { p with
    configs := p.configs.alter c.environment ∅ fun byType =>
      byType.alter c.coordinate.configType [] (· ++ [c]) }

/-- The configs of one environment, by ascending type. -/
def configsFor (p : Project) (environment : String) : List Config :=
  ((p.configs.get? environment).getD ∅).values.flatten

end Project

/-- Every environment for which some project has configs. -/
def environments (projects : List Project) : List String :=
  ascending (projects.flatMap (·.configs.keys))

/-- The configs that all projects have for one environment. -/
def configsFor (projects : List Project) (environment : String) : List Config :=
  projects.flatMap (·.configsFor environment)

/-- The coordinates of configs that come after another one with the same coordinate. -/
def repeatedCoordinates (configs : List Config) : List Coordinate :=
  go [] (configs.map (·.coordinate))
where
  go (seen : List Coordinate) : List Coordinate → List Coordinate
    | [] => []
    | c :: rest => if c ∈ seen then c :: go seen rest else go (c :: seen) rest

end Rollout
