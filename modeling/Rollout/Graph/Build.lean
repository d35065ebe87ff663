import Rollout.Graph.Cycle

/-! Building the graph of a set of configs, which reports everything that is wrong with the set. -/

namespace Rollout

/-- What is wrong with a set of configs. -/
inductive GraphError
  | duplicateCoordinate (coordinate : Coordinate)
  | undefinedReference (referrer target : Coordinate)
  | selfReference (coordinate : Coordinate)
  | cycle (coordinates : List Coordinate)
  /-- Some coordinates are left over when no more can be put in order. -/
  | unsortable (remaining : List Coordinate)
deriving DecidableEq

namespace GraphError

def chain (coordinates : List Coordinate) : String :=
  " -> ".intercalate (coordinates.map Coordinate.display)

def message : GraphError → String
  | .duplicateCoordinate c => "duplicate config: " ++ c.display ++ " is defined more than once"
  | .undefinedReference referrer target =>
    "undefined reference: " ++ referrer.display ++ " references " ++ target.display ++
      ", which is not defined"
  | .selfReference c => "self reference: " ++ c.display ++ " references itself"
  | .cycle cs => "dependency cycle detected: " ++ chain cs
  | .unsortable cs => "configs could not be ordered: " ++ chain cs

end GraphError

namespace DependencyGraph

/-- What is wrong with the references of a config. -/
def referenceErrors (configs : SortedMap Coordinate Config) (c : Coordinate) (config : Config) :
    List GraphError :=
  config.targets.filterMap fun target =>
    if target = c then some (.selfReference c)
    else if configs.contains target then none
    else some (.undefinedReference c target)

/-- The configs by coordinate. Of those with one coordinate the last stays. -/
def byCoordinate (configs : List Config) : SortedMap Coordinate Config :=
  .ofList (configs.map fun config => (config.coordinate, config))

/-- The graph of configs. Where coordinates are repeated, the last config of each is looked at
further. -/
def build (configs : List Config) : Except (List GraphError) DependencyGraph :=
  let defined := byCoordinate configs
  let g := ofConfigs defined
  let errors :=
    (repeatedCoordinates configs).map GraphError.duplicateCoordinate ++
      defined.entries.flatMap (fun (c, config) => referenceErrors defined c config) ++
      (g.findCycle?.map GraphError.cycle).toList
  if errors.isEmpty then .ok g else .error errors

end DependencyGraph

end Rollout
