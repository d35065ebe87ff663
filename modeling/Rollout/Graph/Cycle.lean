import Rollout.Graph.Basic

/-! Search for a cycle, in depth, along the edges from a config to those that depend on it. -/

namespace Rollout.DependencyGraph

/-- Visits a coordinate and everything that can be reached from it. `path` leads to the coordinate,
and what is in `done` need not be visited again. Gives the new `done`, or a cycle: the part of the
path from a coordinate that is met again, with that coordinate once more at its end. No path is
longer than the graph is large, so that is enough depth. -/
def visit (g : DependencyGraph) : Nat → List Coordinate → List Coordinate → Coordinate →
    Except (List Coordinate) (List Coordinate)
  | 0, _, done, _ => .ok done
  | depth + 1, path, done, c => do
    let path := path ++ [c]
    let done ← (g.dependents c).foldlM (fun done next =>
      if next ∈ path then .error (path.dropWhile (· ≠ next) ++ [next])
      else if next ∈ done then .ok done
      else g.visit depth path done next) done
    return c :: done

/-- A cycle, in the direction from a config to those that depend on it. -/
def findCycle? (g : DependencyGraph) : Option (List Coordinate) :=
  let search := g.coordinates.foldlM (fun done c =>
    if c ∈ done then .ok done else g.visit g.size [] done c) []
  match search with
  | .ok _ => none
  | .error cycle => some cycle

end Rollout.DependencyGraph
