import Rollout.Graph.Build

/-! The order of deployment. A wave holds all configs whose dependencies are in the waves before it.
Of every config it is counted how many dependencies are still to be placed; when a wave is placed,
the counts of all that refer to its configs go down, and those that come to zero are the next wave.
-/

namespace Rollout

/-- Configs that do not depend on each other, ascending. -/
abbrev Wave := List Coordinate

namespace DependencyGraph

/-- For every config, how many of its dependencies are still to be placed. -/
abbrev Degrees := SortedMap Coordinate Nat

def degrees (g : DependencyGraph) : Degrees := g.vertices.mapValues (·.dependencies.length)

/-- Counts one dependency of a config less. It is ready when that was the last one. -/
def release (counted : Degrees × List Coordinate) (c : Coordinate) : Degrees × List Coordinate :=
  match counted.1.get? c with
  | some n =>
    (counted.1.insert c (n - 1), if n - 1 = 0 then counted.2 ++ [c] else counted.2)
  | none => counted

/-- Places a wave: the counts after it, and what has become ready. -/
def place (g : DependencyGraph) (degrees : Degrees) (wave : Wave) : Degrees × List Coordinate :=
  (wave.flatMap g.dependents).foldl release (degrees, [])

/-- The waves from the one of the configs that are ready, and the counts at the end. Every round
places something or is the last one, so there are at most as many rounds as configs. -/
def wavesFrom (g : DependencyGraph) : Nat → Degrees → List Coordinate → List Wave × Degrees
  | 0, degrees, _ => ([], degrees)
  | rounds + 1, degrees, ready =>
    if ready.isEmpty then ([], degrees)
    else
      let wave := sorted ready
      let (degrees, next) := g.place degrees wave
      let (waves, degrees) := g.wavesFrom rounds degrees next
      (wave :: waves, degrees)

/-- The waves of the whole graph. -/
def waves (g : DependencyGraph) : Except GraphError (List Wave) :=
  let ready := g.coordinates.filter fun c => g.degrees.get? c = some 0
  let (waves, degrees) := g.wavesFrom g.size g.degrees ready
  if waves.flatten.length < g.size then
    .error (.unsortable ((degrees.entries.filter (0 < ·.2)).map (·.1)))
  else .ok waves

end DependencyGraph

end Rollout
