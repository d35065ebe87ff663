import Rollout.Project

/-! The dependency graph of the configs of one environment. A config depends on the configs that its
parameters refer to. -/

namespace Rollout

/-- A config with the configs that have to be deployed before it. -/
structure Vertex where
  config : Config
  /-- Ascending, and without the config itself. -/
  dependencies : List Coordinate

structure DependencyGraph where
  vertices : SortedMap Coordinate Vertex

namespace DependencyGraph

/-- The graph on configs with references inside it; other references are no edges. -/
def ofConfigs (configs : SortedMap Coordinate Config) : DependencyGraph where
  vertices := configs.mapValues fun config =>
    ⟨config, config.targets.filter fun target =>
      target ≠ config.coordinate && configs.contains target⟩

def coordinates (g : DependencyGraph) : List Coordinate := g.vertices.keys

/-- All configs, ordered by coordinate. -/
def configs (g : DependencyGraph) : List Config := g.vertices.values.map (·.config)

def size (g : DependencyGraph) : Nat := g.vertices.size

def isEmpty (g : DependencyGraph) : Bool := g.vertices.isEmpty

def contains (g : DependencyGraph) (c : Coordinate) : Bool := g.vertices.contains c

def config? (g : DependencyGraph) (c : Coordinate) : Option Config :=
  (g.vertices.get? c).map (·.config)

/-- What has to be deployed before a config, ascending; nothing if it is not in the graph. -/
def dependencies (g : DependencyGraph) (c : Coordinate) : List Coordinate :=
  ((g.vertices.get? c).map (·.dependencies)).getD []

/-- What refers to a config, ascending. -/
def dependents (g : DependencyGraph) (c : Coordinate) : List Coordinate :=
  (g.vertices.entries.filter fun (_, v) => v.dependencies.contains c).map (·.1)

/-- A config refers to another one. -/
def DependsOn (g : DependencyGraph) (c d : Coordinate) : Prop := d ∈ g.dependencies c

/-- All pairs of a config and one that depends on it, ascending. -/
def edges (g : DependencyGraph) : List (Coordinate × Coordinate) :=
  g.coordinates.flatMap fun c => (g.dependents c).map fun d => (c, d)

theorem mem_coordinates_iff {g : DependencyGraph} {c : Coordinate} :
    c ∈ g.coordinates ↔ ∃ v, g.vertices.get? c = some v := SortedMap.mem_keys_iff

theorem nodup_coordinates (g : DependencyGraph) : g.coordinates.Nodup := g.vertices.nodup_keys

@[simp] theorem length_coordinates (g : DependencyGraph) : g.coordinates.length = g.size := by
  simp [coordinates, size, SortedMap.keys, SortedMap.size]

theorem config?_eq_some_iff {g : DependencyGraph} {c : Coordinate} {config : Config} :
    g.config? c = some config ↔ ∃ v, g.vertices.get? c = some v ∧ v.config = config :=
  Option.map_eq_some_iff

theorem dependencies_of_get? {g : DependencyGraph} {c : Coordinate} {v : Vertex}
    (h : g.vertices.get? c = some v) : g.dependencies c = v.dependencies := by
  simp [dependencies, h]

theorem mem_dependencies_iff {g : DependencyGraph} {c d : Coordinate} :
    d ∈ g.dependencies c ↔ ∃ v, g.vertices.get? c = some v ∧ d ∈ v.dependencies := by
  cases h : g.vertices.get? c <;> simp [dependencies, h]

@[simp] theorem mem_dependents_iff {g : DependencyGraph} {c d : Coordinate} :
    d ∈ g.dependents c ↔ c ∈ g.dependencies d := by
  simp [dependents, mem_dependencies_iff, SortedMap.mem_entries_iff]

theorem nodup_dependents (g : DependencyGraph) (c : Coordinate) : (g.dependents c).Nodup :=
  g.nodup_coordinates.sublist (List.filter_sublist.map _)

/-- Whatever depends on something is in the graph. -/
theorem mem_coordinates_of_dependency {g : DependencyGraph} {c d : Coordinate}
    (h : d ∈ g.dependencies c) : c ∈ g.coordinates := by
  obtain ⟨v, hv, _⟩ := mem_dependencies_iff.1 h
  exact mem_coordinates_iff.2 ⟨v, hv⟩

end DependencyGraph

end Rollout
