import Rollout.Proofs.Graph.Cycle
import Rollout.Proofs.Graph.Levels
import Rollout.Proofs.Parameter

/-! Which configs have a graph, and which graph that is. Building succeeds just for configs with
different coordinates that refer to each other without a cycle, and the graph then shows who refers
to whom: each pair once, in ascending order. -/

namespace Rollout

/-- The config with the first coordinate has a reference to the second somewhere in its parameters.
-/
def RefersTo (configs : List Config) (c d : Coordinate) : Prop :=
  ∃ config ∈ configs, config.coordinate = c ∧
    ∃ parameter ∈ config.parameters.values, ∃ r, parameter.Mentions r ∧ r.coordinate = d

theorem refersTo_iff {configs : List Config} {c d : Coordinate} :
    RefersTo configs c d ↔ ∃ config ∈ configs, config.coordinate = c ∧ d ∈ config.targets := by
  simp only [RefersTo, Config.mem_targets_iff, Config.references, List.mem_flatMap,
    Parameter.mem_references_iff]
  constructor
  · rintro ⟨config, hconfig, hc, parameter, hparameter, r, hr, hd⟩
    exact ⟨config, hconfig, hc, r, ⟨parameter, hparameter, hr⟩, hd⟩
  · rintro ⟨config, hconfig, hc, r, ⟨parameter, hparameter, hr⟩, hd⟩
    exact ⟨config, hconfig, hc, parameter, hparameter, r, hr, hd⟩

/-- Configs that can be deployed together. -/
structure AreInOrder (configs : List Config) : Prop where
  nodup : (configs.map (·.coordinate)).Nodup
  defined : ∀ c d, RefersTo configs c d → d ∈ configs.map (·.coordinate)
  different : ∀ c d, RefersTo configs c d → d ≠ c
  acyclic : ∀ c, ¬ Relation.TransGen (RefersTo configs) c c

namespace DependencyGraph

variable {g : DependencyGraph} {configs : List Config}

/-- First by the first coordinates, then by the second. -/
def edgeOrder (a b : Coordinate × Coordinate) : Ordering :=
  (compare a.1 b.1).then (compare a.2 b.2)

/-- A graph with the given configs and an edge for each pair of which one refers to the other. -/
structure Depicts (g : DependencyGraph) (configs : List Config) : Prop where
  coordinates : g.coordinates.Perm (configs.map (·.coordinate))
  config?_iff : ∀ c config, g.config? c = some config ↔ config ∈ configs ∧ config.coordinate = c
  mem_edges : ∀ d c, (d, c) ∈ g.edges ↔ RefersTo configs c d
  edges_ascend : g.edges.Pairwise (edgeOrder · · = .lt)
  mem_dependencies : ∀ c d, d ∈ g.dependencies c ↔ RefersTo configs c d
  dependencies_ascend : ∀ c, (g.dependencies c).Pairwise (compare · · = .lt)
  mem_dependents : ∀ d c, c ∈ g.dependents d ↔ RefersTo configs c d
  dependents_ascend : ∀ d, (g.dependents d).Pairwise (compare · · = .lt)
  unknown : ∀ c ∉ configs.map (·.coordinate), g.dependencies c = [] ∧ g.dependents c = []

/-! ### Order -/

theorem pairwise_dependents (g : DependencyGraph) (c : Coordinate) :
    (g.dependents c).Pairwise (compare · · = .lt) :=
  g.vertices.pairwise_keys.sublist (List.filter_sublist.map _)

theorem pairwise_edges (g : DependencyGraph) : g.edges.Pairwise (edgeOrder · · = .lt) := by
  apply List.pairwise_flatMap.2
  constructor
  · intro d _
    apply List.pairwise_map.2
    apply (g.pairwise_dependents d).imp
    intro a b hab
    simpa [edgeOrder] using hab
  · apply g.vertices.pairwise_keys.imp
    intro d d' hlt a ha b hb
    obtain ⟨_, _, rfl⟩ := List.mem_map.1 ha
    obtain ⟨_, _, rfl⟩ := List.mem_map.1 hb
    simp [edgeOrder, hlt]

theorem mem_edges_iff {d c : Coordinate} :
    (d, c) ∈ g.edges ↔ d ∈ g.coordinates ∧ d ∈ g.dependencies c := by
  simp [edges]

/-! ### Acceptance -/

namespace IsGraphOf

theorem mem_dependencies_iff (H : g.IsGraphOf configs) {c d : Coordinate} :
    d ∈ g.dependencies c ↔ RefersTo configs c d := by
  rw [refersTo_iff]
  constructor
  · intro hd
    obtain ⟨config, hconfig, rfl⟩ := H.mem_coordinates_iff.1 (mem_coordinates_of_dependency hd)
    exact ⟨config, hconfig, rfl, H.dependencies hconfig ▸ hd⟩
  · rintro ⟨config, hconfig, rfl, hd⟩
    exact H.dependencies hconfig ▸ hd

theorem areInOrder (H : g.IsGraphOf configs) : AreInOrder configs := by
  have hrefers : RefersTo configs = g.DependsOn := by
    funext c d
    exact propext H.mem_dependencies_iff.symm
  have hacyclic : ∀ c, ¬ Relation.TransGen (RefersTo configs) c c := hrefers ▸ H.irrefl
  refine ⟨H.nodup, ?_, ?_, hacyclic⟩
  · intro c d hd
    exact H.coordinates_perm.mem_iff.1 (H.closed c (H.mem_dependencies_iff.2 hd))
  · rintro c d hd rfl
    exact hacyclic d (.single hd)

theorem depicts (H : g.IsGraphOf configs) : g.Depicts configs where
  coordinates := H.coordinates_perm
  config?_iff _ _ := H.config?_iff
  mem_edges d c := by
    rw [mem_edges_iff, ← H.mem_dependencies_iff]
    exact and_iff_right_of_imp fun hd => H.closed c hd
  edges_ascend := g.pairwise_edges
  mem_dependencies _ _ := H.mem_dependencies_iff
  dependencies_ascend := H.pairwise_dependencies
  mem_dependents _ _ := mem_dependents_iff.trans H.mem_dependencies_iff
  dependents_ascend := g.pairwise_dependents
  unknown c hc := by
    have hout : c ∉ g.coordinates := fun h => hc (H.coordinates_perm.mem_iff.1 h)
    constructor
    · exact List.eq_nil_iff_forall_not_mem.2 fun d hd => hout (mem_coordinates_of_dependency hd)
    · exact List.eq_nil_iff_forall_not_mem.2 fun d hd => hout (H.closed d (mem_dependents_iff.1 hd))

end IsGraphOf

end DependencyGraph

namespace AreInOrder

open DependencyGraph

variable {configs : List Config} (h : AreInOrder configs)

include h

/-- An edge of the graph is a reference. -/
private theorem refersTo_of_dependsOn {c d : Coordinate}
    (hd : (ofConfigs (byCoordinate configs)).DependsOn c d) : RefersTo configs c d := by
  obtain ⟨v, hv, hd⟩ := mem_dependencies_iff.1 hd
  rw [get?_ofConfigs] at hv
  obtain ⟨config, hconfig, rfl⟩ := Option.map_eq_some_iff.1 hv
  obtain ⟨hmem, hc⟩ := (get?_byCoordinate h.nodup).1 hconfig
  exact refersTo_iff.2 ⟨config, hmem, hc, (List.mem_filter.1 hd).1⟩

theorem findCycle?_eq_none : (ofConfigs (byCoordinate configs)).findCycle? = none := by
  rw [Option.eq_none_iff_forall_ne_some]
  intro cycle hcycle
  obtain ⟨c, hc⟩ := (isCycle_of_findCycle? hcycle).exists_transGen_self
  exact h.acyclic c (hc.lift id fun _ _ => h.refersTo_of_dependsOn)

theorem referenceErrors_eq_nil : ∀ p ∈ (byCoordinate configs).entries,
    referenceErrors (byCoordinate configs) p.1 p.2 = [] := by
  rintro ⟨c, config⟩ hmem
  obtain ⟨hconfig, hc⟩ := (get?_byCoordinate h.nodup).1 (SortedMap.mem_entries_iff.1 hmem)
  apply referenceErrors_eq_nil_iff.2
  intro d hd
  have hrefers : RefersTo configs c d := refersTo_iff.2 ⟨config, hconfig, hc, hd⟩
  obtain ⟨target, htarget, rfl⟩ := List.mem_map.1 (h.defined c d hrefers)
  refine ⟨h.different c _ hrefers, ?_⟩
  rw [SortedMap.contains, (get?_byCoordinate h.nodup).2 ⟨htarget, rfl⟩]
  rfl

theorem build_eq_ok : build configs = .ok (ofConfigs (byCoordinate configs)) :=
  build_eq_ok_iff.2 ⟨rfl, repeatedCoordinates_eq_nil_iff.2 h.nodup, h.referenceErrors_eq_nil,
    h.findCycle?_eq_none⟩

end AreInOrder

namespace DependencyGraph

/-- Building accepts just the configs that are in order, and gives the graph of their references. -/
theorem build_accepts (configs : List Config) :
    ((∃ g, build configs = .ok g) ↔ AreInOrder configs) ∧
      ∀ g, build configs = .ok g → g.Depicts configs := by
  refine ⟨⟨?_, fun h => ⟨_, h.build_eq_ok⟩⟩, fun g hg => (isGraphOf_of_build hg).depicts⟩
  rintro ⟨g, hg⟩
  exact (isGraphOf_of_build hg).areInOrder

end DependencyGraph

namespace Diamond

theorem depicted : AreInOrder Diamond.configs ∧
    graph.edges = [(tag "left", tag "top"), (tag "right", tag "top"), (tag "root", tag "left"),
      (tag "root", tag "right")] ∧
    ∀ c d, RefersTo Diamond.configs c d ↔ (d, c) ∈ graph.edges := by
  obtain ⟨haccepts, hdepicts⟩ := DependencyGraph.build_accepts Diamond.configs
  refine ⟨haccepts.1 ⟨graph, build_configs⟩, by rfl, fun c d => ?_⟩
  exact ((hdepicts graph build_configs).mem_edges d c).symm

end Diamond

end Rollout
