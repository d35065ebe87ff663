import Rollout.Graph.Build
import Rollout.Proofs.Graph.Acyclic

/-! What is known of a graph that was built without errors: it holds exactly the given configs, a
config depends on exactly the coordinates it refers to, and no chain of dependencies is infinite. -/

namespace Rollout

theorem repeatedCoordinates_go_eq_nil_iff {seen cs : List Coordinate} :
    repeatedCoordinates.go seen cs = [] ↔ cs.Nodup ∧ ∀ c ∈ cs, c ∉ seen := by
  induction cs generalizing seen with
  | nil => simp [repeatedCoordinates.go]
  | cons c rest ih =>
    rw [repeatedCoordinates.go]
    split
    · rename_i hc
      simp [hc]
    · rename_i hc
      rw [ih]
      simp only [List.mem_cons, not_or, List.nodup_cons, forall_eq_or_imp]
      constructor
      · rintro ⟨hnodup, hrest⟩
        exact ⟨⟨fun h => (hrest c h).1 rfl, hnodup⟩, hc, fun d hd => (hrest d hd).2⟩
      · rintro ⟨⟨hnew, hnodup⟩, _, hrest⟩
        exact ⟨hnodup, fun d hd => ⟨fun h => hnew (h ▸ hd), hrest d hd⟩⟩

theorem repeatedCoordinates_eq_nil_iff {configs : List Config} :
    repeatedCoordinates configs = [] ↔ (configs.map (·.coordinate)).Nodup := by
  simp [repeatedCoordinates, repeatedCoordinates_go_eq_nil_iff]

/-- The targets of a config ascend strictly. -/
theorem Config.pairwise_targets (config : Config) :
    config.targets.Pairwise (compare · · = .lt) := pairwise_ascending _

theorem Config.mem_targets_iff {config : Config} {d : Coordinate} :
    d ∈ config.targets ↔ ∃ r ∈ config.references, r.coordinate = d := by
  simp [targets]

namespace DependencyGraph

theorem get?_ofConfigs (configs : SortedMap Coordinate Config) (c : Coordinate) :
    (ofConfigs configs).vertices.get? c = (configs.get? c).map fun config =>
      ⟨config, config.targets.filter fun target =>
        target ≠ config.coordinate && configs.contains target⟩ :=
  SortedMap.get?_mapValues ..

theorem referenceErrors_eq_nil_iff {configs : SortedMap Coordinate Config} {c : Coordinate}
    {config : Config} :
    referenceErrors configs c config = [] ↔
      ∀ target ∈ config.targets, target ≠ c ∧ configs.contains target := by
  simp only [referenceErrors, List.filterMap_eq_nil_iff]
  apply forall₂_congr
  intro target _
  split
  · simp [*]
  · split <;> simp [*]

/-- The graph of a set of configs that is in order. -/
structure IsGraphOf (g : DependencyGraph) (configs : List Config) : Prop where
  nodup : (configs.map (·.coordinate)).Nodup
  config?_iff : ∀ {c config}, g.config? c = some config ↔ config ∈ configs ∧ config.coordinate = c
  dependencies : ∀ {config}, config ∈ configs → g.dependencies config.coordinate = config.targets
  closed : ∀ c, g.dependencies c ⊆ g.coordinates
  wellFounded : WellFounded fun d c => d ∈ g.dependencies c

theorem build_eq_ok_iff {configs : List Config} {g : DependencyGraph} :
    build configs = .ok g ↔ g = ofConfigs (byCoordinate configs) ∧
      repeatedCoordinates configs = [] ∧
      (∀ p ∈ (byCoordinate configs).entries, referenceErrors (byCoordinate configs) p.1 p.2 = []) ∧
      g.findCycle? = none := by
  simp only [build]
  split
  · rename_i hempty
    constructor
    · rintro ⟨⟩
      simpa [and_assoc] using hempty
    · rintro ⟨rfl, _⟩
      rfl
  · rename_i hempty
    constructor
    · rintro ⟨⟩
    · rintro ⟨rfl, hparts⟩
      apply absurd _ hempty
      simpa [and_assoc] using hparts

theorem duplicateCoordinate_not_mem_referenceErrors {configs : SortedMap Coordinate Config}
    {c d : Coordinate} {config : Config} :
    .duplicateCoordinate d ∉ referenceErrors configs c config := by
  intro hmem
  obtain ⟨target, _, herror⟩ := List.mem_filterMap.1 hmem
  split at herror
  · cases herror
  · split at herror <;> cases herror

/-- Just the repeated coordinates are reported as such. -/
theorem duplicateCoordinate_mem_iff {configs : List Config} {errors : List GraphError}
    (h : build configs = .error errors) {c : Coordinate} :
    .duplicateCoordinate c ∈ errors ↔ c ∈ repeatedCoordinates configs := by
  simp only [build] at h
  split at h
  · cases h
  · cases h
    rw [List.append_assoc, List.mem_append, or_iff_left]
    · simp
    · simp [duplicateCoordinate_not_mem_referenceErrors]

theorem get?_byCoordinate {configs : List Config} (hnodup : (configs.map (·.coordinate)).Nodup)
    {c : Coordinate} {config : Config} :
    (byCoordinate configs).get? c = some config ↔ config ∈ configs ∧ config.coordinate = c := by
  constructor
  · intro h
    obtain ⟨other, hmem, heq⟩ := List.mem_map.1 (SortedMap.mem_of_get?_ofList h)
    cases heq
    exact ⟨hmem, rfl⟩
  · rintro ⟨hmem, rfl⟩
    refine SortedMap.get?_ofList_of_mem ?_ (List.mem_map.2 ⟨config, hmem, rfl⟩)
    simpa [Function.comp_def] using hnodup

theorem isGraphOf_of_build {configs : List Config} {g : DependencyGraph}
    (h : build configs = .ok g) : g.IsGraphOf configs := by
  obtain ⟨hg, hrepeated, herrors, hcycle⟩ := build_eq_ok_iff.1 h
  have hnodup := repeatedCoordinates_eq_nil_iff.1 hrepeated
  have hget : ∀ {c config}, (byCoordinate configs).get? c = some config ↔
      config ∈ configs ∧ config.coordinate = c := get?_byCoordinate hnodup
  -- No reference is left out, since every target is defined and none is the config itself.
  have htargets : ∀ {c config}, (byCoordinate configs).get? c = some config →
      ∀ d ∈ config.targets, d ≠ c ∧ (byCoordinate configs).contains d := fun hc =>
    referenceErrors_eq_nil_iff.1 (herrors _ (SortedMap.mem_entries_iff.2 hc))
  have hvertex : ∀ {config}, config ∈ configs →
      g.vertices.get? config.coordinate = some ⟨config, config.targets⟩ := by
    intro config hmem
    have hc := hget.2 ⟨hmem, rfl⟩
    rw [hg, get?_ofConfigs, hc, Option.map_some, List.filter_eq_self.2]
    intro d hd
    simpa using htargets hc d hd
  have hconfig : ∀ {c config}, g.config? c = some config ↔
      config ∈ configs ∧ config.coordinate = c := by
    intro c config
    rw [← hget, hg]
    simp [config?, get?_ofConfigs]
  have hclosed : ∀ c, g.dependencies c ⊆ g.coordinates := by
    intro c d hd
    obtain ⟨⟨config, _⟩, hv, hd⟩ := mem_dependencies_iff.1 hd
    have hc : g.config? c = some config := config?_eq_some_iff.2 ⟨_, hv, rfl⟩
    obtain ⟨hmem, rfl⟩ := hconfig.1 hc
    cases (hvertex hmem).symm.trans hv
    obtain ⟨_, hdefined⟩ := htargets (hget.2 ⟨hmem, rfl⟩) d hd
    obtain ⟨other, hother⟩ := Option.isSome_iff_exists.1 hdefined
    obtain ⟨hin, rfl⟩ := hget.1 hother
    exact mem_coordinates_iff.2 ⟨_, hvertex hin⟩
  refine ⟨hnodup, hconfig, ?_, hclosed, wellFounded_dependencies hcycle hclosed⟩
  intro config hmem
  rw [dependencies_of_get? (hvertex hmem)]

namespace IsGraphOf

variable {g : DependencyGraph} {configs : List Config}

theorem mem_coordinates_iff (H : g.IsGraphOf configs) {c : Coordinate} :
    c ∈ g.coordinates ↔ ∃ config ∈ configs, config.coordinate = c := by
  simp only [DependencyGraph.mem_coordinates_iff, ← H.config?_iff, config?_eq_some_iff]
  constructor
  · rintro ⟨v, hv⟩
    exact ⟨v.config, v, hv, rfl⟩
  · rintro ⟨_, v, hv, _⟩
    exact ⟨v, hv⟩

theorem coordinates_perm (H : g.IsGraphOf configs) :
    g.coordinates.Perm (configs.map (·.coordinate)) := by
  apply (List.perm_ext_iff_of_nodup g.nodup_coordinates H.nodup).2
  intro c
  rw [H.mem_coordinates_iff, List.mem_map]

theorem pairwise_dependencies (H : g.IsGraphOf configs) (c : Coordinate) :
    (g.dependencies c).Pairwise (compare · · = .lt) := by
  by_cases hc : c ∈ g.coordinates
  · obtain ⟨config, hmem, rfl⟩ := H.mem_coordinates_iff.1 hc
    rw [H.dependencies hmem]
    exact config.pairwise_targets
  · have hempty : g.dependencies c = [] :=
      List.eq_nil_iff_forall_not_mem.2 fun d hd => hc (mem_coordinates_of_dependency hd)
    simp [hempty]

theorem nodup_dependencies (H : g.IsGraphOf configs) (c : Coordinate) :
    (g.dependencies c).Nodup :=
  nodup_of_pairwise_lt (H.pairwise_dependencies c)

/-- A config is found by its coordinate. -/
theorem config? (H : g.IsGraphOf configs) {config : Config} (h : config ∈ configs) :
    g.config? config.coordinate = some config := H.config?_iff.2 ⟨h, rfl⟩

theorem mem_filterMap_config? (H : g.IsGraphOf configs) {cs : List Coordinate} {config : Config} :
    config ∈ cs.filterMap g.config? ↔ config ∈ configs ∧ config.coordinate ∈ cs := by
  simp only [List.mem_filterMap, H.config?_iff]
  constructor
  · rintro ⟨_, hc, hmem, rfl⟩
    exact ⟨hmem, hc⟩
  · rintro ⟨hmem, hc⟩
    exact ⟨_, hc, hmem, rfl⟩

theorem map_coordinate_filterMap (H : g.IsGraphOf configs) {cs : List Coordinate}
    (hsub : cs ⊆ g.coordinates) : (cs.filterMap g.config?).map (·.coordinate) = cs := by
  induction cs with
  | nil => rfl
  | cons c rest ih =>
    obtain ⟨hc, hrest⟩ := List.cons_subset.1 hsub
    obtain ⟨config, hmem, rfl⟩ := H.mem_coordinates_iff.1 hc
    rw [List.filterMap_cons_some (H.config? hmem), List.map_cons, ih hrest]

/-- No config depends on itself, through whatever others. -/
theorem irrefl (H : g.IsGraphOf configs) (c : Coordinate) :
    ¬ Relation.TransGen g.DependsOn c c := by
  intro hc
  have hc' := Relation.transGen_swap.2 hc
  exact H.wellFounded.transGen.asymmetric c c hc' hc'

end IsGraphOf

end DependencyGraph

end Rollout
