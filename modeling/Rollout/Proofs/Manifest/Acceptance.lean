import Rollout.Proofs.Manifest.Materialization

/-! Which documents are manifests. A document is refused for a node that is out of order, and for
what shows only when everything is declared: overrides for unknown environments, configs without a
template somewhere and repeated coordinates. -/

namespace Rollout.Manifest

/-- A document that makes a manifest if no coordinate is declared more than once. -/
structure IsSound (document : Kdl.Document) : Prop where
  declared : nodesOf "environment" document ≠ []
  environments : HaveNames (nodesOf "environment" document)
  projects : AreProjects (nodesOf "project" document)
  /-- Overrides are for declared environments. -/
  overrides : ∀ s ∈ sites document, ∀ node ∈ s.overrides,
    ∃ environment ∈ environmentNames document, node.textArgument? 0 = some environment
  /-- In every environment a config has a template. -/
  templates : ∀ s ∈ sites document, ∀ environment ∈ environmentNames document,
    ∃ block ∈ s.blocksIn environment, ∃ node ∈ block, node.name = "template"

/-- A document that makes a manifest. -/
structure IsWellFormed (document : Kdl.Document) : Prop extends IsSound document where
  distinct : ((sites document).map (·.coordinate)).Nodup

section

variable {document : Kdl.Document}

theorem forall_mem_sites_iff {p : Site → Prop} : (∀ s ∈ sites document, p s) ↔
    ∀ node ∈ nodesOf "project" document, ∀ s ∈ sitesOf (textAt 0 node) node.children, p s := by
  simp only [sites, List.mem_flatMap, forall_exists_index, and_imp]
  exact ⟨fun h node hnode s hs => h s node hnode hs, fun h s node hnode hs => h node hnode s hs⟩

/-- Nothing is wrong with the declarations if nothing is wrong with their nodes. -/
theorem Outlines.isComplete_iff (h : Outlines document)
    (hread : (outlineOf document).problems = []) :
    (outlineOf document).value.IsComplete ↔ ∀ s ∈ sites document,
      (∀ node ∈ s.overrides, ∃ environment ∈ environmentNames document,
        node.textArgument? 0 = some environment) ∧
      ∀ environment ∈ environmentNames document, ∃ block ∈ s.blocksIn environment,
        ∃ node ∈ block, node.name = "template" := by
  rw [Outline.IsComplete, h.environments hread, ← environmentNames, forall_mem_sites_iff]
  refine (forall_mem_iff_of_forall₂ (h.projects hread) fun node project hopens => ?_).symm
  refine forall_mem_iff_of_forall₂ hopens.declarations fun s d hdeclares => ?_
  exact (hdeclares.problems_eq_nil_iff _).symm

theorem isWellFormed_iff :
    IsWellFormed document ↔ IsSound document ∧ ((sites document).map (·.coordinate)).Nodup :=
  ⟨fun h => ⟨h.toIsSound, h.distinct⟩, fun ⟨h, hdistinct⟩ => ⟨h, hdistinct⟩⟩

/-- A document is sound if it is read without problems and its declarations have none. -/
theorem isSound_iff : IsSound document ↔ (outlineOf document).problems = [] ∧
    (outlineOf document).value.environments ≠ [] ∧ (outlineOf document).value.IsComplete := by
  have houtlines := outlineOf_outlines document
  constructor
  · intro h
    have hread := houtlines.problems.2 ⟨h.environments, h.projects⟩
    refine ⟨hread, ?_, (houtlines.isComplete_iff hread).2 fun s hs =>
      ⟨h.overrides s hs, h.templates s hs⟩⟩
    rw [houtlines.environments hread, ne_eq, List.map_eq_nil_iff]
    exact h.declared
  · rintro ⟨hread, hsome, hcomplete⟩
    obtain ⟨henvironments, hprojects⟩ := houtlines.problems.1 hread
    have hsites := (houtlines.isComplete_iff hread).1 hcomplete
    rw [houtlines.environments hread, ne_eq, List.map_eq_nil_iff] at hsome
    exact ⟨hsome, henvironments, hprojects, fun s hs => (hsites s hs).1, fun s hs => (hsites s hs).2⟩

/-- Exactly the well-formed documents make a manifest. -/
theorem ofDocument_isOk_iff :
    (∃ m, ofDocument document = .ok m) ↔ IsWellFormed document := by
  have houtlines := outlineOf_outlines document
  simp only [ofDocument_eq_ok_iff, Outline.problems_eq_nil_iff, isWellFormed_iff, isSound_iff]
  constructor
  · rintro ⟨_, hread, ⟨hsome, hcomplete, hrepeated⟩, _⟩
    obtain ⟨environment, henvironment⟩ := List.exists_mem_of_ne_nil _ hsome
    refine ⟨⟨hread, hsome, hcomplete⟩, ?_⟩
    have hdistinct := hrepeated environment henvironment
    rw [houtlines.environments hread] at henvironment
    exact (houtlines.nodup_configsFor_iff hread hcomplete henvironment).1 hdistinct
  · rintro ⟨⟨hread, hsome, hcomplete⟩, hdistinct⟩
    refine ⟨_, hread, ⟨hsome, hcomplete, fun environment henvironment => ?_⟩, rfl⟩
    rw [houtlines.environments hread] at henvironment
    exact (houtlines.nodup_configsFor_iff hread hcomplete henvironment).2 hdistinct

end

end Rollout.Manifest
