import Rollout.Proofs.Deploy.Convergence
import Rollout.Proofs.Manifest.Acceptance

/-! The coordinates of a manifest. Graphs, runs and external ids rely on them to tell the configs of
an environment apart, and in a text that is let through they do. For references this is not enough:
they cannot point at configs without an id or in projects without a name, which are let through as
well. -/

namespace Rollout.Manifest

section

variable {document : Kdl.Document} {m : Manifest} {environment text : String} {config : Config}

theorem ofText_eq_ok_iff : ofText text = .ok m ↔
    ∃ document, Kdl.Document.parse? text = some document ∧ ofDocument document = .ok m := by
  unfold ofText
  cases Kdl.Document.parse? text <;> simp

/-! ### Where configs come from -/

/-- There are configs for declared environments only. -/
theorem Outline.mem_environments {o : Outline} (h : config ∈ o.manifest.configsFor environment) :
    environment ∈ o.environments := by
  obtain ⟨_, hproject, hconfig⟩ := List.mem_flatMap.1 h
  obtain ⟨⟨name, ds⟩, _, rfl⟩ := List.mem_map.1 hproject
  dsimp only at hconfig
  rw [projectOf, Project.configsFor_foldl_push, (perm_grouped _ _).mem_iff, List.mem_filter,
    List.mem_flatMap] at hconfig
  obtain ⟨⟨d, _, hd⟩, hfits⟩ := hconfig
  obtain ⟨name, hname, hin⟩ := List.mem_filterMap.1 hd
  obtain rfl : name = environment := by simpa [environment_of_configIn? hin] using hfits
  exact hname

/-- The config node of a config, and the project node in which it stands. -/
structure IsDeclared (document : Kdl.Document) (environment : String) (config : Config)
    (project node : Kdl.Node) : Prop where
  project_mem : project ∈ nodesOf "project" document
  node_mem : node ∈ nodesOf "config" project.children
  name : project.textArgument? 0 = some config.coordinate.project
  separator : Coordinate.separator ∉ config.coordinate.project.toList
  readable : Site.IsReadable ⟨config.coordinate.project, node⟩
  materializes : Materializes environment ⟨config.coordinate.project, node⟩ config

theorem exists_isDeclared (h : ofDocument document = .ok m)
    (hconfig : config ∈ m.configsFor environment) :
    ∃ project node, IsDeclared document environment config project node := by
  obtain ⟨hread, hproblems, rfl⟩ := ofDocument_eq_ok_iff.1 h
  obtain ⟨_, hcomplete, _⟩ := Outline.problems_eq_nil_iff.1 hproblems
  have houtlines := outlineOf_outlines document
  have henvironment := Outline.mem_environments hconfig
  rw [houtlines.environments hread] at henvironment
  obtain ⟨_, hprojects⟩ := houtlines.problems.1 hread
  have hconfigs := houtlines.materializes hread hcomplete henvironment
  obtain ⟨s, hs, hmaterializes⟩ := exists_of_forall₂ hconfigs.flip hconfig
  rw [(perm_groupedSites document).mem_iff, sites, List.mem_flatMap] at hs
  obtain ⟨project, hproject, hs⟩ := hs
  have hreadable := hprojects.configs project hproject s hs
  obtain ⟨node, hnode, rfl⟩ := List.mem_map.1 hs
  obtain ⟨name, hname⟩ := hprojects.named project hproject
  have hseparator := hprojects.separators project hproject
  have hcoordinate : config.coordinate.project = textAt 0 project :=
    congrArg Coordinate.project hmaterializes.coordinate
  rw [← hcoordinate] at hreadable hmaterializes hseparator
  rw [textAt_eq hname] at hcoordinate
  exact ⟨project, node, hproject, hnode, hcoordinate ▸ hname, hseparator, hreadable, hmaterializes⟩

namespace IsDeclared

variable {project node : Kdl.Node} (h : IsDeclared document environment config project node)

include h

theorem isPlain : config.coordinate.IsPlain := by
  obtain ⟨id, hid, hseparator⟩ := h.readable.id
  have hcoordinate : config.coordinate.configId = textAt 1 node :=
    congrArg Coordinate.configId h.materializes.coordinate
  refine ⟨h.separator, ?_⟩
  rwa [hcoordinate, textAt_eq hid]

theorem isTyped : config.IsTyped := by
  have hcoordinate : config.coordinate.configType = textAt 0 node :=
    congrArg Coordinate.configType h.materializes.coordinate
  obtain ⟨type, htype, heq⟩ := Option.map_eq_some_iff.1 h.materializes.configType
  exact ⟨type, _, hcoordinate ▸ htype, heq.symm⟩

end IsDeclared

/-! ### What a run relies on -/

/-- Configs of an environment that can be told apart, as they are declared. -/
structure AreReliable (document : Kdl.Document) (environment : String) (configs : List Config) :
    Prop where
  coordinates : (configs.map (·.coordinate)).Nodup
  displays : (configs.map (·.coordinate.display)).Nodup
  externalIds : HaveOwnDigests configs → (configs.map (·.coordinate.externalId)).Nodup
  plain : ∀ config ∈ configs, config.coordinate.IsPlain
  declared : ∀ config ∈ configs, ∃ project ∈ nodesOf "project" document,
    ∃ node ∈ nodesOf "config" project.children,
      project.textArgument? 0 = some config.coordinate.project ∧
        Materializes environment ⟨config.coordinate.project, node⟩ config
  typed : ∀ config ∈ configs, config.IsTyped
  named : ∀ config ∈ configs, config.configType.name = config.coordinate.configType
  environment : ∀ config ∈ configs, config.environment = environment
  unrepeated : ∀ errors, DependencyGraph.build configs = .error errors →
    ∀ c, .duplicateCoordinate c ∉ errors

theorem areReliable_of_isDeclared {configs : List Config}
    (hnodup : (configs.map (·.coordinate)).Nodup)
    (hdeclared : ∀ config ∈ configs, ∃ project node,
      IsDeclared document environment config project node) :
    AreReliable document environment configs := by
  have hplain : ∀ config ∈ configs, config.coordinate.IsPlain := fun config hconfig =>
    let ⟨_, _, h⟩ := hdeclared config hconfig
    h.isPlain
  have htyped : ∀ config ∈ configs, config.IsTyped := fun config hconfig =>
    let ⟨_, _, h⟩ := hdeclared config hconfig
    h.isTyped
  have hdistinct : configs.Nodup := hnodup.of_map
  have hdisplay : ∀ c ∈ configs, ∀ d ∈ configs,
      c.coordinate.display = d.coordinate.display → c = d := fun c hc d hd heq =>
    List.inj_on_of_nodup_map hnodup hc hd ((hplain c hc).eq_of_display_eq (hplain d hd) heq)
  refine ⟨hnodup, hdistinct.map_on hdisplay, ?_, hplain, ?_, htyped, ?_, ?_, ?_⟩
  · intro hdigests
    refine hdistinct.map_on fun c hc d hd heq => hdisplay c hc d hd ?_
    exact hdigests c hc d hd (Coordinate.digest_eq_of_externalId_eq heq)
  · intro config hconfig
    obtain ⟨project, node, h⟩ := hdeclared config hconfig
    exact ⟨project, h.project_mem, node, h.node_mem, h.name, h.materializes⟩
  · intro config hconfig
    exact (htyped config hconfig).name_configType
  · intro config hconfig
    obtain ⟨_, _, h⟩ := hdeclared config hconfig
    exact h.materializes.environment
  · intro errors hbuild c hc
    rw [DependencyGraph.duplicateCoordinate_mem_iff hbuild,
      repeatedCoordinates_eq_nil_iff.2 hnodup] at hc
    cases hc

/-- In every environment of a text that is let through, the configs are as a run needs them. -/
theorem ofText_reliable (h : ofText text = .ok m) :
    ∃ document, Kdl.Document.parse? text = some document ∧
      m.environments = environmentNames document ∧
      ∀ environment ∈ m.environments,
        AreReliable document environment (m.configsFor environment) := by
  obtain ⟨document, hparse, hdocument⟩ := ofText_eq_ok_iff.1 h
  obtain ⟨hread, hproblems, hm⟩ := ofDocument_eq_ok_iff.1 hdocument
  obtain ⟨_, _, hdistinct⟩ := Outline.problems_eq_nil_iff.1 hproblems
  rw [← hm] at hdistinct
  have hnames : m.environments = (outlineOf document).value.environments := by rw [hm]; rfl
  refine ⟨document, hparse, hnames.trans ((outlineOf_outlines document).environments hread), ?_⟩
  intro environment henvironment
  exact areReliable_of_isDeclared (hdistinct environment (hnames ▸ henvironment))
    fun _ hconfig => exists_isDeclared hdocument hconfig

end

/-! ### A config without an id -/

namespace Nameless

def text : String :=
  "environment dev
project web \x7b
  config \"app:zone\" east \x7b template east \x7d
  config slo \"\" \x7b template low \x7d
\x7d"

def east : Coordinate := ⟨"web", "app:zone", "east"⟩

def withoutId : Coordinate := ⟨"web", "slo", ""⟩

theorem exists_manifest : ∃ m, ofText text = .ok m ∧ m.environments = ["dev"] ∧
    (m.configsFor "dev").map (·.coordinate) = [east, withoutId] := by
  have haccepted : (ofText text).toOption.map (fun m =>
      (m.environments, (m.configsFor "dev").map (·.coordinate))) =
      some (["dev"], [east, withoutId]) := by decide +kernel
  cases hm : ofText text with
  | error e =>
    rw [hm] at haccepted
    cases haccepted
  | ok m =>
    rw [hm] at haccepted
    obtain ⟨henvironments, hcoordinates⟩ := Prod.mk.inj (Option.some.inj haccepted)
    exact ⟨m, rfl, henvironments, hcoordinates⟩

theorem exists_config {m : Manifest} {coordinates : List Coordinate}
    (h : (m.configsFor "dev").map (·.coordinate) = coordinates) {c : Coordinate}
    (hc : c ∈ coordinates) : ∃ config ∈ m.configsFor "dev", config.coordinate = c :=
  List.mem_map.1 (h ▸ hc)

theorem reliable_in_dev : ∃ document m, Kdl.Document.parse? text = some document ∧
    ofText text = .ok m ∧ AreReliable document "dev" (m.configsFor "dev") ∧
    (m.configsFor "dev").map (·.coordinate) = [east, withoutId] ∧
    ((m.configsFor "dev").map (·.coordinate.externalId)).Nodup := by
  obtain ⟨m, hm, henvironments, hcoordinates⟩ := exists_manifest
  obtain ⟨document, hdocument, _, hreliable⟩ := ofText_reliable hm
  have hdev := hreliable "dev" (henvironments ▸ List.mem_cons_self)
  have hdigests : ([east, withoutId].map Coordinate.digest).Nodup := by decide +kernel
  refine ⟨document, m, hdocument, hm, hdev, hcoordinates, hdev.externalIds ?_⟩
  intro c hc d hd heq
  rw [← hcoordinates] at hdigests
  rw [List.inj_on_of_nodup_map hdigests (List.mem_map_of_mem hc) (List.mem_map_of_mem hd) heq]

end Nameless

/-! ### What can be referred to -/

/-- A reference to a config of a text that is let through is read as such if and only if the project
has a name and the config has an id. -/
theorem ofText_referable {text environment : String} {m : Manifest} {config : Config}
    (h : ofText text = .ok m) (hconfig : config ∈ m.configsFor environment) :
    let c := config.coordinate
    (Coordinate.parse? c.display =
      if c.project = "" ∨ c.configId = "" then none else some c) ∧
    ∀ (field : String) (i : Nat) (node : Kdl.Node), node.textProperty? "ref" = some c.display →
      parameterOfNode field i node =
        if c.project = "" ∨ c.configId = "" then
          .error (.invalidReference (field ++ ": " ++ Coordinate.parseFailure c.display))
        else .ok (.reference ⟨c, (node.textProperty? "property").getD Reference.idProperty⟩) := by
  dsimp only
  obtain ⟨document, _, hdocument⟩ := ofText_eq_ok_iff.1 h
  obtain ⟨_, _, hdeclared⟩ := exists_isDeclared hdocument hconfig
  have hparse := hdeclared.isPlain.parse?_display
  simp only [hdeclared.isTyped.configType_ne_empty, false_or] at hparse
  refine ⟨hparse, fun field i node ref => ?_⟩
  rw [parameterOfNode_of_ref ref, referenceParameter, hparse]
  by_cases hempty : config.coordinate.project = "" ∨ config.coordinate.configId = ""
  · rw [if_pos hempty, if_pos hempty]
  · rw [if_neg hempty, if_neg hempty]

namespace Nameless

theorem east_referable : ∃ m, ofText text = .ok m ∧ ∃ config ∈ m.configsFor "dev",
    config.coordinate = east ∧ Coordinate.parse? config.coordinate.display = some east := by
  obtain ⟨m, hm, _, hcoordinates⟩ := exists_manifest
  obtain ⟨config, hconfig, heast⟩ := exists_config hcoordinates (c := east) (by decide +kernel)
  have hparse := (ofText_referable hm hconfig).1
  rw [heast] at hparse
  refine ⟨m, hm, config, hconfig, heast, ?_⟩
  rw [heast, hparse]
  rfl

/-- Not every config that is let through can be referred to. -/
theorem not_all_referable : ¬ ∀ (text : String) (m : Manifest) (environment : String),
    ofText text = .ok m → ∀ config ∈ m.configsFor environment,
      Coordinate.parse? config.coordinate.display = some config.coordinate := by
  intro hall
  obtain ⟨m, hm, _, hcoordinates⟩ := exists_manifest
  obtain ⟨config, hconfig, hempty⟩ :=
    exists_config hcoordinates (c := withoutId) (by decide +kernel)
  have hparse := hall text m "dev" hm config hconfig
  rw [hempty] at hparse
  revert hparse
  decide +kernel

end Nameless

end Rollout.Manifest
