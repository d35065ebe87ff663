import Rollout.Proofs.Manifest.Outlines
import Rollout.Proofs.Project

/-! The configs that a document comes to. In every declared environment there is one config for
every config node, and of the settings of that node the last ones for the environment count. The
order of the configs is the same in all environments. -/

namespace Rollout.Manifest

/-- All config nodes of a document. -/
def sites (document : Kdl.Document) : List Site :=
  (nodesOf "project" document).flatMap fun node => sitesOf (textAt 0 node) node.children

/-- All config nodes of a document, within each project by ascending types. -/
def groupedSites (document : Kdl.Document) : List Site :=
  (nodesOf "project" document).flatMap fun node =>
    grouped (·.coordinate.configType) (sitesOf (textAt 0 node) node.children)

def environmentNames (document : Kdl.Document) : List String :=
  (nodesOf "environment" document).map (textAt 0)

/-- A config is what a config node comes to in an environment. -/
structure Materializes (environment : String) (s : Site) (config : Config) : Prop where
  coordinate : config.coordinate = s.coordinate
  configType : configType? s.node = some config.configType
  templateName : config.template.name = s.coordinate.configId ++ ".json"
  template : last? (last? template?) (s.blocksIn environment) = some config.template.content
  skip : config.skip = (last? (last? skip?) (s.blocksIn environment)).getD false
  originObjectId : config.originObjectId = last? (last? originObjectId?) (s.blocksIn environment)
  parameters : ∀ name, Option.Rel (Gives 1)
    (last? (last? (parameter? name)) (s.blocksIn environment)) (config.parameters.get? name)
  environment : config.environment = environment

theorem Gives.unique {i : Nat} {node : Kdl.Node} {p q : Parameter} (hp : Gives i node p)
    (hq : Gives i node q) : p = q :=
  Except.ok.inj (((parameterOfNode_eq_ok "" i node).2 hp).symm.trans
    ((parameterOfNode_eq_ok "" i node).2 hq))

/-- The head of a node and its blocks for the environment fix the config. What overrides for other
environments hold makes no difference. -/
theorem Materializes.unique {environment : String} {s s' : Site} {config config' : Config}
    (h : Materializes environment s config) (h' : Materializes environment s' config')
    (hcoordinate : s.coordinate = s'.coordinate) (htype : configType? s.node = configType? s'.node)
    (hblocks : s.blocksIn environment = s'.blocksIn environment) : config = config' := by
  have hparameters : config.parameters = config'.parameters := by
    refine SortedMap.ext_get? fun name => ?_
    exact eq_of_rel (R := Gives 1) (fun _ _ _ => Gives.unique) (hblocks ▸ h.parameters name)
      (h'.parameters name)
  have htype : some config.configType = some config'.configType :=
    h.configType.symm.trans (htype.trans h'.configType)
  have hcontent : some config.template.content = some config'.template.content := by
    rw [← h.template, ← h'.template, hblocks]
  have hname : config.template.name = config'.template.name := by
    rw [h.templateName, h'.templateName, hcoordinate]
  have hcoordinate : config.coordinate = config'.coordinate := by
    rw [h.coordinate, h'.coordinate, hcoordinate]
  have henvironment : config.environment = config'.environment := by
    rw [h.environment, h'.environment]
  have hskip : config.skip = config'.skip := by rw [h.skip, h'.skip, hblocks]
  have horigin : config.originObjectId = config'.originObjectId := by
    rw [h.originObjectId, h'.originObjectId, hblocks]
  obtain ⟨_, _, _, _, ⟨_, _⟩, _, _⟩ := config
  obtain ⟨_, _, _, _, ⟨_, _⟩, _, _⟩ := config'
  cases htype
  cases hcontent
  cases hname
  cases hcoordinate
  cases henvironment
  cases hskip
  cases horigin
  cases hparameters
  rfl

theorem Site.Declares.materializes {s : Site} {d : Declaration} (h : s.Declares d)
    {environment : String} {config : Config} (hconfig : d.configIn? environment = some config) :
    Materializes environment s config := by
  obtain ⟨content, hcontent, rfl⟩ := Option.map_eq_some_iff.1 hconfig
  have hreflects := h.reflects environment
  exact {
    coordinate := h.coordinate
    configType := h.configType
    environment := rfl
    templateName := by rw [h.coordinate]
    template := hreflects.template ▸ hcontent
    skip := by rw [← hreflects.skip]
    originObjectId := hreflects.originObjectId
    parameters := hreflects.parameters }

theorem forall₂_materializes {ss : List Site} {ds : List Declaration}
    (h : List.Forall₂ Site.Declares ss ds) {environment : String}
    (hsome : ∀ d ∈ ds, (d.configIn? environment).isSome) :
    List.Forall₂ (Materializes environment) ss (ds.filterMap (·.configIn? environment)) := by
  induction h with
  | nil => exact .nil
  | @cons s d ss ds hone _ ih =>
    obtain ⟨hd, hds⟩ := List.forall_mem_cons.1 hsome
    obtain ⟨config, hconfig⟩ := Option.isSome_iff_exists.1 hd
    simp only [List.filterMap_cons, hconfig]
    exact .cons (hone.materializes hconfig) (ih hds)

/-! ### Projects -/

section

variable {environments : List String} {environment : String}

theorem environment_of_configIn? {d : Declaration} {config : Config}
    (h : d.configIn? environment = some config) : config.environment = environment := by
  obtain ⟨_, _, rfl⟩ := Option.map_eq_some_iff.1 h
  rfl

/-- A declaration has one config at most in an environment that is declared once. -/
theorem filter_configs (hdistinct : environments.Nodup) (hdeclared : environment ∈ environments)
    (d : Declaration) : (d.configs environments).filter (·.environment = environment) =
      (d.configIn? environment).toList := by
  have hnone : ∀ names : List String, environment ∉ names →
      (names.filterMap d.configIn?).filter (·.environment = environment) = [] := by
    intro names hnames
    refine List.filter_eq_nil_iff.2 fun config hconfig => ?_
    obtain ⟨name, hname, hin⟩ := List.mem_filterMap.1 hconfig
    rw [environment_of_configIn? hin, decide_eq_true_eq]
    rintro rfl
    exact hnames hname
  obtain ⟨before, after, rfl⟩ := List.append_of_mem hdeclared
  obtain ⟨hbefore, hafter⟩ := not_or.1 (mt List.mem_append.2
    (List.nodup_cons.1 (List.perm_middle.nodup_iff.1 hdistinct)).1)
  rw [Declaration.configs, List.filterMap_append, List.filter_append, hnone before hbefore,
    List.nil_append]
  cases hconfig : d.configIn? environment with
  | none => rw [List.filterMap_cons_none hconfig, hnone after hafter, Option.toList_none]
  | some config =>
    rw [List.filterMap_cons_some hconfig, List.filter_cons_of_pos, hnone after hafter,
      Option.toList_some]
    simpa using environment_of_configIn? hconfig

/-- Where nothing fails a project has the configs of its declarations, grouped by their types. -/
theorem configsFor_projectOf (hdistinct : environments.Nodup)
    (hdeclared : environment ∈ environments) (name : String) (ds : List Declaration) :
    (projectOf environments name ds).configsFor environment =
      grouped (·.coordinate.configType) (ds.filterMap (·.configIn? environment)) := by
  rw [projectOf, Project.configsFor_foldl_push, List.filter_flatMap,
    List.flatMap_congr fun d _ => filter_configs hdistinct hdeclared d,
    List.filterMap_eq_flatMap_toList]

/-- Grouping looks at the types only, which a config node and its config share. -/
theorem forall₂_configsFor {nodes : List Kdl.Node} {projects : List (String × List Declaration)}
    (h : List.Forall₂ Opens nodes projects) (hdistinct : environments.Nodup)
    (hdeclared : environment ∈ environments)
    (hsome : ∀ project ∈ projects, ∀ d ∈ project.2, (d.configIn? environment).isSome) :
    List.Forall₂ (Materializes environment)
      (nodes.flatMap fun node =>
        grouped (·.coordinate.configType) (sitesOf (textAt 0 node) node.children))
      (Rollout.configsFor (projects.map fun (name, ds) => projectOf environments name ds)
        environment) := by
  induction h with
  | nil => exact .nil
  | @cons node project nodes projects hone _ ih =>
    obtain ⟨hfirst, hrest⟩ := List.forall_mem_cons.1 hsome
    have htype : ∀ (s : Site) (config : Config), Materializes environment s config →
        s.coordinate.configType = config.coordinate.configType := fun _ _ h => by rw [h.coordinate]
    have hgrouped := forall₂_grouped htype (forall₂_materializes hone.declarations hfirst)
    rw [← configsFor_projectOf hdistinct hdeclared project.1] at hgrouped
    exact List.rel_append hgrouped (ih hrest)

end

/-! ### Documents -/

theorem perm_groupedSites (document : Kdl.Document) :
    (groupedSites document).Perm (sites document) :=
  List.Perm.flatMap_left _ fun _ _ => perm_grouped _ _

theorem map_coordinate_eq {environment : String} {ss : List Site} {configs : List Config}
    (h : List.Forall₂ (Materializes environment) ss configs) :
    configs.map (·.coordinate) = ss.map (·.coordinate) := by
  induction h with
  | nil => rfl
  | cons hone _ ih => rw [List.map_cons, List.map_cons, hone.coordinate, ih]

theorem exists_of_forall₂ {α β : Type} {R : α → β → Prop} {l : List α} {l' : List β}
    (h : List.Forall₂ R l l') {a : α} (ha : a ∈ l) : ∃ b ∈ l', R a b := by
  induction h with
  | nil => cases ha
  | cons hone _ ih =>
    rcases List.mem_cons.1 ha with rfl | ha
    · exact ⟨_, List.mem_cons_self, hone⟩
    · obtain ⟨b, hb, hab⟩ := ih ha
      exact ⟨b, List.mem_cons_of_mem _ hb, hab⟩

/-- In the environments of an outline without problems its configs are those of the document. -/
theorem Outlines.materializes {document : Kdl.Document} (h : Outlines document)
    (hread : (outlineOf document).problems = [])
    (hcomplete : (outlineOf document).value.IsComplete)
    {environment : String} (henvironment : environment ∈ environmentNames document) :
    List.Forall₂ (Materializes environment) (groupedSites document)
      ((outlineOf document).value.manifest.configsFor environment) := by
  have hnames := (h.problems.1 hread).1
  rw [environmentNames, ← h.environments hread] at henvironment
  refine forall₂_configsFor (h.projects hread) (h.environments hread ▸ hnames.distinct)
    henvironment fun project hproject d hd => ?_
  exact Declaration.isSome_configIn? (hcomplete project hproject d hd) henvironment

theorem Outlines.nodup_configsFor_iff {document : Kdl.Document} (h : Outlines document)
    (hread : (outlineOf document).problems = [])
    (hcomplete : (outlineOf document).value.IsComplete)
    {environment : String} (henvironment : environment ∈ environmentNames document) :
    (((outlineOf document).value.manifest.configsFor environment).map (·.coordinate)).Nodup ↔
      ((sites document).map (·.coordinate)).Nodup := by
  rw [map_coordinate_eq (h.materializes hread hcomplete henvironment)]
  exact ((perm_groupedSites document).map _).nodup_iff

/-- Every config node comes to one config in every declared environment, with the settings that the
last overrides for the environment leave it; the configs are the same ones in the same order
everywhere. -/
theorem ofDocument_materializes {document : Kdl.Document} {m : Manifest}
    (h : ofDocument document = .ok m) :
    m.environments = environmentNames document ∧
      (groupedSites document).Perm (sites document) ∧
      ((sites document).map (·.coordinate)).Nodup ∧
      ∀ environment ∈ m.environments,
        (m.configsFor environment).map (·.coordinate) =
          (groupedSites document).map (·.coordinate) ∧
        List.Forall₂ (Materializes environment) (groupedSites document)
          (m.configsFor environment) ∧
        ∀ s ∈ sites document, ∃! config,
          config ∈ m.configsFor environment ∧ Materializes environment s config := by
  obtain ⟨hread, hproblems, rfl⟩ := ofDocument_eq_ok_iff.1 h
  obtain ⟨hsome, hcomplete, hrepeated⟩ := Outline.problems_eq_nil_iff.1 hproblems
  have houtlines := outlineOf_outlines document
  have hnames : (outlineOf document).value.manifest.environments = environmentNames document :=
    houtlines.environments hread
  have hperm := perm_groupedSites document
  have hdistinct : ((sites document).map (·.coordinate)).Nodup := by
    obtain ⟨environment, henvironment⟩ := List.exists_mem_of_ne_nil _ hsome
    exact (houtlines.nodup_configsFor_iff hread hcomplete (hnames ▸ henvironment)).1
      (hrepeated environment henvironment)
  refine ⟨hnames, hperm, hdistinct, fun environment henvironment => ?_⟩
  have hconfigs := houtlines.materializes hread hcomplete (hnames ▸ henvironment)
  refine ⟨map_coordinate_eq hconfigs, hconfigs, fun s hs => ?_⟩
  obtain ⟨config, hconfig, hmaterializes⟩ := exists_of_forall₂ hconfigs (hperm.mem_iff.2 hs)
  refine ⟨config, ⟨hconfig, hmaterializes⟩, ?_⟩
  rintro other ⟨_, hother⟩
  exact hother.unique hmaterializes rfl rfl rfl

/-! ### A config with overrides, declared before one whose type comes first -/

namespace Owner

def node (name : String) (arguments : List String) (block : Option (List Kdl.Node)) : Kdl.Node :=
  ⟨name, arguments.map fun text => ⟨none, .string text⟩, block⟩

def owner : Kdl.Node := node "config" ["auto-tag", "owner"] (some [
  node "template" ["base"] none,
  node "param" ["name", "Owner"] none,
  node "override" ["prod"] (some [
    node "template" ["first"] none,
    node "skip" [] none,
    node "param" ["scope", "all"] none]),
  node "override" ["dev"] (some [node "param" ["name", "Trial"] none]),
  node "override" ["prod"] (some [
    node "template" ["last"] none,
    ⟨"param", [⟨none, .string "name"⟩, ⟨some "env", .string "OWNER"⟩], none⟩])])

def document : Kdl.Document := [
  node "environment" ["dev"] none,
  node "environment" ["prod"] none,
  node "project" ["web"] (some [
    owner,
    node "config" ["alerting-profile", "ops"] (some [node "template" ["ops"] none])])]

theorem owner_in_prod : ∃ m, ofDocument document = .ok m ∧
    (∀ environment ∈ ["dev", "prod"], (m.configsFor environment).map (·.coordinate) =
      [⟨"web", "alerting-profile", "ops"⟩, ⟨"web", "auto-tag", "owner"⟩]) ∧
    ∃ config ∈ m.configsFor "prod", config.coordinate.configId = "owner" ∧
      config.template.content = "last" ∧ config.skip = true ∧ config.originObjectId = none := by
  have haccepted : (ofDocument document).toOption.isSome = true := by decide +kernel
  cases hm : ofDocument document with
  | error e =>
    rw [hm] at haccepted
    cases haccepted
  | ok m =>
    obtain ⟨hnames, _, _, hall⟩ := ofDocument_materializes hm
    rw [hnames] at hall
    refine ⟨m, rfl, fun environment henvironment => ?_, ?_⟩
    · rw [(hall environment henvironment).1]
      decide +kernel
    · obtain ⟨config, ⟨hconfig, h⟩, _⟩ :=
        (hall "prod" (by decide +kernel)).2.2 ⟨"web", owner⟩ List.mem_cons_self
      have htemplate : some config.template.content = some "last" :=
        h.template.symm.trans (by decide +kernel)
      exact ⟨config, hconfig, h.coordinate ▸ by decide +kernel, Option.some.inj htemplate,
        h.skip.trans (by decide +kernel), h.originObjectId.trans (by decide +kernel)⟩

end Owner

end Rollout.Manifest
