import Rollout.Proofs.Manifest.Declarations
import Rollout.Proofs.Graph.Build

/-! Documents as they are read, node by node. Environments and projects may stand in any order: what
the nodes of one kind come to does not depend on the others (`outlineOf_outlines`). -/

namespace Rollout.Manifest

/-- The config nodes of a project. -/
def sitesOf (project : String) (nodes : List Kdl.Node) : List Site :=
  (nodesOf "config" nodes).map (⟨project, ·⟩)

/-- Nodes with different names. -/
structure HaveNames (nodes : List Kdl.Node) : Prop where
  named : ∀ node ∈ nodes, ∃ name, node.textArgument? 0 = some name
  distinct : (nodes.map (textAt 0)).Nodup

/-- Project nodes whose configs are in order. -/
structure AreProjects (nodes : List Kdl.Node) : Prop extends HaveNames nodes where
  separators : ∀ node ∈ nodes, Coordinate.separator ∉ (textAt 0 node).toList
  configs : ∀ node ∈ nodes, ∀ s ∈ sitesOf (textAt 0 node) node.children, s.IsReadable

/-- What a project node stands for. -/
structure Opens (node : Kdl.Node) (project : String × List Declaration) : Prop where
  name : project.1 = textAt 0 node
  declarations : List.Forall₂ Site.Declares (sitesOf (textAt 0 node) node.children) project.2

section

variable {nodes : List Kdl.Node} {node : Kdl.Node}

theorem haveNames_nil : HaveNames [] := ⟨List.forall_mem_nil _, List.nodup_nil⟩

theorem areProjects_nil : AreProjects [] :=
  ⟨haveNames_nil, List.forall_mem_nil _, List.forall_mem_nil _⟩

theorem map_fst_eq_of_opens {projects : List (String × List Declaration)}
    (h : List.Forall₂ Opens nodes projects) : projects.map (·.1) = nodes.map (textAt 0) := by
  induction h with
  | nil => rfl
  | cons hone _ ih => rw [List.map_cons, List.map_cons, hone.name, ih]

theorem haveNames_snoc_iff : HaveNames (nodes ++ [node]) ↔ HaveNames nodes ∧
    ∃ name, node.textArgument? 0 = some name ∧ name ∉ nodes.map (textAt 0) := by
  have hdistinct : ((nodes ++ [node]).map (textAt 0)).Nodup ↔
      textAt 0 node ∉ nodes.map (textAt 0) ∧ (nodes.map (textAt 0)).Nodup := by
    rw [List.map_append, List.map_singleton, (List.perm_append_singleton _ _).nodup_iff,
      List.nodup_cons]
  constructor
  · rintro ⟨named, distinct⟩
    obtain ⟨hnamed, hlast⟩ := List.forall_mem_append.1 named
    obtain ⟨name, hname⟩ := List.forall_mem_singleton.1 hlast
    obtain ⟨hnew, hdistinct⟩ := hdistinct.1 distinct
    exact ⟨⟨hnamed, hdistinct⟩, name, hname, textAt_eq hname ▸ hnew⟩
  · rintro ⟨⟨named, distinct⟩, name, hname, hnew⟩
    exact ⟨List.forall_mem_append.2 ⟨named, List.forall_mem_singleton.2 ⟨name, hname⟩⟩,
      hdistinct.2 ⟨(textAt_eq hname).symm ▸ hnew, distinct⟩⟩

theorem areProjects_snoc_iff : AreProjects (nodes ++ [node]) ↔ AreProjects nodes ∧
    ∃ name, node.textArgument? 0 = some name ∧ name ∉ nodes.map (textAt 0) ∧
      Coordinate.separator ∉ name.toList ∧ ∀ s ∈ sitesOf name node.children, s.IsReadable := by
  constructor
  · rintro ⟨names, separators, configs⟩
    obtain ⟨hnames, name, hname, hnew⟩ := haveNames_snoc_iff.1 names
    obtain ⟨hseparators, hseparator⟩ := List.forall_mem_append.1 separators
    obtain ⟨hconfigs, hconfig⟩ := List.forall_mem_append.1 configs
    rw [List.forall_mem_singleton, textAt_eq hname] at hseparator hconfig
    exact ⟨⟨hnames, hseparators, hconfigs⟩, name, hname, hnew, hseparator, hconfig⟩
  · rintro ⟨⟨names, separators, configs⟩, name, hname, hnew, hseparator, hconfig⟩
    rw [← textAt_eq hname] at hseparator hconfig
    exact ⟨haveNames_snoc_iff.2 ⟨names, name, hname, hnew⟩,
      List.forall_mem_append.2 ⟨separators, List.forall_mem_singleton.2 hseparator⟩,
      List.forall_mem_append.2 ⟨configs, List.forall_mem_singleton.2 hconfig⟩⟩

end

/-! ### Projects -/

section

variable (project : String) (nodes : List Kdl.Node) {node : Kdl.Node}

theorem declarationsOfNodes_snoc (node : Kdl.Node) :
    declarationsOfNodes project (nodes ++ [node]) =
      addConfig project (declarationsOfNodes project nodes) node :=
  List.foldl_concat ..

theorem sitesOf_snoc (kind : node.name = "config") :
    sitesOf project (nodes ++ [node]) = sitesOf project nodes ++ [⟨project, node⟩] := by
  rw [sitesOf, nodesOf_snoc kind, List.map_append]
  rfl

/-- The config nodes of a project are read without problems if each of them is. -/
theorem declarationsOfNodes_spec :
    ((declarationsOfNodes project nodes).problems = [] ↔
      ∀ s ∈ sitesOf project nodes, s.IsReadable) ∧
    ((declarationsOfNodes project nodes).problems = [] → List.Forall₂ Site.Declares
      (sitesOf project nodes) (declarationsOfNodes project nodes).value) := by
  induction nodes using List.reverseRecOn with
  | nil => exact ⟨iff_of_true rfl (List.forall_mem_nil _), fun _ => .nil⟩
  | append_singleton nodes node ih =>
    obtain ⟨hproblems, hdeclares⟩ := ih
    have hadd := declarationsOfNodes_snoc project nodes node
    by_cases kind : node.name = "config"
    · have hreadable := Site.isReadable_iff (s := ⟨project, node⟩)
      rw [addConfig, if_pos kind] at hadd
      rw [sitesOf_snoc project nodes kind]
      simp only [List.forall_mem_append, List.forall_mem_singleton]
      cases hread : declarationOfNode project node with
      | error problem =>
        rw [hread] at hadd
        rw [hadd, hreadable, hread]
        exact ⟨iff_of_false (by simp) (by simp), fun h => absurd h (by simp)⟩
      | ok d =>
        rw [hread] at hadd
        rw [hadd, List.append_eq_nil_iff, ← hproblems, hreadable, hread]
        refine ⟨and_congr_right fun _ => ⟨fun h => ⟨d, rfl, h⟩, ?_⟩, fun h => ?_⟩
        · rintro ⟨_, ⟨⟩, h⟩
          exact h
        · exact List.rel_append (hdeclares h.1) (.cons (Site.declares hread h.2) .nil)
    · rw [addConfig, if_neg kind] at hadd
      rw [hadd, sitesOf, nodesOf_snoc_of_ne kind]
      exact ⟨hproblems, hdeclares⟩

theorem projectName_eq_ok {declared : List (String × List Declaration)} {name : String} :
    projectName declared node = .ok name ↔ node.textArgument? 0 = some name ∧
      Coordinate.separator ∉ name.toList ∧ name ∉ declared.map (·.1) := by
  have hdeclared : ∀ name, declared.any (·.1 = name) = true ↔ name ∈ declared.map (·.1) := by simp
  unfold projectName
  simp only [bind_eq_ok, requiredText_eq_ok, List.contains_iff_mem, hdeclared]
  constructor
  · rintro ⟨_, named, h⟩
    split at h
    · cases h
    · rename_i hseparator
      split at h
      · cases h
      · rename_i hnew
        cases h
        exact ⟨named, hseparator, hnew⟩
  · rintro ⟨named, hseparator, hnew⟩
    refine ⟨name, named, ?_⟩
    rw [if_neg hseparator, if_neg hnew]
    rfl

end

/-! ### Outlines -/

section

variable {d : Draft Outline} {node : Kdl.Node} {name : String}

theorem problems_addEnvironment_iff : (addEnvironment d node).problems = [] ↔ d.problems = [] ∧
    ∃ name, node.textArgument? 0 = some name ∧ name ∉ d.value.environments := by
  rw [addEnvironment, Draft.problems_update_iff]
  simp only [bind_eq_ok, requiredText_eq_ok, List.contains_iff_mem]
  refine and_congr_right fun _ => ⟨?_, ?_⟩
  · rintro ⟨_, name, named, h⟩
    split at h
    · cases h
    · rename_i hnew
      exact ⟨name, named, hnew⟩
  · rintro ⟨name, named, hnew⟩
    exact ⟨_, name, named, if_neg hnew⟩

theorem addEnvironment_eq (named : node.textArgument? 0 = some name)
    (new : name ∉ d.value.environments) : addEnvironment d node =
      ⟨{ d.value with environments := d.value.environments ++ [name] }, d.problems⟩ := by
  apply Draft.update_of_ok
  refine bind_eq_ok.2 ⟨name, requiredText_eq_ok.2 named, ?_⟩
  rw [if_neg (by simpa using new)]
  rfl

theorem problems_addProject_iff : (addProject d node).problems = [] ↔ d.problems = [] ∧
    ∃ name, (node.textArgument? 0 = some name ∧ Coordinate.separator ∉ name.toList ∧
      name ∉ d.value.projects.map (·.1)) ∧
        (declarationsOfNodes name node.children).problems = [] := by
  simp only [← projectName_eq_ok]
  unfold addProject
  cases projectName d.value.projects node with
  | error problem => simp
  | ok name => simp

theorem addProject_eq (named : node.textArgument? 0 = some name)
    (separator : Coordinate.separator ∉ name.toList) (new : name ∉ d.value.projects.map (·.1)) :
    addProject d node = ⟨{ d.value with projects :=
      d.value.projects ++ [(name, (declarationsOfNodes name node.children).value)] },
        d.problems ++ (declarationsOfNodes name node.children).problems⟩ := by
  rw [addProject, projectName_eq_ok.2 ⟨named, separator, new⟩]

end

section

variable {document : Kdl.Document} {node : Kdl.Node}

theorem outlineOf_snoc (document : Kdl.Document) (node : Kdl.Node) :
    outlineOf (document ++ [node]) = addNode (outlineOf document) node :=
  List.foldl_concat ..

/-- What a document is read as. -/
structure Outlines (document : Kdl.Document) : Prop where
  problems : (outlineOf document).problems = [] ↔
    HaveNames (nodesOf "environment" document) ∧ AreProjects (nodesOf "project" document)
  environments : (outlineOf document).problems = [] →
    (outlineOf document).value.environments = (nodesOf "environment" document).map (textAt 0)
  projects : (outlineOf document).problems = [] →
    List.Forall₂ Opens (nodesOf "project" document) (outlineOf document).value.projects

theorem Outlines.snoc_environment (h : Outlines document) (kind : node.name = "environment") :
    Outlines (document ++ [node]) := by
  have hadd := outlineOf_snoc document node
  have hother : node.name ≠ "project" := by simp [kind]
  simp only [addNode, kind] at hadd
  constructor
  · rw [hadd, problems_addEnvironment_iff, nodesOf_snoc kind, nodesOf_snoc_of_ne hother,
      haveNames_snoc_iff, and_right_comm, ← h.problems]
    exact and_congr_right fun hproblems => by rw [h.environments hproblems]
  · rw [hadd, problems_addEnvironment_iff, nodesOf_snoc kind]
    rintro ⟨hproblems, name, hname, hnew⟩
    rw [addEnvironment_eq hname hnew, h.environments hproblems, List.map_append,
      List.map_singleton, textAt_eq hname]
  · rw [hadd, problems_addEnvironment_iff, nodesOf_snoc_of_ne hother]
    rintro ⟨hproblems, name, hname, hnew⟩
    rw [addEnvironment_eq hname hnew]
    exact h.projects hproblems

theorem Outlines.snoc_project (h : Outlines document) (kind : node.name = "project") :
    Outlines (document ++ [node]) := by
  have hadd := outlineOf_snoc document node
  have hother : node.name ≠ "environment" := by simp [kind]
  simp only [addNode, kind] at hadd
  constructor
  · rw [hadd, problems_addProject_iff, nodesOf_snoc kind, nodesOf_snoc_of_ne hother,
      areProjects_snoc_iff, ← and_assoc, ← h.problems]
    refine and_congr_right fun hproblems => exists_congr fun name => ?_
    rw [map_fst_eq_of_opens (h.projects hproblems), (declarationsOfNodes_spec name _).1]
    simp only [and_assoc, and_left_comm]
  · rw [hadd, problems_addProject_iff, nodesOf_snoc_of_ne hother]
    rintro ⟨hproblems, name, ⟨hname, hseparator, hnew⟩, _⟩
    rw [addProject_eq hname hseparator hnew]
    exact h.environments hproblems
  · rw [hadd, problems_addProject_iff, nodesOf_snoc kind]
    rintro ⟨hproblems, name, ⟨hname, hseparator, hnew⟩, hdeclarations⟩
    rw [addProject_eq hname hseparator hnew]
    have hdeclares := (declarationsOfNodes_spec name node.children).2 hdeclarations
    have hopens : Opens node (name, (declarationsOfNodes name node.children).value) :=
      ⟨(textAt_eq hname).symm, textAt_eq hname ▸ hdeclares⟩
    exact List.rel_append (h.projects hproblems) (.cons hopens .nil)

theorem Outlines.snoc_other (h : Outlines document) (henvironment : node.name ≠ "environment")
    (hproject : node.name ≠ "project") : Outlines (document ++ [node]) := by
  have hadd : outlineOf (document ++ [node]) = outlineOf document := by
    rw [outlineOf_snoc, addNode]
    split <;> trivial
  constructor
  · rw [hadd, nodesOf_snoc_of_ne henvironment, nodesOf_snoc_of_ne hproject, h.problems]
  · rw [hadd, nodesOf_snoc_of_ne henvironment]
    exact h.environments
  · rw [hadd, nodesOf_snoc_of_ne hproject]
    exact h.projects

theorem outlineOf_outlines (document : Kdl.Document) : Outlines document := by
  -- From behind: whether a name is new depends on the nodes before it.
  induction document using List.reverseRecOn with
  | nil => exact ⟨iff_of_true rfl ⟨haveNames_nil, areProjects_nil⟩, fun _ => rfl, fun _ => .nil⟩
  | append_singleton document node ih =>
    by_cases henvironment : node.name = "environment"
    · exact ih.snoc_environment henvironment
    · by_cases hproject : node.name = "project"
      · exact ih.snoc_project hproject
      · exact ih.snoc_other henvironment hproject

end

/-! ### What shows at the end -/

theorem Declaration.isSome_configIn? {environments : List String} {d : Declaration}
    (h : d.problems environments = []) {environment : String}
    (hdeclared : environment ∈ environments) : (d.configIn? environment).isSome := by
  rw [Declaration.problems, List.append_eq_nil_iff, List.map_eq_nil_iff, List.map_eq_nil_iff,
    List.filter_eq_nil_iff, List.filter_eq_nil_iff] at h
  have hsome := h.2 environment hdeclared
  rwa [Option.isNone_iff_eq_none, ← ne_eq, Option.ne_none_iff_isSome] at hsome

namespace Outline

/-- Nothing is wrong with the declarations. -/
def IsComplete (o : Outline) : Prop :=
  ∀ project ∈ o.projects, ∀ d ∈ project.2, d.problems o.environments = []

variable {o : Outline}

theorem repeated_eq_nil_iff : o.repeated = [] ↔ ∀ environment ∈ o.environments,
    ((o.manifest.configsFor environment).map (·.coordinate)).Nodup := by
  rw [repeated, List.eq_nil_iff_forall_not_mem]
  simp only [mem_ascending, ← List.eq_nil_iff_forall_not_mem, List.flatMap_eq_nil_iff,
    repeatedCoordinates_eq_nil_iff]

theorem problems_eq_nil_iff : o.problems = [] ↔ o.environments ≠ [] ∧ o.IsComplete ∧
    ∀ environment ∈ o.environments,
      ((o.manifest.configsFor environment).map (·.coordinate)).Nodup := by
  rw [problems, List.append_eq_nil_iff, List.append_eq_nil_iff, List.map_eq_nil_iff,
    repeated_eq_nil_iff, and_assoc]
  simp only [List.flatMap_eq_nil_iff, IsComplete]
  refine and_congr_left fun _ => ?_
  cases o.environments <;> simp

end Outline

theorem ofDocument_eq_ok_iff {document : Kdl.Document} {m : Manifest} :
    ofDocument document = .ok m ↔ (outlineOf document).problems = [] ∧
      (outlineOf document).value.problems = [] ∧ m = (outlineOf document).value.manifest := by
  rw [ofDocument, LoadError.check_eq_ok_iff, List.append_eq_nil_iff, and_assoc]

end Rollout.Manifest
