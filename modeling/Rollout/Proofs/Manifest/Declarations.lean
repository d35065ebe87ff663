import Rollout.Proofs.Manifest.Settings
import Mathlib.Data.List.Forall2

/-! Config nodes. A node that stands in a project declares a config if its head and all its blocks
are in order, and in every environment that config has what the blocks for it set
(`Site.Declares.reflects`). -/

namespace Rollout.Manifest

/-- The nodes of one name. -/
def nodesOf (name : String) (nodes : List Kdl.Node) : List Kdl.Node := nodes.filter (·.name = name)

/-- The nodes that stand in the body of a config. -/
def bodyNodes (nodes : List Kdl.Node) : List Kdl.Node := nodes.filter (·.name ≠ "override")

/-- A string argument, empty where there is none. -/
def textAt (index : Nat) (node : Kdl.Node) : String := (node.textArgument? index).getD ""

/-- A config node and the project in which it stands. -/
structure Site where
  project : String
  node : Kdl.Node

namespace Site

def coordinate (s : Site) : Coordinate := ⟨s.project, textAt 0 s.node, textAt 1 s.node⟩

/-- The nodes that hold in every environment. -/
def body (s : Site) : List Kdl.Node := bodyNodes s.node.children

def overrides (s : Site) : List Kdl.Node := nodesOf "override" s.node.children

/-- The blocks that hold in an environment: the body and, over it, the overrides that name it. -/
def blocksIn (s : Site) (environment : String) : List (List Kdl.Node) :=
  s.body :: (s.overrides.filter (·.textArgument? 0 = some environment)).map (·.children)

end Site

theorem forall_mem_iff_of_forall₂ {α β : Type} {R : α → β → Prop} {p : α → Prop} {q : β → Prop}
    {l : List α} {l' : List β} (h : List.Forall₂ R l l') (hR : ∀ a b, R a b → (p a ↔ q b)) :
    (∀ a ∈ l, p a) ↔ ∀ b ∈ l', q b := by
  induction h with
  | nil => simp
  | cons hab _ ih => simp only [List.forall_mem_cons, hR _ _ hab, ih]

section

variable {name : String} {nodes : List Kdl.Node} {node : Kdl.Node}

theorem nodesOf_snoc (kind : node.name = name) :
    nodesOf name (nodes ++ [node]) = nodesOf name nodes ++ [node] := by
  simp [nodesOf, kind]

theorem nodesOf_snoc_of_ne (kind : node.name ≠ name) :
    nodesOf name (nodes ++ [node]) = nodesOf name nodes := by
  simp [nodesOf, kind]

end

/-- An override names its environment and holds a block. -/
structure IsOverride (node : Kdl.Node) : Prop where
  named : ∃ environment, node.textArgument? 0 = some environment
  block : IsBlock node.children

/-- What an override does in which environment. -/
structure Overrides (node : Kdl.Node) (changes : String × Body) : Prop where
  environment : node.textArgument? 0 = some changes.1
  reflects : changes.2.Reflects [node.children]

/-- The type that a config node names, with the version of its schema. -/
def configType? (node : Kdl.Node) : Option ConfigType :=
  (ConfigType.ofName? (textAt 0 node)).map
    (·.withSchemaVersion (node.textProperty? "schema-version"))

namespace Site

/-- A config node whose head, body and overrides are in order. -/
structure IsReadable (s : Site) : Prop where
  type : ∃ name, s.node.textArgument? 0 = some name ∧ (ConfigType.ofName? name).isSome
  id : ∃ id, s.node.textArgument? 1 = some id ∧ Coordinate.separator ∉ id.toList
  body : IsBlock s.body
  overrides : ∀ node ∈ s.overrides, IsOverride node

/-- All blocks are in order. -/
theorem IsReadable.isBlock {s : Site} (h : s.IsReadable) {environment : String} :
    ∀ block ∈ s.blocksIn environment, IsBlock block := by
  rw [blocksIn]
  refine List.forall_mem_cons.2 ⟨h.body, fun block hblock => ?_⟩
  obtain ⟨node, hnode, rfl⟩ := List.mem_map.1 hblock
  exact (h.overrides node (List.mem_of_mem_filter hnode)).block

/-- What a config node stands for. -/
structure Declares (s : Site) (d : Declaration) : Prop where
  readable : s.IsReadable
  coordinate : d.coordinate = s.coordinate
  configType : configType? s.node = some d.configType
  body : d.body.Reflects [s.body]
  overrides : List.Forall₂ Overrides s.overrides d.overrides

end Site

/-! ### Contents -/

/-- The children of a config node, read one after another. -/
def contentsOfNodes (c : Coordinate) (nodes : List Kdl.Node) : Draft Contents :=
  nodes.foldl (addChild c) ⟨Contents.empty, []⟩

section

variable (c : Coordinate) {nodes : List Kdl.Node} {node : Kdl.Node}

theorem contentsOfNodes_snoc (nodes : List Kdl.Node) (node : Kdl.Node) :
    contentsOfNodes c (nodes ++ [node]) = addChild c (contentsOfNodes c nodes) node :=
  List.foldl_concat ..

/-- The body is read as if there were no overrides, and the overrides are read one by one. Of what
they hold nothing is said where there are problems, since then nothing comes of it. -/
structure Splits (nodes : List Kdl.Node) : Prop where
  body : (contentsOfNodes c nodes).value.body = (bodyOfNodes c (bodyNodes nodes)).value
  problems : (contentsOfNodes c nodes).problems = [] ↔
    (bodyOfNodes c (bodyNodes nodes)).problems = [] ∧
      ∀ node ∈ nodesOf "override" nodes, IsOverride node
  overrides : (contentsOfNodes c nodes).problems = [] →
    List.Forall₂ Overrides (nodesOf "override" nodes) (contentsOfNodes c nodes).value.overrides

theorem Splits.snoc_override (h : Splits c nodes) (kind : node.name = "override") :
    Splits c (nodes ++ [node]) := by
  have hbody : bodyNodes (nodes ++ [node]) = bodyNodes nodes := by simp [bodyNodes, kind]
  have hadd := contentsOfNodes_snoc c nodes node
  rw [addChild, if_pos kind, requiredText] at hadd
  cases named : node.textArgument? 0 with
  | none =>
    have hno : ¬IsOverride node := by
      rintro ⟨⟨_, hnamed⟩, _⟩
      cases named.symm.trans hnamed
    rw [named] at hadd
    constructor
    · rw [hbody, hadd, h.body]
    · rw [hadd, nodesOf_snoc kind]
      exact iff_of_false (by simp) fun hall => hno (hall.2 node (by simp))
    · rw [hadd]
      exact fun hproblems => absurd hproblems (by simp)
  | some environment =>
    obtain ⟨hblock, hreflects⟩ := bodyOfNodes_spec c node.children
    have hoverride : IsOverride node ↔ IsBlock node.children :=
      ⟨fun h => h.block, fun h => ⟨⟨_, named⟩, h⟩⟩
    rw [named] at hadd
    constructor
    · rw [hbody, hadd, h.body]
    · rw [hbody, hadd, nodesOf_snoc kind, List.append_eq_nil_iff, h.problems, hblock, ← hoverride]
      simp only [List.forall_mem_append, List.forall_mem_singleton, and_assoc]
    · rw [hadd, nodesOf_snoc kind, List.append_eq_nil_iff, hblock]
      rintro ⟨hproblems, hblock⟩
      exact List.rel_append (h.overrides hproblems) (.cons ⟨named, hreflects hblock⟩ .nil)

/-- A node that is no override is added to the body alone. -/
theorem addChild_of_ne (kind : node.name ≠ "override") (d : Draft Contents) :
    addChild c d node =
      (let body := (⟨d.value.body, d.problems⟩ : Draft Body).update fun body => body.add c node
      ⟨⟨body.value, d.value.overrides⟩, body.problems⟩) := by
  rw [addChild, if_neg kind, Draft.update, Draft.update]
  cases d.value.body.add c node <;> rfl

theorem Splits.snoc_setting (h : Splits c nodes) (kind : node.name ≠ "override") :
    Splits c (nodes ++ [node]) := by
  have hbody : bodyNodes (nodes ++ [node]) = bodyNodes nodes ++ [node] := by simp [bodyNodes, kind]
  have hadd := contentsOfNodes_snoc c nodes node
  rw [addChild_of_ne c kind] at hadd
  cases hnode : (contentsOfNodes c nodes).value.body.add c node with
  | error problem =>
    have hnode' := h.body ▸ hnode
    rw [Draft.update_of_error hnode] at hadd
    constructor
    · rw [hadd, hbody, bodyOfNodes_snoc, Draft.update_of_error hnode', h.body]
    · rw [hadd, hbody, bodyOfNodes_snoc, Draft.update_of_error hnode']
      exact iff_of_false (by simp) fun hall => absurd hall.1 (by simp)
    · rw [hadd]
      exact fun hproblems => absurd hproblems (by simp)
  | ok body =>
    have hnode' := h.body ▸ hnode
    rw [Draft.update_of_ok hnode] at hadd
    constructor
    · rw [hadd, hbody, bodyOfNodes_snoc, Draft.update_of_ok hnode']
    · rw [hadd, hbody, nodesOf_snoc_of_ne kind, bodyOfNodes_snoc, Draft.update_of_ok hnode',
        h.problems]
    · rw [hadd, nodesOf_snoc_of_ne kind]
      exact h.overrides

theorem contentsOfNodes_splits (nodes : List Kdl.Node) : Splits c nodes := by
  induction nodes using List.reverseRecOn with
  | nil => exact ⟨rfl, iff_of_true rfl ⟨rfl, List.forall_mem_nil _⟩, fun _ => .nil⟩
  | append_singleton nodes node ih =>
    by_cases kind : node.name = "override"
    · exact ih.snoc_override c kind
    · exact ih.snoc_setting c kind

end

theorem problems_contentsOfNodes_iff {c : Coordinate} {nodes : List Kdl.Node} :
    (contentsOfNodes c nodes).problems = [] ↔
      IsBlock (bodyNodes nodes) ∧ ∀ node ∈ nodesOf "override" nodes, IsOverride node := by
  rw [(contentsOfNodes_splits c nodes).problems, (bodyOfNodes_spec c _).1]

/-! ### Heads -/

theorem textAt_eq {index : Nat} {node : Kdl.Node} {text : String}
    (h : node.textArgument? index = some text) : textAt index node = text := by
  rw [textAt, h, Option.getD_some]

theorem headOfNode_eq_ok {project : String} {node : Kdl.Node} {c : Coordinate} {t : ConfigType} :
    headOfNode project node = .ok (c, t) ↔ ∃ name id, node.textArgument? 0 = some name ∧
      node.textArgument? 1 = some id ∧ Coordinate.separator ∉ id.toList ∧
        c = ⟨project, name, id⟩ ∧ configType? node = some t := by
  unfold headOfNode
  simp only [bind_eq_ok, requiredText_eq_ok]
  constructor
  · rintro ⟨name, hname, id, hid, h⟩
    split at h
    · cases h
    · rename_i hseparator
      split at h
      · rename_i type htype
        cases h
        refine ⟨name, id, hname, hid, by simpa using hseparator, rfl, ?_⟩
        rw [configType?, textAt_eq hname, htype, Option.map_some]
      · cases h
  · rintro ⟨name, id, hname, hid, hseparator, rfl, htype⟩
    rw [configType?, textAt_eq hname] at htype
    obtain ⟨type, hof, rfl⟩ := Option.map_eq_some_iff.1 htype
    refine ⟨name, hname, id, hid, ?_⟩
    rw [if_neg (by simpa using hseparator)]
    simp only [hof]
    rfl

theorem declarationOfNode_eq_ok {project : String} {node : Kdl.Node} {d : Draft Declaration} :
    declarationOfNode project node = .ok d ↔ ∃ c t, headOfNode project node = .ok (c, t) ∧
      d = ⟨⟨c, t, (contentsOfNodes c node.children).value.body,
        (contentsOfNodes c node.children).value.overrides⟩,
        (contentsOfNodes c node.children).problems⟩ := by
  unfold declarationOfNode
  simp only [bind_eq_ok, Prod.exists]
  refine exists_congr fun c => exists_congr fun t => and_congr_right fun _ => ?_
  exact ⟨fun h => (Except.ok.inj h).symm, fun h => h ▸ rfl⟩

/-! ### Declarations -/

namespace Site

variable {s : Site}

/-- Exactly the readable config nodes are read without problems. -/
theorem isReadable_iff : s.IsReadable ↔
    ∃ d, declarationOfNode s.project s.node = .ok d ∧ d.problems = [] := by
  simp only [declarationOfNode_eq_ok, headOfNode_eq_ok]
  constructor
  · rintro ⟨⟨name, hname, htype⟩, ⟨id, hid, hseparator⟩, body, overrides⟩
    obtain ⟨type, htype⟩ := Option.isSome_iff_exists.1 htype
    have htype : configType? s.node =
        some (type.withSchemaVersion (s.node.textProperty? "schema-version")) := by
      rw [configType?, textAt_eq hname, htype, Option.map_some]
    exact ⟨_, ⟨_, _, ⟨name, id, hname, hid, hseparator, rfl, htype⟩, rfl⟩,
      problems_contentsOfNodes_iff.2 ⟨body, overrides⟩⟩
  · rintro ⟨_, ⟨_, _, ⟨name, id, hname, hid, hseparator, rfl, htype⟩, rfl⟩, hproblems⟩
    obtain ⟨body, overrides⟩ := problems_contentsOfNodes_iff.1 hproblems
    rw [configType?, textAt_eq hname] at htype
    obtain ⟨type, htype, _⟩ := Option.map_eq_some_iff.1 htype
    exact ⟨⟨name, hname, htype ▸ rfl⟩, ⟨id, hid, hseparator⟩, body, overrides⟩

theorem declares {d : Draft Declaration} (h : declarationOfNode s.project s.node = .ok d)
    (hproblems : d.problems = []) : s.Declares d.value := by
  obtain ⟨c, t, hhead, rfl⟩ := declarationOfNode_eq_ok.1 h
  obtain ⟨name, id, hname, hid, _, rfl, htype⟩ := headOfNode_eq_ok.1 hhead
  have hsplits := contentsOfNodes_splits ⟨s.project, name, id⟩ s.node.children
  obtain ⟨hblock, _⟩ := problems_contentsOfNodes_iff.1 hproblems
  exact {
    readable := isReadable_iff.2 ⟨_, h, hproblems⟩
    coordinate := by rw [coordinate, textAt_eq hname, textAt_eq hid]
    configType := htype
    body := hsplits.body ▸ (bodyOfNodes_spec _ _).2 hblock
    overrides := hsplits.overrides hproblems }

/-- The overrides of an environment are laid over what is there, one after another. -/
theorem reflects_foldl {nodes : List Kdl.Node} {overrides : List (String × Body)}
    (h : List.Forall₂ Overrides nodes overrides) (environment : String) {base : Body}
    {blocks : List (List Kdl.Node)} (hbase : base.Reflects blocks) :
    ((overrides.filter (·.1 = environment)).foldl (fun body changes => body.override changes.2)
      base).Reflects (blocks ++
        (nodes.filter (·.textArgument? 0 = some environment)).map (·.children)) := by
  induction h generalizing base blocks with
  | nil => simpa using hbase
  | @cons node changes nodes overrides hone _ ih =>
    by_cases hchanges : changes.1 = environment
    · have hnode : node.textArgument? 0 = some environment := hchanges ▸ hone.environment
      have hnext := ih (hbase.override hone.reflects)
      simpa [hchanges, hnode] using hnext
    · have hnode : node.textArgument? 0 ≠ some environment := by
        rw [hone.environment]
        simpa using hchanges
      simpa [hchanges, hnode] using ih hbase

namespace Declares

variable {d : Declaration} (h : s.Declares d)

include h

/-- In every environment the blocks for it count, and no others. -/
theorem reflects (environment : String) :
    (d.bodyIn environment).Reflects (s.blocksIn environment) :=
  reflects_foldl h.overrides environment h.body

theorem isNone_configIn?_iff (environment : String) :
    (d.configIn? environment).isNone ↔
      ∀ block ∈ s.blocksIn environment, ∀ node ∈ block, template? node = none := by
  rw [Declaration.configIn?, Option.isNone_map, Option.isNone_iff_eq_none,
    (h.reflects environment).template]
  simp only [last?_eq_none_iff]

/-- What is wrong with a declaration shows in its node and the declared environments. -/
theorem problems_eq_nil_iff (environments : List String) :
    d.problems environments = [] ↔
      (∀ node ∈ s.overrides, ∃ environment ∈ environments,
        node.textArgument? 0 = some environment) ∧
      ∀ environment ∈ environments, ∃ block ∈ s.blocksIn environment, ∃ node ∈ block,
        node.name = "template" := by
  rw [Declaration.problems, List.append_eq_nil_iff, List.map_eq_nil_iff, List.map_eq_nil_iff,
    List.filter_eq_nil_iff, List.filter_eq_nil_iff]
  apply and_congr
  · refine (forall_mem_iff_of_forall₂ h.overrides fun node changes hone => ?_).symm
    rw [hone.environment]
    simp
  · -- Template nodes of a readable block have their text, so to be there is enough.
    refine forall₂_congr fun environment _ => ?_
    rw [h.isNone_configIn?_iff]
    push Not
    refine exists_congr fun block => and_congr_right fun hblock => ?_
    refine exists_congr fun node => and_congr_right fun hnode => ?_
    have hsetting := (h.readable.isBlock block hblock).settings node hnode
    rw [ne_eq, hsetting.template?_eq_none_iff, not_not]

end Declares

end Site

end Rollout.Manifest
