import Rollout.Manifest.Loader
import Rollout.Proofs.Manifest.Parameters
import Mathlib.Data.List.Basic
import Mathlib.Data.List.Induction

/-! What nodes set. A block of settings is the body of a config or what an override holds. Blocks
that are laid over one another in order are read from behind: of every setting the last node in the
last block that has one counts (`Body.Reflects`). -/

namespace Rollout

/-- The last value that a list gives. -/
def last? {α β : Type} (f : α → Option β) (l : List α) : Option β := l.reverse.findSome? f

section

variable {α β : Type} (f : α → Option β)

@[simp] theorem last?_nil : last? f [] = none := rfl

@[simp] theorem last?_singleton (a : α) : last? f [a] = f a := by
  cases h : f a <;> simp [last?, h]

theorem last?_append (l l' : List α) : last? f (l ++ l') = (last? f l').or (last? f l) := by
  rw [last?, List.reverse_append, List.findSome?_append]
  rfl

theorem last?_eq_none_iff {l : List α} : last? f l = none ↔ ∀ a ∈ l, f a = none := by
  simp [last?, List.findSome?_eq_none_iff]

end

section

variable {α β : Type} {R : α → β → Prop} {a a' : Option α} {b b' : Option β}

theorem eq_none_iff_of_rel (h : Option.Rel R a b) : a = none ↔ b = none := by
  cases h <;> simp

theorem eq_of_rel (hR : ∀ a b b', R a b → R a b' → b = b') (h : Option.Rel R a b)
    (h' : Option.Rel R a b') : b = b' := by
  cases h with
  | none =>
    cases h'
    rfl
  | some hab =>
    cases h' with
    | some hab' => rw [hR _ _ _ hab hab']

theorem rel_or (h : Option.Rel R a b) (h' : Option.Rel R a' b') :
    Option.Rel R (a.or a') (b.or b') := by
  cases h with
  | some hab => exact .some hab
  | none => exact h'

end

namespace Manifest

/-! ### Nodes -/

def template? (node : Kdl.Node) : Option String :=
  if node.name = "template" then node.textArgument? 0 else none

def originObjectId? (node : Kdl.Node) : Option String :=
  if node.name = "origin-object-id" then node.textArgument? 0 else none

/-- To say nothing means to skip. -/
def skip? (node : Kdl.Node) : Option Bool :=
  if node.name = "skip" then some ((node.arguments.head?.bind Kdl.Scalar.bool?).getD true) else none

def parameterName? (node : Kdl.Node) : Option String :=
  if node.name = "param" then node.textArgument? 0 else none

/-- The node itself, if it gives the parameter of a name. -/
def parameter? (name : String) (node : Kdl.Node) : Option Kdl.Node :=
  if parameterName? node = some name then some node else none

/-- A node that sets something. -/
inductive IsSetting : Kdl.Node → Prop
  | template {node : Kdl.Node} {content : String} (kind : node.name = "template")
    (given : node.textArgument? 0 = some content) : IsSetting node
  | originObjectId {node : Kdl.Node} {id : String} (kind : node.name = "origin-object-id")
    (given : node.textArgument? 0 = some id) : IsSetting node
  | skip {node : Kdl.Node} (kind : node.name = "skip") : IsSetting node
  | parameter {node : Kdl.Node} {name : String} {p : Parameter} (kind : node.name = "param")
    (named : node.textArgument? 0 = some name) (given : Gives 1 node p) : IsSetting node

theorem IsSetting.template?_eq_none_iff {node : Kdl.Node} (h : IsSetting node) :
    template? node = none ↔ node.name ≠ "template" := by
  rw [template?, ite_eq_right_iff]
  refine imp_congr_right fun kind => iff_of_false ?_ id
  cases h with
  | template _ given => simp [given]
  | originObjectId kind' | skip kind' | parameter kind' => simp [kind'] at kind

/-- Nodes of a body or an override. -/
structure IsBlock (nodes : List Kdl.Node) : Prop where
  settings : ∀ node ∈ nodes, IsSetting node
  distinct : (nodes.filterMap parameterName?).Nodup

theorem isBlock_nil : IsBlock [] := ⟨List.forall_mem_nil _, List.nodup_nil⟩

theorem isBlock_snoc_iff {nodes : List Kdl.Node} {node : Kdl.Node} :
    IsBlock (nodes ++ [node]) ↔ IsBlock nodes ∧ IsSetting node ∧
      ∀ name, parameterName? node = some name → name ∉ nodes.filterMap parameterName? := by
  have hsettings : (∀ n ∈ nodes ++ [node], IsSetting n) ↔
      (∀ n ∈ nodes, IsSetting n) ∧ IsSetting node := by
    rw [List.forall_mem_append, List.forall_mem_singleton]
  have hdistinct : ((nodes ++ [node]).filterMap parameterName?).Nodup ↔
      (nodes.filterMap parameterName?).Nodup ∧
        ∀ name, parameterName? node = some name → name ∉ nodes.filterMap parameterName? := by
    rw [List.filterMap_append]
    cases h : parameterName? node with
    | none => simp [h]
    | some name =>
      rw [List.filterMap_cons_some h, List.filterMap_nil,
        (List.perm_append_singleton name _).nodup_iff, List.nodup_cons, and_comm]
      simp only [Option.some.injEq, forall_eq']
  constructor
  · rintro ⟨settings, distinct⟩
    obtain ⟨hsettings, hlast⟩ := hsettings.1 settings
    obtain ⟨hdistinct, hnew⟩ := hdistinct.1 distinct
    exact ⟨⟨hsettings, hdistinct⟩, hlast, hnew⟩
  · rintro ⟨h, hlast, hnew⟩
    exact ⟨hsettings.2 ⟨h.settings, hlast⟩, hdistinct.2 ⟨h.distinct, hnew⟩⟩

/-! ### Bodies -/

/-- A node sets something in a body. -/
inductive Body.Adds (body : Body) (node : Kdl.Node) : Body → Prop
  | template {content : String} (kind : node.name = "template")
    (given : node.textArgument? 0 = some content) :
    Adds body node { body with template := some content }
  | originObjectId {id : String} (kind : node.name = "origin-object-id")
    (given : node.textArgument? 0 = some id) :
    Adds body node { body with originObjectId := some id }
  | skip (kind : node.name = "skip") : Adds body node { body with skip := skip? node }
  | parameter {name : String} {p : Parameter} (kind : node.name = "param")
    (named : node.textArgument? 0 = some name) (new : body.parameters.get? name = none)
    (given : Gives 1 node p) :
    Adds body node { body with parameters := body.parameters.insert name p }

theorem Body.add_eq_ok {c : Coordinate} {body body' : Body} {node : Kdl.Node} :
    body.add c node = .ok body' ↔ body.Adds node body' := by
  constructor
  · intro h
    unfold Body.add at h
    split at h
    · rename_i kind
      obtain ⟨content, given, h⟩ := bind_eq_ok.1 h
      cases h
      exact .template kind (requiredText_eq_ok.1 given)
    · rename_i kind
      obtain ⟨id, given, h⟩ := bind_eq_ok.1 h
      cases h
      exact .originObjectId kind (requiredText_eq_ok.1 given)
    · rename_i kind
      cases h
      have hskip : skip? node = _ := if_pos kind
      exact hskip ▸ .skip kind
    · rename_i kind
      obtain ⟨name, named, h⟩ := bind_eq_ok.1 h
      split at h
      · cases h
      · rename_i hnew
        obtain ⟨p, given, h⟩ := bind_eq_ok.1 h
        cases h
        have hnone : body.parameters.get? name = none := by
          simpa [SortedMap.contains] using hnew
        exact .parameter kind (requiredText_eq_ok.1 named) hnone
          ((parameterOfNode_eq_ok _ 1 node).1 given)
    · cases h
  · intro h
    cases h with
    | template kind given =>
      simp only [Body.add, kind]
      exact bind_eq_ok.2 ⟨_, requiredText_eq_ok.2 given, rfl⟩
    | originObjectId kind given =>
      simp only [Body.add, kind]
      exact bind_eq_ok.2 ⟨_, requiredText_eq_ok.2 given, rfl⟩
    | skip kind => simp only [Body.add, skip?, kind, if_true]
    | parameter kind named new given =>
      simp only [Body.add, kind]
      refine bind_eq_ok.2 ⟨_, requiredText_eq_ok.2 named, ?_⟩
      rw [if_neg (by simp [SortedMap.contains, new])]
      exact bind_eq_ok.2 ⟨_, (parameterOfNode_eq_ok _ 1 node).2 given, rfl⟩

/-- A body has what blocks set, the later ones over the earlier ones. -/
structure Body.Reflects (body : Body) (blocks : List (List Kdl.Node)) : Prop where
  template : body.template = last? (last? template?) blocks
  skip : body.skip = last? (last? skip?) blocks
  originObjectId : body.originObjectId = last? (last? originObjectId?) blocks
  parameters : ∀ name, Option.Rel (Gives 1) (last? (last? (parameter? name)) blocks)
    (body.parameters.get? name)

theorem Body.reflects_empty : Body.empty.Reflects [[]] where
  template := rfl
  skip := rfl
  originObjectId := rfl
  parameters _ := .none

namespace Body.Reflects

variable {body body' : Body} {nodes : List Kdl.Node} {node : Kdl.Node}

theorem snoc (h : body.Reflects [nodes])
    (template : body'.template = (template? node).or body.template)
    (skip : body'.skip = (skip? node).or body.skip)
    (originObjectId : body'.originObjectId = (originObjectId? node).or body.originObjectId)
    (parameters : ∀ name, Option.Rel (Gives 1)
      ((parameter? name node).or (last? (parameter? name) nodes)) (body'.parameters.get? name)) :
    body'.Reflects [nodes ++ [node]] where
  template := by simpa [last?_append, h.template] using template
  skip := by simpa [last?_append, h.skip] using skip
  originObjectId := by simpa [last?_append, h.originObjectId] using originObjectId
  parameters name := by simpa [last?_append] using parameters name

theorem adds (h : body.Reflects [nodes]) (hadds : body.Adds node body') :
    body'.Reflects [nodes ++ [node]] := by
  have hparameters := h.parameters
  simp only [last?_singleton] at hparameters
  cases hadds with
  | template kind given =>
    exact h.snoc (by simp [template?, kind, given]) (by simp [skip?, kind])
      (by simp [originObjectId?, kind]) (by simpa [parameter?, parameterName?, kind])
  | originObjectId kind given =>
    exact h.snoc (by simp [template?, kind]) (by simp [skip?, kind])
      (by simp [originObjectId?, kind, given]) (by simpa [parameter?, parameterName?, kind])
  | skip kind =>
    exact h.snoc (by simp [template?, kind]) (by simp [skip?, kind])
      (by simp [originObjectId?, kind]) (by simpa [parameter?, parameterName?, kind])
  | @parameter name p kind named new given =>
    refine h.snoc (by simp [template?, kind]) (by simp [skip?, kind])
      (by simp [originObjectId?, kind]) fun other => ?_
    by_cases hother : other = name
    · subst hother
      rw [parameter?, parameterName?, if_pos kind, if_pos named, SortedMap.get?_insert_self]
      exact .some given
    · rw [parameter?, parameterName?, if_pos kind, named, if_neg (by simpa using Ne.symm hother),
        SortedMap.get?_insert_of_ne hother]
      exact hparameters other

theorem isSetting (hadds : body.Adds node body') : IsSetting node := by
  cases hadds with
  | template kind given => exact .template kind given
  | originObjectId kind given => exact .originObjectId kind given
  | skip kind => exact .skip kind
  | parameter kind named _ given => exact .parameter kind named given

/-- A name is new to the body where it is new to the block. -/
theorem get?_eq_none_iff (h : body.Reflects [nodes]) {name : String} :
    body.parameters.get? name = none ↔ name ∉ nodes.filterMap parameterName? := by
  have hrel := h.parameters name
  rw [last?_singleton] at hrel
  have hnone : last? (parameter? name) nodes = none ↔ name ∉ nodes.filterMap parameterName? := by
    simp [last?_eq_none_iff, parameter?]
  rw [← hnone, eq_none_iff_of_rel hrel]

theorem exists_adds_iff (h : body.Reflects [nodes]) :
    (∃ body', body.Adds node body') ↔ IsSetting node ∧
      ∀ name, parameterName? node = some name → name ∉ nodes.filterMap parameterName? := by
  constructor
  · rintro ⟨_, hadds⟩
    refine ⟨isSetting hadds, fun name hname => ?_⟩
    rw [← h.get?_eq_none_iff]
    cases hadds with
    | parameter kind named new _ =>
      rw [parameterName?, if_pos kind] at hname
      cases named.symm.trans hname
      exact new
    | template kind | originObjectId kind | skip kind => simp [parameterName?, kind] at hname
  · rintro ⟨hsetting, hnew⟩
    cases hsetting with
    | template kind given => exact ⟨_, .template kind given⟩
    | originObjectId kind given => exact ⟨_, .originObjectId kind given⟩
    | skip kind => exact ⟨_, .skip kind⟩
    | parameter kind named given =>
      have hname := hnew _ ((if_pos kind).trans named)
      exact ⟨_, .parameter kind named (h.get?_eq_none_iff.2 hname) given⟩

end Body.Reflects

/-! ### Drafts -/

section

variable {α : Type} {d : Draft α} {step : α → Except LoadProblem α}

theorem Draft.problems_update_iff :
    (d.update step).problems = [] ↔ d.problems = [] ∧ ∃ value, step d.value = .ok value := by
  unfold Draft.update
  cases step d.value <;> simp

theorem Draft.update_of_ok {value : α} (h : step d.value = .ok value) :
    d.update step = ⟨value, d.problems⟩ := by
  simp only [Draft.update, h]

theorem Draft.update_of_error {problem : LoadProblem} (h : step d.value = .error problem) :
    d.update step = ⟨d.value, d.problems ++ [problem]⟩ := by
  simp only [Draft.update, h]

end

theorem bodyOfNodes_snoc (c : Coordinate) (nodes : List Kdl.Node) (node : Kdl.Node) :
    bodyOfNodes c (nodes ++ [node]) = (bodyOfNodes c nodes).update fun body => body.add c node :=
  List.foldl_concat ..

/-- A block is read without problems, and then the body has what it sets. -/
theorem bodyOfNodes_spec (c : Coordinate) (nodes : List Kdl.Node) :
    ((bodyOfNodes c nodes).problems = [] ↔ IsBlock nodes) ∧
      (IsBlock nodes → (bodyOfNodes c nodes).value.Reflects [nodes]) := by
  induction nodes using List.reverseRecOn with
  | nil => exact ⟨iff_of_true rfl isBlock_nil, fun _ => Body.reflects_empty⟩
  | append_singleton nodes node ih =>
    -- As long as nothing failed, the names of the body are those of the block.
    obtain ⟨hproblems, hreflects⟩ := ih
    rw [bodyOfNodes_snoc, isBlock_snoc_iff, Draft.problems_update_iff, hproblems]
    constructor
    · refine and_congr_right fun hblock => ?_
      rw [← (hreflects hblock).exists_adds_iff]
      exact exists_congr fun _ => Body.add_eq_ok
    · rintro ⟨hblock, hnode⟩
      obtain ⟨body', hadds⟩ := (hreflects hblock).exists_adds_iff.2 hnode
      rw [Draft.update_of_ok (Body.add_eq_ok.2 hadds)]
      exact (hreflects hblock).adds hadds

/-! ### Blocks over blocks -/

theorem Body.Reflects.override {base changes : Body} {blocks laid : List (List Kdl.Node)}
    (hbase : base.Reflects blocks) (hchanges : changes.Reflects laid) :
    (base.override changes).Reflects (blocks ++ laid) where
  template := by rw [last?_append, ← hbase.template, ← hchanges.template]; rfl
  skip := by rw [last?_append, ← hbase.skip, ← hchanges.skip]; rfl
  originObjectId := by
    rw [last?_append, ← hbase.originObjectId, ← hchanges.originObjectId]; rfl
  parameters name := by
    rw [last?_append, Body.override, SortedMap.get?_override]
    exact rel_or (hchanges.parameters name) (hbase.parameters name)

end Manifest

end Rollout
