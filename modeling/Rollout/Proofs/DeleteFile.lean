import Rollout.DeleteFile
import Mathlib.Data.List.Forall2

/-! What delete files mean. A node is valid in one of two forms, and each form says which entry the
node gives. A document gives the entries of all of its nodes, or one problem for each node that is
not valid (`ofDocument_all_or_nothing`). Empty types and identifiers are refused in the short form
and let through in the full one (`ofText_nonempty_iff`). -/

namespace Rollout.DeleteFile

open Kdl (Node Document)

variable {node : Node} {entry : DeleteEntry} {entries : List DeleteEntry} {document : Document}
  {problem : LoadProblem} {text : String} {index : Nat}

/-- The first positional argument is this string. -/
def HasArgument (node : Node) (text : String) : Prop := node.arguments.head? = some (.string text)

/-- The property is this string. -/
def HasProperty (node : Node) (name text : String) : Prop :=
  node.property? name = some (.string text)

/-- The short form `type/identifier`, divided at its first slash. -/
structure IsShort (text configType identifier : String) : Prop where
  text : text = configType ++ "/" ++ identifier
  slash : '/' ∉ configType.toList
  configType : configType ≠ ""
  identifier : identifier ≠ ""

/-- One of the properties for an identifier is this string, and the other one is no string. -/
inductive IsIdentified (node : Node) (identifier : String) : Prop
  | id (id : HasProperty node "id" identifier) (name : ∀ text, ¬ HasProperty node "name" text)
  | name (name : HasProperty node "name" identifier) (id : ∀ text, ¬ HasProperty node "id" text)

/-- A node is valid in the short form if it has an argument that is a string, and in the full form
otherwise. -/
structure IsValid (node : Node) : Prop where
  name : node.name = "delete"
  form : (∃ text, HasArgument node text ∧ ∃ configType identifier,
      IsShort text configType identifier) ∨
    (∀ text, ¬ HasArgument node text) ∧ (∃ configType, HasProperty node "type" configType) ∧
      ∃ identifier, IsIdentified node identifier

/-- The entry that a valid node gives. -/
inductive Gives (node : Node) (entry : DeleteEntry) : Prop
  | short {text : String} (name : node.name = "delete") (argument : HasArgument node text)
    (form : IsShort text entry.configType entry.identifier) (project : entry.project = none)
  | full (name : node.name = "delete") (argument : ∀ text, ¬ HasArgument node text)
    (configType : HasProperty node "type" entry.configType)
    (identifier : IsIdentified node entry.identifier)
    (project : ∀ text, entry.project = some text ↔ HasProperty node "project" text)

/-- The problem is about the node at this place. -/
def Concerns (index : Nat) : LoadProblem → Prop
  | .invalidValue subject _ => subject = field index
  | .missingField what => what = "type of " ++ field index ∨ what = "id or name of " ++ field index
  | _ => False

/-! ### Arguments and properties -/

theorem text?_eq_some_iff {value : Kdl.Scalar} :
    value.text? = some text ↔ value = .string text := by
  cases value <;> simp [Kdl.Scalar.text?]

theorem textArgument?_eq_some_iff : node.textArgument? 0 = some text ↔ HasArgument node text := by
  rw [Node.textArgument?, HasArgument, ← List.head?_eq_getElem?, Option.bind_eq_some_iff]
  simp [text?_eq_some_iff]

theorem textProperty?_eq_some_iff {name : String} :
    node.textProperty? name = some text ↔ HasProperty node name text := by
  rw [Node.textProperty?, HasProperty, Option.bind_eq_some_iff]
  simp [text?_eq_some_iff]

theorem textArgument?_eq_none_iff :
    node.textArgument? 0 = none ↔ ∀ text, ¬ HasArgument node text := by
  simp only [← textArgument?_eq_some_iff, Option.eq_none_iff_forall_ne_some, ne_eq]

theorem textProperty?_eq_none_iff {name : String} :
    node.textProperty? name = none ↔ ∀ text, ¬ HasProperty node name text := by
  simp only [← textProperty?_eq_some_iff, Option.eq_none_iff_forall_ne_some, ne_eq]

theorem HasArgument.unique {text' : String} (h : HasArgument node text)
    (h' : HasArgument node text') : text = text' := by
  simpa using h.symm.trans h'

/-! ### Entries of nodes -/

/-- The short form is cut at its first slash. -/
theorem isShort_iff {configType identifier : String} : IsShort text configType identifier ↔
    (∃ before after, Text.cutFirst '/' text.toList = some (before, after) ∧
      .ofList before = configType ∧ .ofList after = identifier) ∧
      configType ≠ "" ∧ identifier ≠ "" := by
  simp only [Text.cutFirst_eq_some_iff]
  constructor
  · rintro ⟨rfl, slash, hconfigType, hidentifier⟩
    exact ⟨⟨_, _, ⟨by simp, slash⟩, String.ofList_toList, String.ofList_toList⟩,
      hconfigType, hidentifier⟩
  · rintro ⟨⟨before, after, ⟨htext, slash⟩, rfl, rfl⟩, hconfigType, hidentifier⟩
    exact ⟨String.toList_injective (by simpa using htext), by simpa using slash,
      hconfigType, hidentifier⟩

theorem ofShortForm_eq_ok_iff {subject : String} : ofShortForm subject text = .ok entry ↔
    IsShort text entry.configType entry.identifier ∧ entry.project = none := by
  obtain ⟨configType, identifier, project⟩ := entry
  rw [isShort_iff, ofShortForm]
  cases Text.cutFirst '/' text.toList with
  | none => simp
  | some sides =>
    obtain ⟨before, after⟩ := sides
    simp only [Option.some.injEq, Prod.mk.injEq, Bool.or_eq_true, List.isEmpty_iff,
      ← String.ofList_eq_empty_iff]
    by_cases hempty : String.ofList before = "" ∨ String.ofList after = ""
    · rw [if_pos hempty]
      refine iff_of_false (by simp) ?_
      rintro ⟨⟨⟨_, _, ⟨rfl, rfl⟩, rfl, rfl⟩, hconfigType, hidentifier⟩, -⟩
      exact hempty.elim hconfigType hidentifier
    · rw [if_neg hempty, Except.ok.injEq, DeleteEntry.mk.injEq]
      obtain ⟨hbefore, hafter⟩ := not_or.1 hempty
      constructor
      · rintro ⟨rfl, rfl, rfl⟩
        exact ⟨⟨⟨before, after, ⟨rfl, rfl⟩, rfl, rfl⟩, hbefore, hafter⟩, rfl⟩
      · rintro ⟨⟨⟨_, _, ⟨rfl, rfl⟩, rfl, rfl⟩, -⟩, rfl⟩
        exact ⟨rfl, rfl, rfl⟩

/-- Just one of two properties is a string, and this is it. -/
theorem isIdentified_iff {identifier : String} : IsIdentified node identifier ↔
    node.textProperty? "id" = some identifier ∧ node.textProperty? "name" = none ∨
      node.textProperty? "name" = some identifier ∧ node.textProperty? "id" = none := by
  simp only [textProperty?_eq_some_iff, textProperty?_eq_none_iff]
  constructor
  · rintro (⟨id, name⟩ | ⟨name, id⟩)
    · exact .inl ⟨id, name⟩
    · exact .inr ⟨name, id⟩
  · rintro (⟨id, name⟩ | ⟨name, id⟩)
    · exact .id id name
    · exact .name name id

theorem ofProperties_eq_ok_iff {subject : String} : ofProperties subject node = .ok entry ↔
    HasProperty node "type" entry.configType ∧ IsIdentified node entry.identifier ∧
      ∀ text, entry.project = some text ↔ HasProperty node "project" text := by
  obtain ⟨configType, identifier, project⟩ := entry
  have hproject : (∀ text, project = some text ↔ HasProperty node "project" text) ↔
      project = node.textProperty? "project" := by
    rw [Option.ext_iff]
    exact forall_congr' fun text => by rw [textProperty?_eq_some_iff]
  rw [hproject, isIdentified_iff, ← textProperty?_eq_some_iff, ofProperties]
  cases node.textProperty? "type" with
  | none => simp
  | some _ =>
    cases node.textProperty? "id" <;> cases node.textProperty? "name" <;> simp [eq_comm]

theorem entryOfNode_eq_ok_iff : entryOfNode index node = .ok entry ↔ Gives node entry := by
  rw [entryOfNode]
  by_cases hname : node.name = "delete"
  · rw [if_pos hname]
    cases hargument : node.textArgument? 0 with
    | none =>
      rw [textArgument?_eq_none_iff] at hargument
      rw [ofProperties_eq_ok_iff]
      constructor
      · rintro ⟨configType, identifier, project⟩
        exact .full hname hargument configType identifier project
      · rintro (⟨-, argument, -, -⟩ | ⟨-, -, configType, identifier, project⟩)
        · exact absurd argument (hargument _)
        · exact ⟨configType, identifier, project⟩
    | some text =>
      rw [textArgument?_eq_some_iff] at hargument
      rw [ofShortForm_eq_ok_iff]
      constructor
      · rintro ⟨form, project⟩
        exact .short hname hargument form project
      · rintro (⟨-, argument, form, project⟩ | ⟨-, argument, -, -, -⟩)
        · cases HasArgument.unique argument hargument
          exact ⟨form, project⟩
        · exact absurd hargument (argument _)
  · rw [if_neg hname]
    refine iff_of_false (by simp) ?_
    rintro (⟨name, -, -, -⟩ | ⟨name, -, -, -, -⟩)
    all_goals exact hname name

theorem Gives.unique {entry' : DeleteEntry} (h : Gives node entry) (h' : Gives node entry') :
    entry = entry' := by
  have hentry : entryOfNode 0 node = .ok entry := entryOfNode_eq_ok_iff.2 h
  exact Except.ok.inj (hentry.symm.trans (entryOfNode_eq_ok_iff.2 h'))

/-- The valid nodes are those that give an entry. -/
theorem exists_gives_iff : (∃ entry, Gives node entry) ↔ IsValid node := by
  constructor
  · rintro ⟨entry, h⟩
    cases h with
    | short name argument form project =>
      exact ⟨name, .inl ⟨_, argument, entry.configType, entry.identifier, form⟩⟩
    | full name argument configType identifier project =>
      exact ⟨name, .inr ⟨argument, ⟨entry.configType, configType⟩, entry.identifier, identifier⟩⟩
  · rintro ⟨name, ⟨text, argument, configType, identifier, form⟩ |
      ⟨argument, ⟨configType, htype⟩, identifier, hidentifier⟩⟩
    · exact ⟨⟨configType, identifier, none⟩, .short name argument form rfl⟩
    · exact ⟨⟨configType, identifier, node.textProperty? "project"⟩,
        .full name argument htype hidentifier fun text => textProperty?_eq_some_iff⟩

theorem Gives.isValid (h : Gives node entry) : IsValid node := exists_gives_iff.1 ⟨entry, h⟩

theorem isValid_iff (index : Nat) : IsValid node ↔ ∃ entry, entryOfNode index node = .ok entry := by
  simp only [← exists_gives_iff, entryOfNode_eq_ok_iff]

instance (node : Node) : Decidable (IsValid node) :=
  match h : entryOfNode 0 node with
  | .ok entry => isTrue ((isValid_iff 0).2 ⟨entry, h⟩)
  | .error problem => isFalse fun hvalid => by
    obtain ⟨entry, hentry⟩ := (isValid_iff 0).1 hvalid
    cases h.symm.trans hentry

/-- The short form displays as it is written. -/
theorem IsShort.display (h : IsShort text entry.configType entry.identifier)
    (project : entry.project = none) : entry.display = text := by
  rw [DeleteEntry.display, project, h.text]
  simp

/-- A problem with a node names the place of that node. -/
theorem concerns_of_entryOfNode (h : entryOfNode index node = .error problem) :
    Concerns index problem := by
  rw [entryOfNode] at h
  split at h
  · split at h
    · rw [ofShortForm] at h
      split at h
      · cases h; rfl
      · split at h <;> cases h; rfl
    · rw [ofProperties] at h
      split at h
      · cases h; exact .inl rfl
      · split at h <;> cases h
        · rfl
        · exact .inr rfl
  · cases h; rfl

/-! ### Entries of documents -/

/-- The nodes that are not valid, with their places. -/
def invalidNodes (index : Nat) (document : Document) : List (Node × Nat) :=
  (document.zipIdx index).filter fun place => ¬ IsValid place.1

theorem invalidNodes_eq_nil_iff (index : Nat) :
    invalidNodes index document = [] ↔ ∀ node ∈ document, IsValid node := by
  rw [invalidNodes, List.filter_eq_nil_iff]
  calc (∀ place ∈ document.zipIdx index, ¬decide (¬IsValid place.1) = true)
    _ ↔ ∀ place ∈ document.zipIdx index, IsValid place.1 := by simp
    _ ↔ ∀ node ∈ (document.zipIdx index).map (·.1), IsValid node := List.forall_mem_map.symm
    _ ↔ ∀ node ∈ document, IsValid node := by rw [List.zipIdx_map_fst]

section

variable (index : Nat) (rest : Document)

theorem collect_cons_of_isValid (h : IsValid node) :
    ∃ entry, Gives node entry ∧ collect index (node :: rest) =
      (entry :: (collect (index + 1) rest).1, (collect (index + 1) rest).2) := by
  obtain ⟨entry, hentry⟩ := (isValid_iff index).1 h
  exact ⟨entry, entryOfNode_eq_ok_iff.1 hentry, by rw [collect, hentry]⟩

theorem collect_cons_of_not_isValid (h : ¬ IsValid node) :
    ∃ problem, Concerns index problem ∧ collect index (node :: rest) =
      ((collect (index + 1) rest).1, problem :: (collect (index + 1) rest).2) := by
  cases hentry : entryOfNode index node with
  | ok entry => exact absurd ((isValid_iff index).2 ⟨entry, hentry⟩) h
  | error problem => exact ⟨problem, concerns_of_entryOfNode hentry, by rw [collect, hentry]⟩

/-- The valid nodes give the entries, in their order. -/
theorem forall₂_entries (document : Document) :
    List.Forall₂ Gives (document.filter (IsValid ·)) (collect index document).1 := by
  induction document generalizing index with
  | nil => exact .nil
  | cons node rest ih =>
    by_cases hvalid : IsValid node
    · obtain ⟨entry, hgives, hcollect⟩ := collect_cons_of_isValid index rest hvalid
      rw [hcollect, List.filter_cons_of_pos (by simpa using hvalid)]
      exact .cons hgives (ih (index + 1))
    · obtain ⟨_, -, hcollect⟩ := collect_cons_of_not_isValid index rest hvalid
      rw [hcollect, List.filter_cons_of_neg (by simpa using hvalid)]
      exact ih (index + 1)

/-- Each of the other nodes has its problem, in their order. -/
theorem forall₂_problems (document : Document) :
    List.Forall₂ (fun place problem => Concerns place.2 problem) (invalidNodes index document)
      (collect index document).2 := by
  induction document generalizing index with
  | nil => exact .nil
  | cons node rest ih =>
    rw [invalidNodes, List.zipIdx_cons]
    by_cases hvalid : IsValid node
    · obtain ⟨_, -, hcollect⟩ := collect_cons_of_isValid index rest hvalid
      rw [hcollect, List.filter_cons_of_neg (by simpa using hvalid)]
      exact ih (index + 1)
    · obtain ⟨_, hconcerns, hcollect⟩ := collect_cons_of_not_isValid index rest hvalid
      rw [hcollect, List.filter_cons_of_pos (by simpa using hvalid)]
      exact .cons hconcerns (ih (index + 1))

end

theorem problems_eq_nil_iff :
    (collect index document).2 = [] ↔ ∀ node ∈ document, IsValid node := by
  have hlength := (forall₂_problems index document).length_eq
  rw [← invalidNodes_eq_nil_iff index, ← List.length_eq_zero_iff,
    ← List.length_eq_zero_iff, hlength]

theorem ofDocument_of_ne_nil (h : document ≠ []) :
    ofDocument document = LoadError.check (collect 0 document).2 (collect 0 document).1 := by
  simp [ofDocument, h]

theorem isValid_of_forall₂ (h : List.Forall₂ Gives document entries) :
    ∀ node ∈ document, IsValid node := by
  have hboth := h.imp fun _ _ hgives => And.intro hgives.isValid hgives
  exact ((List.forall₂_and_left _ _).1 hboth).1

theorem forall₂_collect (h : ∀ node ∈ document, IsValid node) (index : Nat) :
    List.Forall₂ Gives document (collect index document).1 := by
  have hcollect := forall₂_entries index document
  rwa [List.filter_eq_self.2 (by simpa using h)] at hcollect

theorem ofDocument_eq_ok_iff :
    ofDocument document = .ok entries ↔ document ≠ [] ∧ List.Forall₂ Gives document entries := by
  by_cases hempty : document = []
  · subst hempty
    exact iff_of_false (by simp [ofDocument, collect, LoadError.check]) fun h => h.1 rfl
  rw [ofDocument_of_ne_nil hempty, LoadError.check_eq_ok_iff, problems_eq_nil_iff]
  constructor
  · rintro ⟨hvalid, rfl⟩
    exact ⟨hempty, forall₂_collect hvalid 0⟩
  · rintro ⟨-, hgives⟩
    have hvalid := isValid_of_forall₂ hgives
    have hunique : Relator.RightUnique Gives := fun _ _ _ => Gives.unique
    exact ⟨hvalid, hunique.forall₂ hgives (forall₂_collect hvalid 0)⟩

theorem ofDocument_eq_error (h : ∃ node ∈ document, ¬ IsValid node) :
    ∃ error, ofDocument document = .error error ∧
      List.Forall₂ (fun place problem => Concerns place.2 problem) (invalidNodes 0 document)
        error.problems := by
  obtain ⟨node, hnode, hinvalid⟩ := h
  have hne : (collect 0 document).2 ≠ [] := fun hnil =>
    hinvalid (problems_eq_nil_iff.1 hnil node hnode)
  obtain ⟨error, herror, hproblems⟩ := LoadError.exists_check_eq_error hne (collect 0 document).1
  rw [ofDocument_of_ne_nil (List.ne_nil_of_mem hnode)]
  exact ⟨error, herror, hproblems ▸ forall₂_problems 0 document⟩

/-- A document gives the entries of its nodes if there are nodes and all of them are valid, and one
problem for each node that is not valid otherwise. -/
theorem ofDocument_all_or_nothing (document : Document) :
    (∀ index node, (∃ entry, entryOfNode index node = .ok entry) ↔ IsValid node) ∧
    ((∃ entries, ofDocument document = .ok entries) ↔
      document ≠ [] ∧ ∀ node ∈ document, IsValid node) ∧
    (∀ entries, ofDocument document = .ok entries ↔
      document ≠ [] ∧ List.Forall₂ Gives document entries) ∧
    (∀ node entry text, Gives node entry → HasArgument node text →
      entry.display = text ∧ entry.project = none) ∧
    ((∃ node ∈ document, ¬ IsValid node) → ∃ error, ofDocument document = .error error ∧
      List.Forall₂ (fun place problem => Concerns place.2 problem) (invalidNodes 0 document)
        error.problems) := by
  refine ⟨fun index node => (isValid_iff index).symm, ?_, fun entries => ofDocument_eq_ok_iff, ?_,
    ofDocument_eq_error⟩
  · simp only [ofDocument_eq_ok_iff, exists_and_left]
    refine and_congr_right fun _ => ⟨fun ⟨_, hgives⟩ => isValid_of_forall₂ hgives, fun hvalid => ?_⟩
    exact ⟨_, forall₂_collect hvalid 0⟩
  · rintro node entry text (⟨-, argument, form, project⟩ | ⟨-, argument, -, -, -⟩) htext
    · cases argument.unique htext
      exact ⟨form.display project, project⟩
    · exact absurd htext (argument text)

/-! ### Two documents -/

namespace Retired

def tag : Node := ⟨"delete", [⟨none, .string "auto-tag/my/tag"⟩], none⟩

/-- The argument is no string, so that the properties count. -/
def profile : Node :=
  ⟨"delete", [⟨none, .null⟩, ⟨some "type", .string "builtin:alerting.profile"⟩,
    ⟨some "id", .string "p1"⟩, ⟨some "name", .bool true⟩, ⟨some "project", .string "infra"⟩], none⟩

def unnamed : Node := ⟨"delete", [⟨some "type", .string "slo"⟩], none⟩

def misnamed : Node := ⟨"remove", [⟨none, .string "slo/x"⟩], none⟩

theorem given_and_refused :
    List.Forall₂ Gives [tag, profile]
      [⟨"auto-tag", "my/tag", none⟩, ⟨"builtin:alerting.profile", "p1", some "infra"⟩] ∧
    ofDocument [tag, profile] =
      .ok [⟨"auto-tag", "my/tag", none⟩, ⟨"builtin:alerting.profile", "p1", some "infra"⟩] ∧
    (∃ node ∈ [unnamed, tag, misnamed], ¬ IsValid node) ∧
    ∃ first second, ofDocument [unnamed, tag, misnamed] = .error ⟨first, [second]⟩ ∧
      Concerns 0 first ∧ Concerns 2 second := by
  have hgives : List.Forall₂ Gives [tag, profile]
      [⟨"auto-tag", "my/tag", none⟩, ⟨"builtin:alerting.profile", "p1", some "infra"⟩] :=
    .cons (entryOfNode_eq_ok_iff.1 (by decide +kernel : entryOfNode 0 tag = _))
      (.cons (entryOfNode_eq_ok_iff.1 (by decide +kernel : entryOfNode 0 profile = _)) .nil)
  obtain ⟨_, _, hentries, _⟩ := ofDocument_all_or_nothing [tag, profile]
  have hok := (hentries _).2 ⟨by simp, hgives⟩
  have hunnamed : ¬ IsValid unnamed := by decide +kernel
  have hrefused : ∃ node ∈ [unnamed, tag, misnamed], ¬ IsValid node :=
    ⟨unnamed, List.mem_cons_self, hunnamed⟩
  have hinvalid : invalidNodes 0 [unnamed, tag, misnamed] = [(unnamed, 0), (misnamed, 2)] := by
    have htag : IsValid tag := by decide +kernel
    have hmisnamed : ¬ IsValid misnamed := by decide +kernel
    simp [invalidNodes, hunnamed, htag, hmisnamed]
  obtain ⟨_, _, _, _, herror⟩ := ofDocument_all_or_nothing [unnamed, tag, misnamed]
  obtain ⟨⟨first, rest⟩, hresult, hproblems⟩ := herror hrefused
  rw [hinvalid] at hproblems
  obtain ⟨hfirst, hproblems⟩ := List.forall₂_cons.1 hproblems
  refine ⟨hgives, hok, hrefused, ?_⟩
  cases hproblems with
  | cons hsecond hnil =>
    cases hnil
    exact ⟨_, _, hresult, hfirst, hsecond⟩

end Retired

/-! ### Empty texts -/

/-- The full form, of an empty type. -/
structure HasEmptyType (node : Node) : Prop where
  argument : ∀ text, ¬ HasArgument node text
  configType : HasProperty node "type" ""

/-- The full form, of an empty identifier. -/
structure HasEmptyIdentifier (node : Node) : Prop where
  argument : ∀ text, ¬ HasArgument node text
  identifier : IsIdentified node ""

theorem HasProperty.unique {name text' : String} (h : HasProperty node name text)
    (h' : HasProperty node name text') : text = text' := by
  simpa using h.symm.trans h'

theorem IsIdentified.unique {text' : String} (h : IsIdentified node text)
    (h' : IsIdentified node text') : text = text' := by
  cases h with
  | id id name =>
    cases h' with
    | id id' _ => exact id.unique id'
    | name name' _ => exact absurd name' (name _)
  | name name id =>
    cases h' with
    | id id' _ => exact absurd id' (id _)
    | name name' _ => exact name.unique name'

theorem Gives.configType_eq_empty_iff (h : Gives node entry) :
    entry.configType = "" ↔ HasEmptyType node := by
  cases h with
  | short _ argument form _ =>
    exact iff_of_false form.configType fun hempty => hempty.argument _ argument
  | full _ argument configType _ _ =>
    constructor
    · intro hempty
      exact ⟨argument, hempty ▸ configType⟩
    · intro hempty
      exact configType.unique hempty.configType

theorem Gives.identifier_eq_empty_iff (h : Gives node entry) :
    entry.identifier = "" ↔ HasEmptyIdentifier node := by
  cases h with
  | short _ argument form _ =>
    exact iff_of_false form.identifier fun hempty => hempty.argument _ argument
  | full _ argument _ identifier _ =>
    constructor
    · intro hempty
      exact ⟨argument, hempty ▸ identifier⟩
    · intro hempty
      exact identifier.unique hempty.identifier

theorem ofText_eq_ok_iff : ofText text = .ok entries ↔
    ∃ document, Document.parse? text = some document ∧ document ≠ [] ∧
      List.Forall₂ Gives document entries := by
  rw [ofText]
  cases Document.parse? text with
  | none => simp
  | some document => simp [ofDocument_eq_ok_iff]

/-- Only the full form lets empty types and identifiers through: the entries of a text have none if
and only if none of its nodes has an empty property for them. -/
theorem ofText_nonempty_iff (h : ofText text = .ok entries) :
    ∃ document, Document.parse? text = some document ∧
      List.Forall₂ (fun node entry => Gives node entry ∧
        (entry.configType = "" ↔ HasEmptyType node) ∧
        (entry.identifier = "" ↔ HasEmptyIdentifier node)) document entries ∧
      ((∀ entry ∈ entries, entry.configType ≠ "" ∧ entry.identifier ≠ "") ↔
        ∀ node ∈ document, ¬ HasEmptyType node ∧ ¬ HasEmptyIdentifier node) := by
  obtain ⟨document, hdocument, -, hgives⟩ := ofText_eq_ok_iff.1 h
  refine ⟨document, hdocument, hgives.imp fun _ _ hgives =>
    ⟨hgives, hgives.configType_eq_empty_iff, hgives.identifier_eq_empty_iff⟩, ?_⟩
  clear h hdocument
  induction hgives with
  | nil => simp
  | cons hgives _ ih =>
    rw [List.forall_mem_cons, List.forall_mem_cons, ih, ne_eq, ne_eq,
      hgives.configType_eq_empty_iff, hgives.identifier_eq_empty_iff]

namespace Nameless

/-- The short form of the second node, `auto-tag/`, would be refused. -/
def lines : String :=
  "delete \"slo/low\"
delete type=\"auto-tag\" name=\"\""

def given : List DeleteEntry := [⟨"slo", "low", none⟩, ⟨"auto-tag", "", none⟩]

theorem ofText_lines : ofText lines = .ok given := by decide +kernel

theorem second_has_empty_identifier : ofText lines = .ok given ∧
    ∃ first second, Document.parse? lines = some [first, second] ∧
      ¬ HasEmptyIdentifier first ∧ HasEmptyIdentifier second := by
  obtain ⟨document, hdocument, hgives, _⟩ := ofText_nonempty_iff ofText_lines
  refine ⟨ofText_lines, ?_⟩
  cases hgives with
  | cons hfirst hrest =>
    cases hrest with
    | cons hsecond hnil =>
      cases hnil
      obtain ⟨_, _, hfirst⟩ := hfirst
      obtain ⟨_, _, hsecond⟩ := hsecond
      exact ⟨_, _, hdocument, hfirst.not.1 (by decide), hsecond.1 rfl⟩

/-- Not every entry of a text has an identifier. -/
theorem not_all_nonempty : ¬ ∀ (text : String) (entries : List DeleteEntry),
    ofText text = .ok entries →
      ∀ entry ∈ entries, entry.configType ≠ "" ∧ entry.identifier ≠ "" := by
  intro hall
  have hnonempty := hall lines given ofText_lines ⟨"auto-tag", "", none⟩ (by decide)
  exact hnonempty.2 rfl

end Nameless

end Rollout.DeleteFile
