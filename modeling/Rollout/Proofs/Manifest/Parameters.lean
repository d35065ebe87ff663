import Rollout.Manifest.ParameterNode

/-! The grammar of parameter nodes, and that it is what the reader of parameters accepts. The name
of the field, which the reader is told for its messages, makes no difference to what it accepts. -/

namespace Rollout

/-- The JSON value of a literal. Integers have to fit 64 bits with their sign, other numbers have to
be finite. -/
inductive Kdl.Scalar.IsLiteral : Kdl.Scalar → Json → Prop
  | string (s : String) : IsLiteral (.string s) (.string s)
  | bool (b : Bool) : IsLiteral (.bool b) (.bool b)
  | integer {i : Int} (least : -9223372036854775808 ≤ i) (greatest : i ≤ 9223372036854775807) :
    IsLiteral (.integer i) (.ofInt i)
  | double (x : FiniteDouble) : IsLiteral (.double (.finite x)) (.number (.double x))
  | null : IsLiteral .null .null

namespace Manifest

mutual

/-- A node gives a parameter. A literal is its argument at the given place. -/
inductive Gives : Nat → Kdl.Node → Parameter → Prop
  | reference {i : Nat} {node : Kdl.Node} {target : String} {c : Coordinate}
    (ref : node.textProperty? "ref" = some target) (parse : Coordinate.parse? target = some c) :
    Gives i node (.reference ⟨c, (node.textProperty? "property").getD Reference.idProperty⟩)
  | environment {i : Nat} {node : Kdl.Node} {name : String}
    (ref : node.textProperty? "ref" = none) (env : node.textProperty? "env" = some name) :
    Gives i node (.environment name (node.textProperty? "default"))
  | format {i : Nat} {node : Kdl.Node} {text : String} {parts : List (String × Parameter)}
    (ref : node.textProperty? "ref" = none) (env : node.textProperty? "env" = none)
    (format : node.textProperty? "format" = some text) (given : GivesParts node.children parts) :
    Gives i node (.compound text (Assoc.ofList parts))
  | list {i : Nat} {node : Kdl.Node} {children : List Kdl.Node} {items : List Parameter}
    (ref : node.textProperty? "ref" = none) (env : node.textProperty? "env" = none)
    (format : node.textProperty? "format" = none) (block : node.block = some children)
    (given : GivesItems children items) : Gives i node (.list items)
  | literal {i : Nat} {node : Kdl.Node} {argument : Kdl.Scalar} {value : Json}
    (ref : node.textProperty? "ref" = none) (env : node.textProperty? "env" = none)
    (format : node.textProperty? "format" = none) (block : node.block = none)
    (fallback : node.hasProperty "default" = false) (given : node.arguments[i]? = some argument)
    (literal : argument.IsLiteral value) : Gives i node (.literal value)

/-- Nodes give the parts of a format, which have different names. -/
inductive GivesParts : List Kdl.Node → List (String × Parameter) → Prop
  | nil : GivesParts [] []
  | cons {node : Kdl.Node} {nodes : List Kdl.Node} {name : String} {part : Parameter}
    {parts : List (String × Parameter)} (kind : node.name = "part")
    (named : node.textArgument? 0 = some name) (given : Gives 1 node part)
    (new : name ∉ parts.map (·.1)) (rest : GivesParts nodes parts) :
    GivesParts (node :: nodes) ((name, part) :: parts)

/-- Nodes give the items of a list. -/
inductive GivesItems : List Kdl.Node → List Parameter → Prop
  | nil : GivesItems [] []
  | cons {node : Kdl.Node} {nodes : List Kdl.Node} {item : Parameter} {items : List Parameter}
    (kind : node.name = "item") (given : Gives 0 node item) (rest : GivesItems nodes items) :
    GivesItems (node :: nodes) (item :: items)

end

theorem bind_eq_ok {ε α β : Type} {x : Except ε α} {f : α → Except ε β} {b : β} :
    (x >>= f) = .ok b ↔ ∃ a, x = .ok a ∧ f a = .ok b := by
  cases x <;> simp [bind, Except.bind]

theorem map_eq_ok {ε α β : Type} {x : Except ε α} {f : α → β} {b : β} :
    x.map f = .ok b ↔ ∃ a, x = .ok a ∧ b = f a := by
  cases x <;> simp [Except.map, eq_comm]

theorem requiredText_eq_ok {node : Kdl.Node} {index : Nat} {what text : String} :
    requiredText node index what = .ok text ↔ node.textArgument? index = some text := by
  unfold requiredText
  cases node.textArgument? index <;> simp

theorem literal_eq_ok {field : String} {argument : Kdl.Scalar} {value : Json} :
    literal field argument = .ok value ↔ argument.IsLiteral value := by
  constructor
  · intro h
    cases argument with
    | string s =>
      cases h
      exact .string s
    | integer i =>
      rw [literal] at h
      split at h
      · rename_i hrange
        cases h
        rw [Int64.toInt_minValue, Int64.toInt_maxValue] at hrange
        exact .integer (by omega) (by omega)
      · cases h
    | double x =>
      cases x with
      | finite x =>
        cases h
        exact .double x
      | infinite _ => cases h
      | nan => cases h
    | bool b =>
      cases h
      exact .bool b
    | null =>
      cases h
      exact .null
  · intro h
    cases h with
    | integer least greatest =>
      rw [literal, Int64.toInt_minValue, Int64.toInt_maxValue]
      exact if_pos ⟨by omega, by omega⟩
    | string _ | bool _ | double _ | null => rfl

/-! ### Inversion -/

section

variable {i : Nat} {node : Kdl.Node} {p : Parameter}

theorem gives_iff_of_ref {target : String} (ref : node.textProperty? "ref" = some target) :
    Gives i node p ↔ ∃ c, Coordinate.parse? target = some c ∧
      p = .reference ⟨c, (node.textProperty? "property").getD Reference.idProperty⟩ := by
  constructor
  · intro h
    cases h with
    | reference ref' parse =>
      cases ref.symm.trans ref'
      exact ⟨_, parse, rfl⟩
    | environment ref' | format ref' | list ref' | literal ref' => cases ref.symm.trans ref'
  · rintro ⟨_, parse, rfl⟩
    exact .reference ref parse

variable (ref : node.textProperty? "ref" = none)

include ref

theorem gives_iff_of_env {name : String} (env : node.textProperty? "env" = some name) :
    Gives i node p ↔ p = .environment name (node.textProperty? "default") := by
  constructor
  · intro h
    cases h with
    | reference ref' => cases ref.symm.trans ref'
    | environment _ env' =>
      cases env.symm.trans env'
      rfl
    | format _ env' | list _ env' | literal _ env' => cases env.symm.trans env'
  · rintro rfl
    exact .environment ref env

variable (env : node.textProperty? "env" = none)

include env

theorem gives_iff_of_format {text : String} (format : node.textProperty? "format" = some text) :
    Gives i node p ↔
      ∃ parts, GivesParts node.children parts ∧ p = .compound text (Assoc.ofList parts) := by
  constructor
  · intro h
    cases h with
    | reference ref' => cases ref.symm.trans ref'
    | environment _ env' => cases env.symm.trans env'
    | format _ _ format' given =>
      cases format.symm.trans format'
      exact ⟨_, given, rfl⟩
    | list _ _ format' | literal _ _ format' => cases format.symm.trans format'
  · rintro ⟨_, given, rfl⟩
    exact .format ref env format given

variable (format : node.textProperty? "format" = none)

include format

theorem gives_iff_of_block {children : List Kdl.Node} (block : node.block = some children) :
    Gives i node p ↔ ∃ items, GivesItems children items ∧ p = .list items := by
  constructor
  · intro h
    cases h with
    | reference ref' => cases ref.symm.trans ref'
    | environment _ env' => cases env.symm.trans env'
    | format _ _ format' => cases format.symm.trans format'
    | list _ _ _ block' given =>
      cases block.symm.trans block'
      exact ⟨_, given, rfl⟩
    | literal _ _ _ block' => cases block.symm.trans block'
  · rintro ⟨_, given, rfl⟩
    exact .list ref env format block given

theorem gives_iff_of_leaf (block : node.block = none) :
    Gives i node p ↔ node.hasProperty "default" = false ∧
      ∃ argument value, node.arguments[i]? = some argument ∧ argument.IsLiteral value ∧
        p = .literal value := by
  constructor
  · intro h
    cases h with
    | reference ref' => cases ref.symm.trans ref'
    | environment _ env' => cases env.symm.trans env'
    | format _ _ format' => cases format.symm.trans format'
    | list _ _ _ block' => cases block.symm.trans block'
    | literal _ _ _ _ fallback given literal => exact ⟨fallback, _, _, given, literal, rfl⟩
  · rintro ⟨fallback, _, _, given, literal, rfl⟩
    exact .literal ref env format block fallback given literal

end

/-! ### The reader -/

theorem leafParameter_eq_ok {field : String} {i : Nat} {node : Kdl.Node} {p : Parameter} :
    leafParameter field i node = .ok p ↔ node.hasProperty "default" = false ∧
      ∃ argument value, node.arguments[i]? = some argument ∧ argument.IsLiteral value ∧
        p = .literal value := by
  unfold leafParameter
  cases node.hasProperty "default" with
  | true => simp
  | false =>
    cases node.arguments[i]? with
    | none => simp
    | some argument =>
      simp only [Bool.false_eq_true, if_false, map_eq_ok, literal_eq_ok, true_and,
        Option.some.injEq, exists_and_left, exists_eq_left']

theorem referenceParameter_eq_ok {field target : String} {node : Kdl.Node} {p : Parameter} :
    referenceParameter field node target = .ok p ↔ ∃ c, Coordinate.parse? target = some c ∧
      p = .reference ⟨c, (node.textProperty? "property").getD Reference.idProperty⟩ := by
  unfold referenceParameter
  cases Coordinate.parse? target with
  | none => simp
  | some c => simp only [Except.ok.injEq, Option.some.injEq, exists_eq_left', eq_comm]

theorem givesParts_cons_iff {node : Kdl.Node} {rest : List Kdl.Node}
    {parts : List (String × Parameter)} :
    GivesParts (node :: rest) parts ↔ node.name = "part" ∧ ∃ name part others,
      node.textArgument? 0 = some name ∧ Gives 1 node part ∧ GivesParts rest others ∧
        name ∉ others.map (·.1) ∧ parts = (name, part) :: others := by
  constructor
  · intro h
    cases h with
    | cons kind named given new rest => exact ⟨kind, _, _, _, named, given, rest, new, rfl⟩
  · rintro ⟨kind, _, _, _, named, given, rest, new, rfl⟩
    exact .cons kind named given new rest

theorem givesItems_cons_iff {node : Kdl.Node} {rest : List Kdl.Node} {items : List Parameter} :
    GivesItems (node :: rest) items ↔ node.name = "item" ∧ ∃ item others,
      Gives 0 node item ∧ GivesItems rest others ∧ items = item :: others := by
  constructor
  · intro h
    cases h with
    | cons kind given rest => exact ⟨kind, _, _, given, rest, rfl⟩
  · rintro ⟨kind, _, _, given, rest, rfl⟩
    exact .cons kind given rest

theorem parameterOfNode_run (field : String) (i : Nat) (node : Kdl.Node) :
    parameterOfNode field i node = match formOf node, node.block with
      | .reference target, _ => referenceParameter field node target
      | .environment name, _ => .ok (.environment name (node.textProperty? "default"))
      | .format text, _ => (partsOfNodes field [] node.children).map (Parameter.compound text)
      | .plain, some children => (itemsOfNodes field 0 children).map Parameter.list
      | .plain, none => leafParameter field i node := by
  obtain ⟨name, entries, block⟩ := node
  unfold parameterOfNode
  have hform : formOf ⟨name, entries, none⟩ = formOf ⟨name, entries, block⟩ := rfl
  dsimp only
  rw [hform]
  cases formOf ⟨name, entries, block⟩ <;> cases block <;> rfl

theorem parameterOfNode_of_ref {node : Kdl.Node} {target : String}
    (ref : node.textProperty? "ref" = some target) (field : String) (i : Nat) :
    parameterOfNode field i node = referenceParameter field node target := by
  have hform : formOf node = .reference target := by
    unfold formOf
    rw [ref]
  rw [parameterOfNode_run, hform]

theorem unknown_insert_iff {name : String} {part : Parameter}
    {known others : List (String × Parameter)} :
    (∀ other ∈ others, Assoc.get? other.1 (Assoc.insert name part known) = none) ↔
      name ∉ others.map (·.1) ∧ ∀ other ∈ others, Assoc.get? other.1 known = none := by
  have hone : ∀ other : String × Parameter,
      Assoc.get? other.1 (Assoc.insert name part known) = none ↔
        other.1 ≠ name ∧ Assoc.get? other.1 known = none := by
    intro other
    rw [Assoc.get?_insert]
    by_cases h : other.1 = name <;> simp [h]
  simp only [hone, List.mem_map, not_exists, not_and]
  exact ⟨fun h => ⟨fun other ho => (h other ho).1, fun other ho => (h other ho).2⟩,
    fun h other ho => ⟨h.1 other ho, h.2 other ho⟩⟩

mutual

theorem parameterOfNode_eq_ok (field : String) (i : Nat) {p : Parameter} :
    ∀ node : Kdl.Node, parameterOfNode field i node = .ok p ↔ Gives i node p
  | ⟨name, entries, block⟩ => by
    have hparts : ∀ {parts}, partsOfNodes field [] (block.getD []) = .ok parts ↔
        ∃ new, GivesParts (block.getD []) new ∧ parts = Assoc.ofList new := by
      intro parts
      refine Iff.trans (b := ∃ new, GivesParts (block.getD []) new ∧
        (∀ part ∈ new, Assoc.get? part.1 ([] : List (String × Parameter)) = none) ∧
          parts = Assoc.ofList new) ?_ (by simp)
      cases block with
      | none => exact partsOfNodes_eq_ok field []
      | some children => exact partsOfNodes_eq_ok field children
    rw [parameterOfNode_run]
    unfold formOf
    cases ref : Kdl.Node.textProperty? ⟨name, entries, block⟩ "ref" with
    | some target => exact referenceParameter_eq_ok.trans (gives_iff_of_ref ref).symm
    | none =>
      cases env : Kdl.Node.textProperty? ⟨name, entries, block⟩ "env" with
      | some source =>
        rw [gives_iff_of_env ref env]
        exact ⟨fun h => (Except.ok.inj h).symm, fun h => h ▸ rfl⟩
      | none =>
        cases format : Kdl.Node.textProperty? ⟨name, entries, block⟩ "format" with
        | some text =>
          rw [gives_iff_of_format ref env format]
          dsimp only
          rw [map_eq_ok]
          simp only [Kdl.Node.children, hparts]
          constructor
          · rintro ⟨_, ⟨new, given, rfl⟩, rfl⟩
            exact ⟨new, given, rfl⟩
          · rintro ⟨new, given, rfl⟩
            exact ⟨_, ⟨new, given, rfl⟩, rfl⟩
        | none =>
          cases block with
          | some children =>
            rw [gives_iff_of_block ref env format rfl]
            dsimp only
            simp only [map_eq_ok, itemsOfNodes_eq_ok field 0 children]
          | none => exact leafParameter_eq_ok.trans (gives_iff_of_leaf ref env format rfl).symm

theorem partsOfNodes_eq_ok (field : String) {known parts : List (String × Parameter)} :
    ∀ nodes : List Kdl.Node, partsOfNodes field known nodes = .ok parts ↔
      ∃ new, GivesParts nodes new ∧ (∀ part ∈ new, Assoc.get? part.1 known = none) ∧
        parts = new.foldl (fun parts part => Assoc.insert part.1 part.2 parts) known
  | [] => by
    rw [partsOfNodes]
    constructor
    · intro h
      cases h
      exact ⟨[], .nil, List.forall_mem_nil _, rfl⟩
    · rintro ⟨_, ⟨⟩, _, rfl⟩
      rfl
  | node :: rest => by
    rw [partsOfNodes]
    simp only [givesParts_cons_iff]
    split
    · rename_i kind
      simp only [bind_eq_ok, requiredText_eq_ok]
      constructor
      · rintro ⟨name, named, part, given, h⟩
        split at h
        · cases h
        · rename_i hnew
          obtain ⟨others, hothers, hunknown, rfl⟩ := (partsOfNodes_eq_ok field rest).1 h
          obtain ⟨hdistinct, hrest⟩ := unknown_insert_iff.1 hunknown
          have hfirst : Assoc.get? name known = none := by simpa using hnew
          exact ⟨(name, part) :: others, ⟨kind, name, part, others, named,
            (parameterOfNode_eq_ok _ 1 node).1 given, hothers, hdistinct, rfl⟩,
            List.forall_mem_cons.2 ⟨hfirst, hrest⟩, rfl⟩
      · rintro ⟨_, ⟨_, name, part, others, named, given, hothers, hdistinct, rfl⟩, hunknown, rfl⟩
        obtain ⟨hfirst, hrest⟩ := List.forall_mem_cons.1 hunknown
        refine ⟨name, named, part, (parameterOfNode_eq_ok _ 1 node).2 given, ?_⟩
        rw [if_neg (by simp [hfirst])]
        exact (partsOfNodes_eq_ok field rest).2
          ⟨others, hothers, unknown_insert_iff.2 ⟨hdistinct, hrest⟩, rfl⟩
    · rename_i kind
      exact iff_of_false nofun fun ⟨_, ⟨h, _⟩, _⟩ => kind h

theorem itemsOfNodes_eq_ok (field : String) (index : Nat) {items : List Parameter} :
    ∀ nodes : List Kdl.Node, itemsOfNodes field index nodes = .ok items ↔ GivesItems nodes items
  | [] => by
    rw [itemsOfNodes]
    constructor
    · intro h
      cases h
      exact .nil
    · rintro ⟨⟩
      rfl
  | node :: rest => by
    rw [itemsOfNodes, givesItems_cons_iff]
    split
    · rename_i kind
      simp only [bind_eq_ok, parameterOfNode_eq_ok _ 0 node, itemsOfNodes_eq_ok field _ rest]
      constructor
      · rintro ⟨item, given, others, hothers, h⟩
        cases h
        exact ⟨kind, item, others, given, hothers, rfl⟩
      · rintro ⟨_, item, others, given, hothers, rfl⟩
        exact ⟨item, given, others, hothers, rfl⟩
    · rename_i kind
      exact iff_of_false nofun fun h => kind h.1

end

end Manifest

end Rollout
