import Rollout.Proofs.Graph.Validity

/-! What is said of configs that are not in order. Every reference that cannot become an edge is
named once, by ascending referrers and targets, and a cycle comes behind them if there is one among
the edges, whatever else is wrong. Coordinates that are repeated are named first. Only the last
config of a coordinate is looked at: what is wrong with the others goes unsaid, but not that the
coordinate is repeated. -/

namespace Rollout

variable {configs : List Config} {c d : Coordinate}

/-- The error for a reference that is no edge, from the first coordinate to the second. -/
def GraphError.ofReference (r : Coordinate × Coordinate) : GraphError :=
  if r.2 = r.1 then .selfReference r.1 else .undefinedReference r.1 r.2

namespace GraphError

variable {r : Coordinate × Coordinate}

@[simp] theorem ofReference_eq_undefinedReference_iff :
    ofReference r = .undefinedReference c d ↔ r = (c, d) ∧ d ≠ c := by
  obtain ⟨c', d'⟩ := r
  unfold ofReference
  split
  · rename_i hself
    refine iff_of_false nofun fun ⟨heq, hne⟩ => hne ?_
    cases heq
    exact hself
  · rename_i hne
    simp only [undefinedReference.injEq, Prod.mk.injEq]
    refine ⟨fun heq => ⟨heq, ?_⟩, And.left⟩
    rwa [← heq.1, ← heq.2]

@[simp] theorem ofReference_eq_selfReference_iff :
    ofReference r = .selfReference c ↔ r = (c, c) := by
  obtain ⟨c', d'⟩ := r
  unfold ofReference
  split
  · rename_i hself
    obtain rfl : d' = c' := hself
    simp
  · rename_i hne
    refine iff_of_false nofun fun heq => hne ?_
    cases heq
    rfl

@[simp] theorem ofReference_ne_duplicateCoordinate : ofReference r ≠ .duplicateCoordinate c := by
  unfold ofReference
  split <;> nofun

end GraphError

/-- A config refers to itself, or to something that is not there. -/
structure IsBroken (configs : List Config) (c d : Coordinate) : Prop where
  refers : RefersTo configs c d
  broken : d = c ∨ d ∉ configs.map (·.coordinate)

/-- A config refers to another one. -/
structure Links (configs : List Config) (c d : Coordinate) : Prop where
  refers : RefersTo configs c d
  different : d ≠ c
  defined : d ∈ configs.map (·.coordinate)

/-- A chain that comes back to its beginning, in which every config is referred to by the next. -/
structure IsReferenceCycle (configs : List Config) (cycle : List Coordinate) : Prop where
  length : 3 ≤ cycle.length
  closed : cycle.head? = cycle.getLast?
  nodup : cycle.dropLast.Nodup
  linked : cycle.IsChain fun a b => RefersTo configs b a

/-- The coordinates that stand behind themselves, as often as they do. -/
def recurring (cs : List Coordinate) : List Coordinate :=
  (cs.zipIdx.filter fun p => p.1 ∈ cs.take p.2).map (·.1)

/-- The last config with a coordinate. -/
def lastConfig? (configs : List Config) (c : Coordinate) : Option Config :=
  configs.reverse.find? (·.coordinate = c)

/-- The last config with the first coordinate has a reference to the second. -/
def FinallyRefersTo (configs : List Config) (c d : Coordinate) : Prop :=
  RefersTo (lastConfig? configs c).toList c d

/-- What is reported of configs with different coordinates. -/
structure ReportsFaults (configs : List Config) (broken : List (Coordinate × Coordinate))
    (cycle? : Option (List Coordinate)) : Prop where
  mem_broken_iff : ∀ c d, (c, d) ∈ broken ↔ IsBroken configs c d
  broken_ascend : broken.Pairwise (DependencyGraph.edgeOrder · · = .lt)
  isSome_cycle_iff : cycle?.isSome ↔ ∃ c, Relation.TransGen (Links configs) c c
  isReferenceCycle : ∀ cycle ∈ cycle?, IsReferenceCycle configs cycle

/-! ### Repeated coordinates -/

private theorem repeatedCoordinates_go_eq (before cs : List Coordinate) {seen : List Coordinate}
    (hseen : ∀ c, c ∈ seen ↔ c ∈ before) :
    repeatedCoordinates.go seen cs =
      ((cs.zipIdx before.length).filter fun p => p.1 ∈ (before ++ cs).take p.2).map (·.1) := by
  induction cs generalizing before seen with
  | nil => rfl
  | cons c rest ih =>
    have hsplit : before ++ c :: rest = (before ++ [c]) ++ rest := by simp
    have hlater : ∀ {seen'}, (∀ d, d ∈ seen' ↔ d ∈ before ++ [c]) →
        repeatedCoordinates.go seen' rest = ((rest.zipIdx (before.length + 1)).filter fun p =>
          p.1 ∈ (before ++ c :: rest).take p.2).map (·.1) := by
      intro seen' h
      rw [ih (before ++ [c]) h, hsplit, List.length_append, List.length_singleton]
    rw [repeatedCoordinates.go, List.zipIdx_cons]
    by_cases hc : c ∈ seen
    · rw [if_pos hc, List.filter_cons_of_pos (by simpa using (hseen c).1 hc), List.map_cons,
        hlater fun d => ?_]
      rw [List.mem_append, List.mem_singleton, hseen]
      exact ⟨.inl, fun h => h.elim id fun heq => heq ▸ (hseen c).1 hc⟩
    · rw [if_neg hc, List.filter_cons_of_neg (by simpa using mt (hseen c).2 hc), hlater fun d => ?_]
      rw [List.mem_cons, List.mem_append, List.mem_singleton, hseen, or_comm]

theorem repeatedCoordinates_eq (configs : List Config) :
    repeatedCoordinates configs = recurring (configs.map (·.coordinate)) :=
  repeatedCoordinates_go_eq [] (configs.map Config.coordinate) fun _ => .rfl

theorem mem_recurring_iff {cs : List Coordinate} :
    c ∈ recurring cs ↔ ∃ before after, cs = before ++ c :: after ∧ c ∈ before := by
  simp only [recurring, List.mem_map, List.mem_filter, Prod.exists,
    List.mk_mem_zipIdx_iff_getElem?, decide_eq_true_eq]
  constructor
  · rintro ⟨_, i, ⟨hi, hbefore⟩, rfl⟩
    obtain ⟨hlt, rfl⟩ := List.getElem?_eq_some_iff.1 hi
    exact ⟨cs.take i, cs.drop (i + 1), by simp, hbefore⟩
  · rintro ⟨before, after, rfl, hbefore⟩
    exact ⟨c, before.length, ⟨by simp, by simpa using hbefore⟩, rfl⟩

/-! ### The last config of a coordinate -/

theorem lastConfig?_append (before after : List Config) (c : Coordinate) :
    lastConfig? (before ++ after) c = (lastConfig? after c).or (lastConfig? before c) := by
  rw [lastConfig?, List.reverse_append, List.find?_append]
  rfl

theorem lastConfig?_eq_none_iff :
    lastConfig? configs c = none ↔ c ∉ configs.map (·.coordinate) := by
  simp [lastConfig?]

theorem mem_of_lastConfig? {config : Config} (h : lastConfig? configs c = some config) :
    config ∈ configs ∧ config.coordinate = c :=
  ⟨List.mem_reverse.1 (List.mem_of_find?_eq_some h), by simpa using List.find?_some h⟩

theorem finallyRefersTo_iff : FinallyRefersTo configs c d ↔
    ∃ config, lastConfig? configs c = some config ∧ d ∈ config.targets := by
  rw [FinallyRefersTo, refersTo_iff]
  simp only [Option.mem_toList]
  constructor
  · rintro ⟨config, hlast, _, htarget⟩
    exact ⟨config, hlast, htarget⟩
  · rintro ⟨config, hlast, htarget⟩
    exact ⟨config, hlast, (mem_of_lastConfig? hlast).2, htarget⟩

theorem FinallyRefersTo.refersTo (h : FinallyRefersTo configs c d) : RefersTo configs c d := by
  obtain ⟨config, hlast, htarget⟩ := finallyRefersTo_iff.1 h
  obtain ⟨hmem, hc⟩ := mem_of_lastConfig? hlast
  exact refersTo_iff.2 ⟨config, hmem, hc, htarget⟩

/-- A config is the last one of its coordinate, or the coordinate is repeated. -/
theorem RefersTo.finallyRefersTo (h : RefersTo configs c d) :
    FinallyRefersTo configs c d ∨ c ∈ repeatedCoordinates configs := by
  obtain ⟨config, hmem, rfl, htarget⟩ := refersTo_iff.1 h
  obtain ⟨before, after, rfl⟩ := List.append_of_mem hmem
  by_cases hlater : config.coordinate ∈ after.map (·.coordinate)
  · obtain ⟨between, rest, hsplit⟩ := List.append_of_mem hlater
    right
    rw [repeatedCoordinates_eq, mem_recurring_iff]
    refine ⟨before.map (·.coordinate) ++ config.coordinate :: between, rest, ?_, by simp⟩
    simp [hsplit]
  · left
    refine finallyRefersTo_iff.2 ⟨config, ?_, htarget⟩
    rw [lastConfig?_append, ← List.singleton_append, lastConfig?_append,
      lastConfig?_eq_none_iff.2 hlater]
    simp [lastConfig?]

theorem finallyRefersTo_iff_of_nodup (hnodup : (configs.map (·.coordinate)).Nodup) :
    FinallyRefersTo configs c d ↔ RefersTo configs c d := by
  refine ⟨FinallyRefersTo.refersTo, fun h => h.finallyRefersTo.resolve_right ?_⟩
  rw [repeatedCoordinates_eq_nil_iff.2 hnodup]
  exact List.not_mem_nil

namespace DependencyGraph

theorem get?_byCoordinate_eq (configs : List Config) (c : Coordinate) :
    (byCoordinate configs).get? c = lastConfig? configs c := by
  rw [byCoordinate, SortedMap.get?_ofList, ← List.map_reverse, List.find?_map, Option.map_map]
  exact Option.map_id'

theorem contains_byCoordinate :
    (byCoordinate configs).contains d = true ↔ d ∈ configs.map (·.coordinate) := by
  rw [SortedMap.contains, get?_byCoordinate_eq, ← not_iff_not, Bool.not_eq_true,
    Option.isSome_eq_false_iff, Option.isNone_iff_eq_none, lastConfig?_eq_none_iff]

/-! ### References that are no edges -/

theorem referenceErrors_eq (defined : SortedMap Coordinate Config) (c : Coordinate)
    (config : Config) :
    referenceErrors defined c config =
      ((config.targets.filter fun d => d = c || !defined.contains d).map (c, ·)).map
        GraphError.ofReference := by
  unfold referenceErrors
  induction config.targets with
  | nil => rfl
  | cons d rest ih =>
    by_cases hself : d = c
    · simp [hself, ih, GraphError.ofReference]
    · cases hdefined : defined.contains d with
      | true => simp [hself, hdefined, ih]
      | false => simp [hself, hdefined, ih, GraphError.ofReference]

/-- The references that are no edges, by ascending referrers and targets. -/
def brokenReferences (defined : SortedMap Coordinate Config) : List (Coordinate × Coordinate) :=
  defined.entries.flatMap fun (c, config) =>
    (config.targets.filter fun d => d = c || !defined.contains d).map (c, ·)

theorem pairwise_brokenReferences (defined : SortedMap Coordinate Config) :
    (brokenReferences defined).Pairwise (edgeOrder · · = .lt) := by
  apply List.pairwise_flatMap.2
  constructor
  · rintro ⟨c, config⟩ _
    apply List.pairwise_map.2
    apply (config.pairwise_targets.sublist List.filter_sublist).imp
    intro a b hab
    simpa [edgeOrder] using hab
  · apply defined.ascending.imp
    intro p q hlt a ha b hb
    obtain ⟨_, _, rfl⟩ := List.mem_map.1 ha
    obtain ⟨_, _, rfl⟩ := List.mem_map.1 hb
    simp [edgeOrder, hlt]

theorem mem_brokenReferences_iff : (c, d) ∈ brokenReferences (byCoordinate configs) ↔
    FinallyRefersTo configs c d ∧ (d = c ∨ d ∉ configs.map (·.coordinate)) := by
  have hbroken : d = c ∨ d ∉ configs.map (·.coordinate) ↔
      (decide (d = c) || !(byCoordinate configs).contains d) = true := by
    rw [Bool.or_eq_true, decide_eq_true_iff, Bool.not_eq_true', ← Bool.not_eq_true,
      contains_byCoordinate]
  rw [hbroken, finallyRefersTo_iff]
  simp only [brokenReferences, List.mem_flatMap, List.mem_map, Prod.exists, Prod.mk.injEq,
    SortedMap.mem_entries_iff, get?_byCoordinate_eq]
  constructor
  · rintro ⟨_, config, hlast, _, hd, rfl, rfl⟩
    obtain ⟨htarget, hkept⟩ := List.mem_filter.1 hd
    exact ⟨⟨config, hlast, htarget⟩, hkept⟩
  · rintro ⟨⟨config, hlast, htarget⟩, hkept⟩
    exact ⟨c, config, hlast, d, List.mem_filter.2 ⟨htarget, hkept⟩, rfl, rfl⟩

/-! ### Cycles of the others -/

section

variable (hnodup : (configs.map (·.coordinate)).Nodup)

include hnodup

theorem mem_brokenReferences_iff_isBroken :
    (c, d) ∈ brokenReferences (byCoordinate configs) ↔ IsBroken configs c d := by
  rw [mem_brokenReferences_iff, finallyRefersTo_iff_of_nodup hnodup]
  exact ⟨fun ⟨hrefers, hbroken⟩ => ⟨hrefers, hbroken⟩, fun ⟨hrefers, hbroken⟩ => ⟨hrefers, hbroken⟩⟩

theorem dependsOn_ofConfigs_iff :
    (ofConfigs (byCoordinate configs)).DependsOn c d ↔ Links configs c d := by
  have hedge : ∀ config : Config, config.coordinate = c →
      (d ∈ config.targets.filter (fun target =>
        target ≠ config.coordinate && (byCoordinate configs).contains target) ↔
      d ∈ config.targets ∧ d ≠ c ∧ d ∈ configs.map (·.coordinate)) := by
    rintro config rfl
    rw [List.mem_filter, Bool.and_eq_true, decide_eq_true_iff, contains_byCoordinate]
  rw [DependsOn, mem_dependencies_iff]
  simp only [get?_ofConfigs, Option.map_eq_some_iff, get?_byCoordinate hnodup]
  constructor
  · rintro ⟨_, ⟨config, ⟨hconfig, hc⟩, rfl⟩, hd⟩
    obtain ⟨htarget, hdifferent, hdefined⟩ := (hedge config hc).1 hd
    exact ⟨refersTo_iff.2 ⟨config, hconfig, hc, htarget⟩, hdifferent, hdefined⟩
  · rintro ⟨hrefers, hdifferent, hdefined⟩
    obtain ⟨config, hconfig, hc, htarget⟩ := refersTo_iff.1 hrefers
    exact ⟨_, ⟨config, ⟨hconfig, hc⟩, rfl⟩, (hedge config hc).2 ⟨htarget, hdifferent, hdefined⟩⟩

theorem isSome_findCycle?_iff :
    (ofConfigs (byCoordinate configs)).findCycle?.isSome ↔
      ∃ c, Relation.TransGen (Links configs) c c := by
  have hlinks : (ofConfigs (byCoordinate configs)).DependsOn = Links configs := by
    funext c d
    exact propext (dependsOn_ofConfigs_iff hnodup)
  rw [← hlinks]
  constructor
  · intro hsome
    obtain ⟨cycle, hcycle⟩ := Option.isSome_iff_exists.1 hsome
    exact (isCycle_of_findCycle? hcycle).exists_transGen_self
  · rintro ⟨c, hc⟩
    by_contra hnone
    exact not_transGen_self (Option.not_isSome_iff_eq_none.1 hnone) c hc

theorem IsCycle.isReferenceCycle {cycle : List Coordinate}
    (h : (ofConfigs (byCoordinate configs)).IsCycle cycle) : IsReferenceCycle configs cycle := by
  have hlinked : cycle.IsChain fun a b => Links configs b a :=
    h.linked.imp fun a b hab => (dependsOn_ofConfigs_iff hnodup).1 (mem_dependents_iff.1 hab)
  obtain ⟨c, rest, rfl, hdistinct⟩ := h.closed
  refine ⟨?_, ?_, ?_, hlinked.imp fun _ _ hab => hab.refers⟩
  · -- No config precedes itself, so there is another one in between.
    cases rest with
    | nil => exact absurd rfl (List.isChain_pair.1 hlinked).different
    | cons _ _ => simp
  · rw [← List.cons_append, List.getLast?_concat]
    rfl
  · rwa [← List.cons_append, List.dropLast_concat]

end

/-! ### The whole list -/

/-- What building finds wrong with configs. -/
def reported (configs : List Config) : List GraphError :=
  match build configs with
  | .ok _ => []
  | .error errors => errors

theorem reported_eq (configs : List Config) :
    reported configs = (repeatedCoordinates configs).map .duplicateCoordinate ++
      ((brokenReferences (byCoordinate configs)).map .ofReference ++
        ((ofConfigs (byCoordinate configs)).findCycle?.map .cycle).toList) := by
  have hbroken : (byCoordinate configs).entries.flatMap (fun p =>
      referenceErrors (byCoordinate configs) p.1 p.2) =
      (brokenReferences (byCoordinate configs)).map .ofReference := by
    rw [brokenReferences, List.map_flatMap]
    exact List.flatMap_congr fun p _ => referenceErrors_eq _ p.1 p.2
  rw [← hbroken, ← List.append_assoc, reported]
  simp only [build]
  split
  · rename_i hok
    split at hok
    · rename_i hempty
      exact (List.isEmpty_iff.1 hempty).symm
    · cases hok
  · rename_i herror
    split at herror
    · cases herror
    · cases herror
      rfl

theorem reported_of_error {errors : List GraphError} (h : build configs = .error errors) :
    reported configs = errors := by rw [reported, h]

/-- The errors of configs that are not in order: the coordinates that stand behind themselves, in
the order in which they stand there; and where there are none, exactly the references that are no
edges, ascending, and behind them a cycle if and only if some config refers to itself through
others. -/
theorem build_reports {errors : List GraphError} (h : build configs = .error errors) :
    (∃ others, errors = (repeatedCoordinates configs).map .duplicateCoordinate ++ others ∧
      (∀ c, .duplicateCoordinate c ∉ others) ∧
      repeatedCoordinates configs = recurring (configs.map (·.coordinate))) ∧
    ((configs.map (·.coordinate)).Nodup → ∃ broken cycle?,
      errors = broken.map .ofReference ++ (cycle?.map .cycle).toList ∧
      ReportsFaults configs broken cycle?) := by
  have herrors := reported_eq configs
  rw [reported_of_error h] at herrors
  constructor
  · refine ⟨_, herrors, fun c hc => ?_, repeatedCoordinates_eq configs⟩
    rcases List.mem_append.1 hc with hc | hc
    · obtain ⟨r, _, heq⟩ := List.mem_map.1 hc
      exact GraphError.ofReference_ne_duplicateCoordinate heq
    · obtain ⟨_, _, heq⟩ := Option.map_eq_some_iff.1 (Option.mem_toList.1 hc)
      cases heq
  · intro hnodup
    rw [repeatedCoordinates_eq_nil_iff.2 hnodup, List.map_nil, List.nil_append] at herrors
    refine ⟨_, _, herrors, fun c d => mem_brokenReferences_iff_isBroken hnodup,
      pairwise_brokenReferences _, isSome_findCycle?_iff hnodup, fun cycle hcycle => ?_⟩
    exact (isCycle_of_findCycle? hcycle).isReferenceCycle hnodup

theorem undefinedReference_mem_reported_iff : .undefinedReference c d ∈ reported configs ↔
    FinallyRefersTo configs c d ∧ d ∉ configs.map (·.coordinate) := by
  have hmem : .undefinedReference c d ∈ reported configs ↔
      (c, d) ∈ brokenReferences (byCoordinate configs) ∧ d ≠ c := by
    simp [reported_eq]
  rw [hmem, mem_brokenReferences_iff, and_assoc]
  refine and_congr_right fun hrefers => ⟨fun ⟨hbroken, hne⟩ => hbroken.resolve_left hne, ?_⟩
  refine fun hundefined => ⟨.inr hundefined, ?_⟩
  rintro rfl
  obtain ⟨config, hconfig, hd, _⟩ := hrefers.refersTo
  exact hundefined (List.mem_map.2 ⟨config, hconfig, hd⟩)

theorem selfReference_mem_reported_iff :
    .selfReference c ∈ reported configs ↔ FinallyRefersTo configs c c := by
  have hmem : .selfReference c ∈ reported configs ↔
      (c, c) ∈ brokenReferences (byCoordinate configs) := by
    simp [reported_eq]
  rw [hmem, mem_brokenReferences_iff, and_iff_left (.inl rfl)]

/-- A reference that is no edge is reported just if the last config of its coordinate has it. Where
one goes unsaid, the coordinate is reported as repeated. -/
theorem reported_iff_last (configs : List Config) :
    (∀ c d, .undefinedReference c d ∈ reported configs ↔
      FinallyRefersTo configs c d ∧ d ∉ configs.map (·.coordinate)) ∧
    (∀ c, .selfReference c ∈ reported configs ↔ FinallyRefersTo configs c c) ∧
    ∀ c d, RefersTo configs c d → ¬ FinallyRefersTo configs c d →
      .duplicateCoordinate c ∈ reported configs := by
  refine ⟨fun _ _ => undefinedReference_mem_reported_iff, fun _ => selfReference_mem_reported_iff,
    fun c d hrefers hlast => ?_⟩
  rw [reported_eq]
  exact List.mem_append_left _ (List.mem_map_of_mem (hrefers.finallyRefersTo.resolve_left hlast))

end DependencyGraph

/-! ### Tags in a knot -/

namespace Knot

open Diamond (tag reference config)

/-- The first one refers to itself and, more than once, to one that is not there; the others refer
to each other. -/
def tags : List Config :=
  [config "right" [("next", reference "left" "id")],
    config "alone" [("more", .list [reference "gone" "id", reference "alone" "id"]),
      ("one", reference "gone" "label")],
    config "left" [("next", reference "right" "id"), ("top", reference "alone" "id")]]

def faults : List GraphError :=
  [.selfReference (tag "alone"), .undefinedReference (tag "alone") (tag "gone"),
    .cycle [tag "left", tag "right", tag "left"]]

theorem faults_reported : DependencyGraph.build tags = .error faults ∧
    (tags.map (·.coordinate)).Nodup ∧ ∃ broken cycle?,
      faults = broken.map .ofReference ++ (cycle?.map .cycle).toList ∧
      ReportsFaults tags broken cycle? := by
  have hbuild : DependencyGraph.build tags = .error faults := by rfl
  have hnodup : (tags.map (·.coordinate)).Nodup := by decide
  exact ⟨hbuild, hnodup, (DependencyGraph.build_reports hbuild).2 hnodup⟩

/-- Two configs with one coordinate, each of which refers to something that is not there. The first
one refers to itself, too. -/
def twins : List Config :=
  [config "left" [("next", reference "gone" "id"), ("self", reference "left" "id")],
    config "left" [("next", reference "lost" "id")]]

theorem reported_twins : DependencyGraph.reported twins = [.duplicateCoordinate (tag "left"),
    .undefinedReference (tag "left") (tag "lost")] := rfl

theorem refersTo_gone : RefersTo twins (tag "left") (tag "gone") :=
  refersTo_iff.2 ⟨_, List.mem_cons_self, rfl, by decide⟩

theorem gone_hidden : RefersTo twins (tag "left") (tag "gone") ∧
    ¬ FinallyRefersTo twins (tag "left") (tag "gone") ∧
    .duplicateCoordinate (tag "left") ∈ DependencyGraph.reported twins := by
  obtain ⟨hundefined, _, hrepeated⟩ := DependencyGraph.reported_iff_last twins
  have hhidden : ¬ FinallyRefersTo twins (tag "left") (tag "gone") := by
    intro hlast
    have hreported := (hundefined _ _).2 ⟨hlast, by decide⟩
    simp [reported_twins, tag] at hreported
  exact ⟨refersTo_gone, hhidden, hrepeated _ _ refersTo_gone hhidden⟩

/-- Not every reference that is no edge is reported. -/
theorem not_all_reported : ¬ ∀ configs : List Config,
    (∀ c d, RefersTo configs c d → d ∉ configs.map (·.coordinate) →
      .undefinedReference c d ∈ DependencyGraph.reported configs) ∧
    ∀ c, RefersTo configs c c → .selfReference c ∈ DependencyGraph.reported configs := by
  intro hall
  have hreported := (hall twins).1 _ _ refersTo_gone (by decide)
  simp [reported_twins, tag] at hreported

end Knot

end Rollout
