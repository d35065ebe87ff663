import Rollout.Proofs.Graph.Faults
import Rollout.Proofs.Manifest.Coordinates

/-! Coordinates that are declared more than once. Every declaration behind the first one shows in
every environment, and the coordinate is named once for all of them. Where nothing else is wrong
with a document nothing else is said (`ofDocument_of_repeated`). -/

namespace Rollout

/-- What recurs is there twice at least. -/
theorem mem_recurring_iff_two_le_count {cs : List Coordinate} {c : Coordinate} :
    c ∈ recurring cs ↔ 2 ≤ cs.count c := by
  rw [mem_recurring_iff, ← List.duplicate_iff_two_le_count, List.duplicate_iff_sublist,
    List.cons_sublist_iff]
  constructor
  · rintro ⟨before, after, rfl, hbefore⟩
    exact ⟨before, c :: after, rfl, hbefore, by simp⟩
  · rintro ⟨before, rest, rfl, hbefore, hrest⟩
    obtain ⟨between, after, rfl⟩ := List.append_of_mem (List.singleton_sublist.1 hrest)
    exact ⟨before ++ between, after, by simp, by simp [hbefore]⟩

theorem mem_repeatedCoordinates_iff {configs : List Config} {c : Coordinate} :
    c ∈ repeatedCoordinates configs ↔ 2 ≤ (configs.map (·.coordinate)).count c := by
  rw [repeatedCoordinates_eq, mem_recurring_iff_two_le_count]

namespace Manifest

section

variable {document : Kdl.Document}

theorem IsSound.isPlain (h : IsSound document) {s : Site} (hs : s ∈ sites document) :
    s.coordinate.IsPlain := by
  obtain ⟨project, hproject, hs⟩ := List.mem_flatMap.1 hs
  obtain ⟨id, hid, hseparator⟩ := (h.projects.configs project hproject s hs).id
  obtain ⟨node, _, rfl⟩ := List.mem_map.1 hs
  refine ⟨h.projects.separators project hproject, ?_⟩
  rwa [Site.coordinate, textAt_eq hid]

theorem Outline.problems_of_isComplete {o : Outline} (hsome : o.environments ≠ [])
    (hcomplete : o.IsComplete) :
    o.problems = o.repeated.map fun c => .duplicate c.display := by
  have hdeclarations : (o.projects.flatMap fun project =>
      project.2.flatMap (·.problems o.environments)) = [] := by
    simpa only [List.flatMap_eq_nil_iff, IsComplete] using hcomplete
  rw [problems, hdeclarations, if_neg (by simpa using hsome)]
  rfl

theorem Outlines.count_configsFor (h : Outlines document)
    (hread : (outlineOf document).problems = [])
    (hcomplete : (outlineOf document).value.IsComplete)
    {environment : String} (henvironment : environment ∈ environmentNames document)
    (c : Coordinate) :
    (((outlineOf document).value.manifest.configsFor environment).map (·.coordinate)).count c =
      ((sites document).map (·.coordinate)).count c := by
  rw [map_coordinate_eq (h.materializes hread hcomplete henvironment)]
  exact ((perm_groupedSites document).map _).count_eq c

/-- All environments show the same repetitions, so it takes one of them to know which there are. -/
theorem IsSound.mem_repeated_iff (h : IsSound document) {c : Coordinate} :
    c ∈ (outlineOf document).value.repeated ↔
      2 ≤ ((sites document).map (·.coordinate)).count c := by
  obtain ⟨hread, hsome, hcomplete⟩ := isSound_iff.1 h
  have houtlines := outlineOf_outlines document
  obtain ⟨first, hfirst⟩ := List.exists_mem_of_ne_nil _ hsome
  have hshows : ∀ environment ∈ (outlineOf document).value.environments,
      (c ∈ repeatedCoordinates ((outlineOf document).value.manifest.configsFor environment) ↔
        2 ≤ ((sites document).map (·.coordinate)).count c) := by
    intro environment henvironment
    rw [houtlines.environments hread] at henvironment
    rw [mem_repeatedCoordinates_iff, houtlines.count_configsFor hread hcomplete henvironment]
  rw [Outline.repeated, mem_ascending, List.mem_flatMap]
  constructor
  · rintro ⟨environment, henvironment, hc⟩
    exact (hshows environment henvironment).1 hc
  · intro hc
    exact ⟨first, hfirst, (hshows first hfirst).2 hc⟩

theorem IsSound.problems_eq (h : IsSound document) : (outlineOf document).value.problems =
    (outlineOf document).value.repeated.map fun c => .duplicate c.display := by
  obtain ⟨_, hsome, hcomplete⟩ := isSound_iff.1 h
  exact Outline.problems_of_isComplete hsome hcomplete

/-- Plain coordinates are displayed apart, so no two problems are the same. -/
theorem IsSound.nodup_problems (h : IsSound document) :
    (outlineOf document).value.problems.Nodup := by
  have hplain : ∀ c ∈ (outlineOf document).value.repeated, c.IsPlain := by
    intro c hc
    have hcount := h.mem_repeated_iff.1 hc
    obtain ⟨s, hs, rfl⟩ := List.mem_map.1 (List.count_pos_iff.1 (Nat.zero_lt_of_lt hcount))
    exact h.isPlain hs
  rw [h.problems_eq]
  refine (nodup_of_pairwise_lt (pairwise_ascending _)).map_on fun c hc d hd heq => ?_
  exact (hplain c hc).eq_of_display_eq (hplain d hd) (LoadProblem.duplicate.inj heq)

theorem IsSound.problems_ne_nil (h : IsSound document)
    (hrepeated : ¬ ((sites document).map (·.coordinate)).Nodup) :
    (outlineOf document).value.problems ≠ [] := by
  obtain ⟨c, hc⟩ := List.exists_duplicate_iff_not_nodup.2 hrepeated
  have hc := h.mem_repeated_iff.2 (List.duplicate_iff_two_le_count.1 hc)
  rw [h.problems_eq, ne_eq, List.map_eq_nil_iff]
  exact List.ne_nil_of_mem hc

/-- A sound document with repeated coordinates is refused for these alone. Each of them is named
once, however often it is declared, and they ascend. -/
theorem ofDocument_of_repeated (h : IsSound document)
    (hrepeated : ¬ ((sites document).map (·.coordinate)).Nodup) :
    ∃ (error : LoadError) (repeated : List Coordinate), ofDocument document = .error error ∧
      error.problems = repeated.map (fun c => .duplicate c.display) ∧
      repeated.Pairwise (compare · · = .lt) ∧
      (∀ c, c ∈ repeated ↔ 2 ≤ ((sites document).map (·.coordinate)).count c) ∧
      error.problems.Nodup ∧
      ∀ text, Kdl.Document.parse? text = some document → ofText text = .error error := by
  obtain ⟨hread, _⟩ := isSound_iff.1 h
  obtain ⟨error, herror, hproblems⟩ := LoadError.exists_check_eq_error
    (h.problems_ne_nil hrepeated) (outlineOf document).value.manifest
  have hrefused : ofDocument document = .error error := by
    rw [ofDocument, hread, List.nil_append, herror]
  refine ⟨error, _, hrefused, hproblems.trans h.problems_eq, pairwise_ascending _,
    fun _ => h.mem_repeated_iff, hproblems ▸ h.nodup_problems, ?_⟩
  intro text htext
  rw [ofText, htext]
  exact hrefused

end

/-! ### Three declarations of one config and two of another -/

namespace Crowded

open Owner (node)

def tag : Coordinate := ⟨"web", "auto-tag", "owner"⟩

def goal : Coordinate := ⟨"web", "slo", "latency"⟩

def lone : Coordinate := ⟨"web", "slo", "errors"⟩

def config (c : Coordinate) (overrides : List Kdl.Node) : Kdl.Node :=
  node "config" [c.configType, c.configId] (some (node "template" ["text"] none :: overrides))

def document : Kdl.Document := [
  node "environment" ["dev"] none,
  node "environment" ["prod"] none,
  node "project" ["web"] (some [
    config goal [],
    config tag [],
    config lone [],
    config tag [node "override" ["prod"] (some [node "skip" [] none])],
    config goal [],
    config tag []])]

theorem both_named_once : IsSound document ∧
    ¬ ((sites document).map (·.coordinate)).Nodup ∧
    ∃ error, ofDocument document = .error error ∧
      error.problems = [.duplicate "web:auto-tag:owner", .duplicate "web:slo:latency"] := by
  have hcomplete : (outlineOf document).value.IsComplete := by
    unfold Outline.IsComplete
    decide +kernel
  have hsound : IsSound document :=
    isSound_iff.2 ⟨by decide +kernel, by decide +kernel, hcomplete⟩
  have hsites : (sites document).map (·.coordinate) = [goal, tag, lone, tag, goal, tag] := by
    decide +kernel
  have hrepeated : ¬ ((sites document).map (·.coordinate)).Nodup := by
    rw [hsites]
    decide
  obtain ⟨error, repeated, herror, hproblems, hascending, hmem, _⟩ :=
    ofDocument_of_repeated hsound hrepeated
  have hothers : ∀ c ∈ [goal, tag, lone, tag, goal, tag],
      2 ≤ [goal, tag, lone, tag, goal, tag].count c → c ∈ [tag, goal] := by decide +kernel
  have hnamed : repeated = [tag, goal] := by
    refine eq_of_pairwise_lt hascending (by decide +kernel) fun c => ?_
    rw [hmem, hsites]
    constructor
    · intro hc
      exact hothers c (List.count_pos_iff.1 (Nat.lt_of_lt_of_le Nat.two_pos hc)) hc
    · revert c
      decide +kernel
  refine ⟨hsound, hrepeated, error, herror, ?_⟩
  rw [hproblems, hnamed]
  decide +kernel

end Crowded

end Manifest

end Rollout
