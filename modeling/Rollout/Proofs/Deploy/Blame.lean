import Rollout.Proofs.Deploy.Outcomes

/-! Who is to blame. A config that is not tried because of a dependency names this dependency, and
from one to the next the names lead to a config that failed. So a run without failures is a success,
and the three counts of a report add up. -/

namespace Rollout

variable {σ : Type} {P : Platform σ} {vars : Variables} {g : DependencyGraph}
  {configs : List Config} {states : SortedMap Coordinate ConfigState} {config : Config}

/-! ### Following the names -/

/-- The names that the report gives lead from one config to another one, which failed. -/
inductive DeployReport.TracesTo (r : DeployReport) : Coordinate → Coordinate → Prop
  | failed {c : Coordinate} {e : DeployError} (state : r.states.get? c = some (.failed e)) :
    TracesTo r c c
  | skipped {c d root : Coordinate}
    (state : r.states.get? c = some (.skipped (.dependencyFailed d))) (rest : TracesTo r d root) :
    TracesTo r c root

namespace DeployReport.TracesTo

variable {r : DeployReport} {c root : Coordinate}

theorem exists_failed (h : r.TracesTo c root) :
    ∃ e, r.states.get? root = some (.failed e) := by
  induction h with
  | failed state => exact ⟨_, state⟩
  | skipped _ _ ih => exact ih

theorem unique (h : r.TracesTo c root) {other : Coordinate} (hother : r.TracesTo c other) :
    other = root := by
  induction h with
  | failed state =>
    cases hother with
    | failed => rfl
    | skipped state' => cases state.symm.trans state'
  | skipped state _ ih =>
    cases hother with
    | failed state' => cases state.symm.trans state'
    | skipped state' rest =>
      cases state.symm.trans state'
      exact ih rest

end DeployReport.TracesTo

/-- The dependency that is named is neither deployed nor left out on purpose. -/
theorem blocks_of_settledState? {flag : Bool} {d : Coordinate}
    (h : settledState? g flag states config = some (.skipped (.dependencyFailed d))) :
    d ∈ g.dependencies config.coordinate ∧ isSatisfied states d = false ∧
      isLeftOut states d = false := by
  unfold settledState? blockedState? at h
  split at h
  · cases h
  · split at h
    · cases h
    · split at h
      · rename_i hfind
        cases h
        exact ⟨List.mem_of_find?_eq_some hfind, by simpa using List.find?_some hfind⟩
      · obtain ⟨_, _, heq⟩ := Option.map_eq_some_iff.1 h
        cases heq

namespace Completed

variable {report : DeployReport} {context : Context} {attempts : List (Attempt σ)} {s : σ}
  (h : Completed P vars g configs report context attempts s) (H : g.IsGraphOf configs)

include h H

/-- What is named is a dependency, and it is itself lost. -/
theorem lost_of_skipped {c d : Coordinate}
    (hstate : report.states.get? c = some (.skipped (.dependencyFailed d))) :
    d ∈ g.dependencies c ∧
      ∃ state, report.states.get? d = some state ∧ state.isLost = true := by
  obtain ⟨config, hconfig, rfl⟩ := h.exists_config H hstate
  cases h.decided config hconfig with
  | settled _ decision reported =>
    cases hstate.symm.trans reported
    obtain ⟨hd, hunsatisfied, hwanted⟩ := blocks_of_settledState? decision
    obtain ⟨other, hother, rfl⟩ := H.mem_coordinates_iff.1 (H.closed _ hd)
    obtain ⟨state, hstate⟩ := (h.decided other hother).exists_state
    have hterminal := h.isTerminal H state (SortedMap.mem_values_iff.2 ⟨_, hstate⟩)
    refine ⟨hd, state, hstate, (ConfigState.isLost_iff hterminal).2 ?_⟩
    dsimp only at hstate hunsatisfied hwanted
    simpa [isSatisfied, isLeftOut, hstate] using And.intro hunsatisfied hwanted
  | tried _ _ _ _ _ reported =>
    have heq := Option.some.inj (reported.symm.trans hstate)
    exact absurd heq (ConfigState.ofResult_ne_skipped _ _)

/-- Along the dependencies the names come to an end. -/
theorem exists_tracesTo {c : Coordinate} {state : ConfigState}
    (hstate : report.states.get? c = some state) (hlost : state.isLost = true) :
    ∃ root, report.TracesTo c root := by
  induction c using H.wellFounded.induction generalizing state with
  | _ c ih =>
    cases state with
    | pending | resolving | deployed _ => cases hlost
    | failed e => exact ⟨c, .failed hstate⟩
    | skipped reason =>
      cases reason with
      | explicit => cases hlost
      | dependencyFailed d =>
        obtain ⟨hd, state, hnext, hlost⟩ := h.lost_of_skipped H hstate
        obtain ⟨root, hroot⟩ := ih d hd hnext hlost
        exact ⟨root, .skipped hstate hroot⟩

end Completed

/-! ### Counting -/

theorem DeployReport.mem_failures_iff {r : DeployReport} {c : Coordinate} {e : DeployError} :
    (c, e) ∈ r.failures ↔ r.states.get? c = some (.failed e) := by
  rw [failures, List.mem_filterMap, ← SortedMap.mem_entries_iff]
  constructor
  · rintro ⟨⟨_, state⟩, hmem, heq⟩
    cases state with
    | failed _ =>
      cases heq
      exact hmem
    | _ => cases heq
  · intro hmem
    exact ⟨_, hmem, rfl⟩

theorem DeployReport.length_failures (r : DeployReport) :
    r.failures.length = r.states.values.countP fun state => state.error?.isSome := by
  rw [failures, List.length_filterMap_eq_countP, SortedMap.values, List.countP_map]
  apply List.countP_congr
  simp

/-- Whatever has come to an end is counted once. -/
theorem ConfigState.countP_of_isTerminal {states : List ConfigState}
    (h : ∀ state ∈ states, state.isTerminal = true) :
    states.countP isDeployed + states.countP (fun state => state.error?.isSome) +
      states.countP isSkipped = states.length := by
  induction states with
  | nil => rfl
  | cons state rest ih =>
    obtain ⟨hterminal, hrest⟩ := List.forall_mem_cons.1 h
    have hsum := ih hrest
    have hone : (if state.isDeployed then 1 else 0) + (if state.error?.isSome then 1 else 0) +
        (if state.isSkipped then 1 else 0) = 1 := by
      cases state with
      | pending | resolving => cases hterminal
      | _ => rfl
    simp only [List.countP_cons, List.length_cons]
    omega

/-- A report is a success if and only if no state is lost. -/
theorem DeployReport.isSuccess_iff {r : DeployReport}
    (h : ∀ state ∈ r.states.values, state.isTerminal = true) :
    r.isSuccess = true ↔ ∀ state ∈ r.states.values, state.isLost = false := by
  rw [isSuccess, List.all_eq_true]
  refine forall₂_congr fun state hmem => ?_
  have hterminal := h state hmem
  cases state with
  | pending | resolving => cases hterminal
  | deployed _ | failed _ => simp [ConfigState.isSuccess, ConfigState.isLost]
  | skipped reason => cases reason <;> simp [ConfigState.isSuccess, ConfigState.isLost]

/-- However the platform behaves and whenever the run is stopped: a config that is not tried because
of a dependency names one of its dependencies, and the names lead from it to just one config, which
failed. So a run succeeds if and only if there are no failures, and everything is counted once. -/
theorem deployEnvironment_rootCauses (hbuild : DependencyGraph.build configs = .ok g)
    (P : Platform σ) (vars : Variables) (environment : String) (s : σ) :
    ∃ report, (deployEnvironment P vars environment configs s).1 = .ok report ∧
      (∀ c d, report.states.get? c = some (.skipped (.dependencyFailed d)) →
        d ∈ g.dependencies c ∧ ∃ root e, report.states.get? root = some (.failed e) ∧
          report.TracesTo c root ∧ ∀ other, report.TracesTo c other → other = root) ∧
      (report.isSuccess = true ↔ report.failures = []) ∧
      report.deployedCount + report.failures.length + report.skippedCount = configs.length := by
  have H := DependencyGraph.isGraphOf_of_build hbuild
  obtain ⟨report, context, hreport, hcompleted⟩ :=
    deployEnvironment_completed P vars hbuild environment s
  have hterminal := hcompleted.isTerminal H
  refine ⟨report, hreport, ?_, ?_, ?_⟩
  · intro c d hstate
    obtain ⟨root, hroot⟩ := hcompleted.exists_tracesTo H hstate rfl
    obtain ⟨e, hfailed⟩ := hroot.exists_failed
    exact ⟨(hcompleted.lost_of_skipped H hstate).1, root, e, hfailed, hroot,
      fun _ hother => hroot.unique hother⟩
  · rw [DeployReport.isSuccess_iff hterminal, List.eq_nil_iff_forall_not_mem]
    constructor
    · rintro hkept ⟨c, e⟩ hmem
      have hfailed := DeployReport.mem_failures_iff.1 hmem
      cases hkept _ (SortedMap.mem_values_iff.2 ⟨c, hfailed⟩)
    · intro hnone state hmem
      by_contra hlost
      obtain ⟨c, hstate⟩ := SortedMap.mem_values_iff.1 hmem
      obtain ⟨root, hroot⟩ := hcompleted.exists_tracesTo H hstate (by simpa using hlost)
      obtain ⟨e, hfailed⟩ := hroot.exists_failed
      exact hnone (root, e) (DeployReport.mem_failures_iff.2 hfailed)
  · have hcount := ConfigState.countP_of_isTerminal hterminal
    have hvalues : report.states.values.length = report.states.keys.length := by
      simp [SortedMap.values, SortedMap.keys]
    have hkeys := H.coordinates_perm.length_eq
    rw [← hcompleted.keys, List.length_map] at hkeys
    rw [DeployReport.deployedCount, DeployReport.skippedCount, DeployReport.length_failures, hcount,
      hvalues, hkeys]

/-! ### A store that refuses the config on which all others depend -/

namespace Diamond

def refusing : Platform Store := Store.platform ⟨["root"], fun n => "object-" ++ toString n⟩

def refusedRun : EnvironmentResult × Store :=
  deployEnvironment refusing (fun _ => none) "dev" Diamond.configs .empty

theorem rootCauses_after_refusal :
    ∃ report, refusedRun.1 = .ok report ∧
      report.states.get? (tag "top") = some (.skipped (.dependencyFailed (tag "left"))) ∧
      report.TracesTo (tag "top") (tag "root") ∧ (report.isSuccess = true ↔ report.failures = []) ∧
      report.deployedCount + report.failures.length + report.skippedCount = 4 := by
  have hstates : refusedRun.1.toOption.map (fun report =>
      (report.states.get? (tag "top"), report.states.get? (tag "left"),
        report.states.get? (tag "root"))) =
      some (some (.skipped (.dependencyFailed (tag "left"))),
        some (.skipped (.dependencyFailed (tag "root"))),
        some (.failed (.remote (.invalidInput "object 'root' was rejected by the platform")))) := by
    decide +kernel
  obtain ⟨report, hreport, hcauses, hsuccess, hcount⟩ :=
    deployEnvironment_rootCauses build_configs refusing (fun _ => none) "dev" .empty
  rw [refusedRun, hreport] at hstates
  obtain ⟨htop, hrest⟩ := Prod.mk.inj (Option.some.inj hstates)
  obtain ⟨hleft, hroot⟩ := Prod.mk.inj hrest
  obtain ⟨_, root, _, _, htraces, honly⟩ := hcauses _ _ htop
  obtain rfl : tag "root" = root := honly _ (.skipped htop (.skipped hleft (.failed hroot)))
  exact ⟨report, hreport, htop, htraces, hsuccess, hcount⟩

end Diamond

end Rollout
