import Rollout.Platform.Memory
import Rollout.Proofs.Deploy.Account
import Rollout.Proofs.Graph.Levels

/-! The outcome of every config of a run that is not stopped: it follows from the outcomes of the
dependencies, unless all of these are deployed. -/

namespace Rollout

variable {σ : Type} {P : Platform σ} {vars : Variables} {g : DependencyGraph}
  {configs : List Config} {states : SortedMap Coordinate ConfigState} {config : Config}

/-- Failed, or not tried because of a failure. -/
def ConfigState.isLost : ConfigState → Bool
  | .failed _ => true
  | .skipped (.dependencyFailed _) => true
  | _ => false

/-- The least one with a property. -/
structure LeastIn (cs : List Coordinate) (q : Coordinate → Prop) (c : Coordinate) : Prop where
  mem : c ∈ cs
  holds : q c
  least : ∀ d ∈ cs, q d → (compare c d).isLE

theorem leastIn_of_find? {cs : List Coordinate} (hasc : cs.Pairwise (compare · · = .lt))
    {f : Coordinate → Bool} {q : Coordinate → Prop} (hq : ∀ c ∈ cs, f c = true ↔ q c)
    {c : Coordinate} (h : cs.find? f = some c) : LeastIn cs q c := by
  obtain ⟨hc, before, after, rfl, hbefore⟩ := List.find?_eq_some_iff_append.1 h
  have hmem : c ∈ before ++ c :: after := List.mem_append_right _ List.mem_cons_self
  refine ⟨hmem, (hq c hmem).1 hc, ?_⟩
  intro d hd hqd
  have hfd := (hq d hd).2 hqd
  rcases List.mem_append.1 hd with hd | hd
  · have := hbefore d hd
    simp [hfd] at this
  · rcases List.mem_cons.1 hd with rfl | hd
    · simp
    · have hlater := (List.pairwise_append.1 hasc).2.1
      exact Ordering.isLE_of_eq_lt ((List.pairwise_cons.1 hlater).1 d hd)

/-! ### Outcomes -/

/-- What a config comes to, by what its dependencies come to. -/
structure Outcome (g : DependencyGraph) (states : SortedMap Coordinate ConfigState)
    (config : Config) : Prop where
  explicit : states.get? config.coordinate = some (.skipped .explicit) ↔ config.skip = true
  lost : config.skip = false →
    (∃ d ∈ g.dependencies config.coordinate, (states.get? d).any ConfigState.isLost) →
    ∃ d, LeastIn (g.dependencies config.coordinate)
      (fun d => (states.get? d).any ConfigState.isLost) d ∧
      states.get? config.coordinate = some (.skipped (.dependencyFailed d))
  leftOut : config.skip = false →
    (∀ d ∈ g.dependencies config.coordinate, ¬ (states.get? d).any ConfigState.isLost) →
    (∃ d ∈ g.dependencies config.coordinate, states.get? d = some (.skipped .explicit)) →
    ∃ d, LeastIn (g.dependencies config.coordinate)
      (fun d => states.get? d = some (.skipped .explicit)) d ∧
      states.get? config.coordinate = some (.failed (.dependsOnSkipped d))
  free : config.skip = false →
    (∀ d ∈ g.dependencies config.coordinate, ¬ (states.get? d).any ConfigState.isLost) →
    (∀ d ∈ g.dependencies config.coordinate, states.get? d ≠ some (.skipped .explicit)) →
    (∀ d ∈ g.dependencies config.coordinate, ∃ id, states.get? d = some (.deployed id)) ∧
    ((∃ id, states.get? config.coordinate = some (.deployed id)) ∨
      ∃ e, states.get? config.coordinate = some (.failed e) ∧ e.isOwn = true)

/-- A config is settled by the states of its dependencies, or comes to something of its own. -/
def Follows (g : DependencyGraph) (states : SortedMap Coordinate ConfigState) (config : Config)
    (state : ConfigState) : Prop :=
  settledState? g false states config = some state ∨
    settledState? g false states config = none ∧
      ((∃ id, state = .deployed id) ∨ ∃ e, state = .failed e ∧ e.isOwn = true)

theorem Follows.isTerminal {state : ConfigState} (h : Follows g states config state) :
    state.isTerminal := by
  rcases h with h | ⟨_, ⟨_, rfl⟩ | ⟨_, rfl, _⟩⟩
  · exact (ended_of_settledState? h).1
  · rfl
  · rfl

theorem Decided.exists_follows {p : Progress} {attempts : List (Attempt σ)} {s : σ}
    (h : Decided P vars g p attempts s config) (hflag : P.isCancelled s = false) :
    ∃ state, p.states.get? config.coordinate = some state ∧ Follows g p.states config state := by
  cases h with
  | @settled flag state seen decision state _ _ =>
    cases flag with
    | true => cases hflag.symm.trans (seen rfl)
    | false => exact ⟨_, state, .inl decision⟩
  | @tried a decision _ _ ran _ state _ cancelled =>
    refine ⟨_, state, .inr ⟨decision, ?_⟩⟩
    cases hr : a.result with
    | ok entity => exact .inl ⟨_, rfl⟩
    | error e =>
      refine .inr ⟨e, rfl, ?_⟩
      rcases ran.of_error hr with ⟨_, hset⟩ | hprepare | hdelivery
      · cases hflag.symm.trans (cancelled hset)
      · exact DeployError.isOwn_of_isOfPreparation (prepare_error hprepare)
      · exact DeployError.isOwn_of_isOfDelivery hdelivery

/-! ### What the dependencies decide -/

theorem ConfigState.isLost_iff {state : ConfigState} (h : state.isTerminal) :
    state.isLost = true ↔ state.isDeployed = false ∧ state ≠ .skipped .explicit := by
  cases state with
  | pending | resolving => cases h
  | deployed _ | failed _ => simp [isLost, isDeployed]
  | skipped reason => cases reason <;> simp [isLost, isDeployed]

/-- All of the dependencies have come to an end. -/
def Ended (states : SortedMap Coordinate ConfigState) (dependencies : List Coordinate) : Prop :=
  ∀ d ∈ dependencies, ∃ state, states.get? d = some state ∧ state.isTerminal = true

namespace Ended

variable {dependencies : List Coordinate} (h : Ended states dependencies)

include h

private theorem lost_iff : ∀ d ∈ dependencies,
    (!(isSatisfied states d || isLeftOut states d)) = true ↔
      (states.get? d).any ConfigState.isLost = true := by
  intro d hd
  obtain ⟨state, hstate, hterminal⟩ := h d hd
  simp [isSatisfied, isLeftOut, hstate, ConfigState.isLost_iff hterminal]

theorem blockedState?_of_lost (hasc : dependencies.Pairwise (compare · · = .lt))
    (hlost : ∃ d ∈ dependencies, (states.get? d).any ConfigState.isLost) :
    ∃ d, LeastIn dependencies (fun d => (states.get? d).any ConfigState.isLost) d ∧
      blockedState? dependencies states = some (.skipped (.dependencyFailed d)) := by
  unfold blockedState?
  cases hfind : dependencies.find? fun d => !(isSatisfied states d || isLeftOut states d) with
  | some d => exact ⟨d, leastIn_of_find? hasc h.lost_iff hfind, rfl⟩
  | none =>
    obtain ⟨d, hd, hlost⟩ := hlost
    exact absurd ((h.lost_iff d hd).2 hlost) (List.find?_eq_none.1 hfind d hd)

private theorem find?_of_not_lost
    (hlost : ∀ d ∈ dependencies, ¬ (states.get? d).any ConfigState.isLost) :
    dependencies.find? (fun d => !(isSatisfied states d || isLeftOut states d)) = none :=
  List.find?_eq_none.2 fun d hd hfound => hlost d hd ((h.lost_iff d hd).1 hfound)

theorem blockedState?_of_leftOut (hasc : dependencies.Pairwise (compare · · = .lt))
    (hlost : ∀ d ∈ dependencies, ¬ (states.get? d).any ConfigState.isLost)
    (hleftOut : ∃ d ∈ dependencies, states.get? d = some (.skipped .explicit)) :
    ∃ d, LeastIn dependencies (fun d => states.get? d = some (.skipped .explicit)) d ∧
      blockedState? dependencies states = some (.failed (.dependsOnSkipped d)) := by
  rw [blockedState?, h.find?_of_not_lost hlost]
  cases hfind : dependencies.find? (isLeftOut states) with
  | some d =>
    exact ⟨d, leastIn_of_find? hasc (fun _ _ => decide_eq_true_iff) hfind, rfl⟩
  | none =>
    obtain ⟨d, hd, hleftOut⟩ := hleftOut
    exact absurd (decide_eq_true hleftOut) (List.find?_eq_none.1 hfind d hd)

theorem deployed (hlost : ∀ d ∈ dependencies, ¬ (states.get? d).any ConfigState.isLost)
    (hleftOut : ∀ d ∈ dependencies, states.get? d ≠ some (.skipped .explicit)) :
    ∀ d ∈ dependencies, ∃ id, states.get? d = some (.deployed id) := by
  intro d hd
  obtain ⟨state, hstate, hterminal⟩ := h d hd
  have hkept : state.isLost = false := by simpa [hstate] using hlost d hd
  have hwanted : state ≠ .skipped .explicit := fun heq => hleftOut d hd (heq ▸ hstate)
  cases state with
  | deployed id => exact ⟨id, hstate⟩
  | pending | resolving => cases hterminal
  | failed _ => cases hkept
  | skipped reason =>
    cases reason with
    | explicit => exact absurd rfl hwanted
    | dependencyFailed _ => cases hkept

end Ended

theorem Follows.outcome {state : ConfigState} (h : Follows g states config state)
    (hstate : states.get? config.coordinate = some state)
    (hasc : (g.dependencies config.coordinate).Pairwise (compare · · = .lt))
    (hended : Ended states (g.dependencies config.coordinate)) : Outcome g states config := by
  have hblocked : config.skip = false → ∀ {other},
      blockedState? (g.dependencies config.coordinate) states = some other →
      states.get? config.coordinate = some other := by
    intro hskip other hother
    rw [← settledState?_of_not_skip hskip] at hother
    rcases h with h | ⟨h, _⟩
    · rw [hstate, ← h, hother]
    · cases h.symm.trans hother
  refine ⟨?_, ?_, ?_, ?_⟩
  · rw [hstate, Option.some_inj]
    constructor
    · rintro rfl
      rcases h with h | ⟨_, ⟨_, h⟩ | ⟨_, h, _⟩⟩
      · exact settledState?_explicit_iff.1 h
      · cases h
      · cases h
    · intro hskip
      have hexplicit : settledState? g false states config = some (.skipped .explicit) :=
        settledState?_explicit_iff.2 hskip
      rcases h with h | ⟨h, _⟩
      · exact Option.some.inj (h.symm.trans hexplicit)
      · cases h.symm.trans hexplicit
  · intro hskip hlost
    obtain ⟨d, hleast, hd⟩ := hended.blockedState?_of_lost hasc hlost
    exact ⟨d, hleast, hblocked hskip hd⟩
  · intro hskip hlost hleftOut
    obtain ⟨d, hleast, hd⟩ := hended.blockedState?_of_leftOut hasc hlost hleftOut
    exact ⟨d, hleast, hblocked hskip hd⟩
  · intro hskip hlost hleftOut
    have hdeployed := hended.deployed hlost hleftOut
    refine ⟨hdeployed, ?_⟩
    rcases h with h | ⟨_, ⟨id, rfl⟩ | ⟨e, rfl, hown⟩⟩
    · rw [settledState?_of_not_skip hskip, blockedState?_eq_none_iff.2 hdeployed] at h
      cases h
    · exact .inl ⟨id, hstate⟩
    · exact .inr ⟨e, hstate, hown⟩

/-- What is deployed had its dependencies deployed. -/
theorem Outcome.dependencies_deployed (h : Outcome g states config) {id : String}
    (hstate : states.get? config.coordinate = some (.deployed id)) :
    ∀ d ∈ g.dependencies config.coordinate, ∃ id, states.get? d = some (.deployed id) := by
  have hskip : config.skip = false := by
    by_contra hskip
    cases hstate.symm.trans (h.explicit.2 (by simpa using hskip))
  have hlost : ∀ d ∈ g.dependencies config.coordinate,
      ¬ (states.get? d).any ConfigState.isLost := by
    intro d hd hlost
    obtain ⟨_, _, hskipped⟩ := h.lost hskip ⟨d, hd, hlost⟩
    cases hstate.symm.trans hskipped
  have hleftOut : ∀ d ∈ g.dependencies config.coordinate,
      states.get? d ≠ some (.skipped .explicit) := by
    intro d hd hleftOut
    obtain ⟨_, _, hfailed⟩ := h.leftOut hskip hlost ⟨d, hd, hleftOut⟩
    cases hstate.symm.trans hfailed
  exact (h.free hskip hlost hleftOut).1

/-- A run that is not stopped reports the outcome of every config. -/
theorem deployEnvironment_outcomes (hbuild : DependencyGraph.build configs = .ok g)
    (environment : String) (s : σ)
    (hflag : P.isCancelled (deployEnvironment P vars environment configs s).2 = false) :
    ∃ report, (deployEnvironment P vars environment configs s).1 = .ok report ∧
      report.states.keys.Perm (configs.map (·.coordinate)) ∧
      (∀ state ∈ report.states.values, state.isTerminal = true) ∧
      (∀ config ∈ configs, Outcome g report.states config) ∧
      ∀ {c d id}, report.states.get? c = some (.deployed id) →
        Relation.TransGen g.DependsOn c d → ∃ id, report.states.get? d = some (.deployed id) := by
  have H := DependencyGraph.isGraphOf_of_build hbuild
  obtain ⟨report, context, hreport, hcompleted⟩ :=
    deployEnvironment_completed P vars hbuild environment s
  have hfollows : ∀ config ∈ configs, ∃ state,
      report.states.get? config.coordinate = some state ∧ Follows g report.states config state :=
    fun config hconfig => (hcompleted.decided config hconfig).exists_follows hflag
  have hdefined : ∀ {c state}, report.states.get? c = some state →
      ∃ config ∈ configs, config.coordinate = c := fun {c} _ hstate =>
    H.mem_coordinates_iff.1 (hcompleted.keys ▸ SortedMap.mem_keys_iff.2 ⟨_, hstate⟩)
  have hended : ∀ c, Ended report.states (g.dependencies c) := by
    intro c d hd
    obtain ⟨config, hconfig, rfl⟩ := H.mem_coordinates_iff.1 (H.closed c hd)
    obtain ⟨state, hstate, hstateFollows⟩ := hfollows config hconfig
    exact ⟨state, hstate, hstateFollows.isTerminal⟩
  have houtcome : ∀ config ∈ configs, Outcome g report.states config := by
    intro config hconfig
    obtain ⟨state, hstate, hstateFollows⟩ := hfollows config hconfig
    exact hstateFollows.outcome hstate (H.pairwise_dependencies _) (hended _)
  refine ⟨report, hreport, hcompleted.keys ▸ H.coordinates_perm, ?_, houtcome, ?_⟩
  · intro state hmem
    obtain ⟨c, hstate⟩ := SortedMap.mem_values_iff.1 hmem
    obtain ⟨config, hconfig, rfl⟩ := hdefined hstate
    obtain ⟨other, hother, hstateFollows⟩ := hfollows config hconfig
    cases hother.symm.trans hstate
    exact hstateFollows.isTerminal
  · intro c d id hc hd
    -- One dependency after another along the path.
    induction hd with
    | single hd =>
      obtain ⟨config, hconfig, rfl⟩ := hdefined hc
      exact (houtcome config hconfig).dependencies_deployed hc _ hd
    | tail _ hd ih =>
      obtain ⟨_, hb⟩ := ih
      obtain ⟨config, hconfig, rfl⟩ := hdefined hb
      exact (houtcome config hconfig).dependencies_deployed hb _ hd

/-! ### A store that refuses the name of one of four configs -/

namespace Diamond

def strict : Platform Store := Store.platform ⟨["left"], fun n => "object-" ++ toString n⟩

def strictRun : EnvironmentResult × Store :=
  deployEnvironment strict (fun _ => none) "dev" Diamond.configs .empty

theorem outcomes_after_rejection :
    ∃ report, strictRun.1 = .ok report ∧
      report.states.get? (tag "top") = some (.skipped (.dependencyFailed (tag "left"))) ∧
      ∀ config ∈ Diamond.configs, Outcome graph report.states config := by
  obtain ⟨report, hreport, _, _, houtcomes, _⟩ :=
    deployEnvironment_outcomes (P := strict) build_configs "dev" .empty rfl
  refine ⟨report, hreport, ?_, houtcomes⟩
  have hstate : strictRun.1.toOption.bind (·.states.get? (tag "top")) =
      some (.skipped (.dependencyFailed (tag "left"))) := by decide +kernel
  rw [strictRun, hreport] at hstate
  exact hstate

end Diamond

end Rollout
