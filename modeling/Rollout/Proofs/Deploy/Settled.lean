import Mathlib.Data.List.Find
import Rollout.Deploy.Run
import Rollout.Proofs.Deploy.Prepare

/-! Which configs are not tried, and the states they are given. -/

namespace Rollout

variable {g : DependencyGraph} {states : SortedMap Coordinate ConfigState} {config : Config}

/-- The error comes from the config itself, not from a dependency or the end of the run. -/
def DeployError.isOwn : DeployError → Bool
  | .dependsOnSkipped _ | .cancelled => false
  | _ => true

theorem DeployError.isOwn_of_isOfPreparation {e : DeployError} (h : e.isOfPreparation) :
    e.isOwn = true := by
  cases e with
  | dependsOnSkipped _ | cancelled => cases h
  | _ => rfl

theorem DeployError.isOwn_of_isOfDelivery {e : DeployError} (h : e.isOfDelivery) :
    e.isOwn = true := by
  cases e with
  | dependsOnSkipped _ | cancelled => cases h
  | _ => rfl

theorem settledState?_explicit_iff {flag : Bool} :
    settledState? g flag states config = some (.skipped .explicit) ↔ config.skip = true := by
  unfold settledState? blockedState?
  cases hskip : config.skip with
  | true => simp
  | false =>
    cases flag with
    | true => simp
    | false =>
      cases hlost : (g.dependencies config.coordinate).find? fun d =>
        !(isSatisfied states d || isLeftOut states d) <;> simp

/-- Without the flag, only the dependencies decide about a config that is not to be skipped. -/
theorem settledState?_of_not_skip (hskip : config.skip = false) :
    settledState? g false states config =
      blockedState? (g.dependencies config.coordinate) states := by
  simp [settledState?, hskip]

/-- A config that is not tried ends neither deployed nor with an error of its own. -/
theorem ended_of_settledState? {flag : Bool} {state : ConfigState}
    (h : settledState? g flag states config = some state) :
    state.isTerminal = true ∧ state.isDeployed = false ∧
      ∀ e, state = .failed e → e.isOwn = false := by
  unfold settledState? blockedState? at h
  split at h
  · cases h
    exact ⟨rfl, rfl, nofun⟩
  · split at h
    · cases h
      refine ⟨rfl, rfl, ?_⟩
      rintro _ ⟨⟩
      rfl
    · split at h
      · cases h
        exact ⟨rfl, rfl, nofun⟩
      · obtain ⟨_, _, rfl⟩ := Option.map_eq_some_iff.1 h
        refine ⟨rfl, rfl, ?_⟩
        rintro _ ⟨⟩
        rfl

theorem blockedState?_eq_none_iff {dependencies : List Coordinate} :
    blockedState? dependencies states = none ↔
      ∀ d ∈ dependencies, ∃ id, states.get? d = some (.deployed id) := by
  constructor
  · intro h d hd
    unfold blockedState? at h
    split at h
    · cases h
    · rename_i hsatisfied
      have hleftOut := List.find?_eq_none.1 (Option.map_eq_none_iff.1 h) d hd
      have hd := List.find?_eq_none.1 hsatisfied d hd
      cases hstate : states.get? d with
      | none => simp [isSatisfied, isLeftOut, hstate] at hd
      | some state =>
        cases state with
        | deployed id => exact ⟨id, rfl⟩
        | _ => simp_all [isSatisfied, isLeftOut, ConfigState.isDeployed]
  · intro h
    have hsatisfied :
        dependencies.find? (fun d => !(isSatisfied states d || isLeftOut states d)) = none := by
      apply List.find?_eq_none.2
      intro d hd
      obtain ⟨id, hid⟩ := h d hd
      simp [isSatisfied, hid, ConfigState.isDeployed]
    rw [blockedState?, hsatisfied, Option.map_eq_none_iff]
    apply List.find?_eq_none.2
    intro d hd
    obtain ⟨id, hid⟩ := h d hd
    simp [isLeftOut, hid]

/-- While the flag is not seen, just the configs are tried that are not to be skipped and have their
dependencies deployed. -/
theorem settledState?_eq_none_iff :
    settledState? g false states config = none ↔ config.skip = false ∧
      ∀ d ∈ g.dependencies config.coordinate, ∃ id, states.get? d = some (.deployed id) := by
  rw [← blockedState?_eq_none_iff]
  cases hskip : config.skip with
  | true => simp [settledState?, hskip]
  | false => simp [settledState?_of_not_skip hskip]

/-- Whatever is tried has its dependencies deployed. -/
theorem deployed_of_settledState?_eq_none {flag : Bool}
    (h : settledState? g flag states config = none) :
    ∀ d ∈ g.dependencies config.coordinate, ∃ id, states.get? d = some (.deployed id) := by
  unfold settledState? at h
  split at h
  · cases h
  · split at h
    · cases h
    · exact blockedState?_eq_none_iff.1 h

/-- Whether a config is tried depends on the states of its dependencies only. -/
theorem settledState?_congr {flag : Bool} {states states' : SortedMap Coordinate ConfigState}
    {config : Config}
    (h : ∀ d ∈ g.dependencies config.coordinate, states.get? d = states'.get? d) :
    settledState? g flag states config = settledState? g flag states' config := by
  have hunsatisfied :
      (g.dependencies config.coordinate).find? (fun d =>
        !(isSatisfied states d || isLeftOut states d)) =
      (g.dependencies config.coordinate).find? (fun d =>
        !(isSatisfied states' d || isLeftOut states' d)) :=
    List.find?_congr fun d hd => by rw [isSatisfied, isSatisfied, isLeftOut, isLeftOut, h d hd]
  have hleftOut : (g.dependencies config.coordinate).find? (isLeftOut states) =
      (g.dependencies config.coordinate).find? (isLeftOut states') :=
    List.find?_congr fun d hd => by rw [isLeftOut, isLeftOut, h d hd]
  simp only [settledState?, blockedState?, hunsatisfied, hleftOut]

/-- Nothing is tried any more once the flag is seen. -/
theorem flag_of_settledState?_eq_none {flag : Bool} {states : SortedMap Coordinate ConfigState}
    {config : Config} (h : settledState? g flag states config = none) : flag = false := by
  cases flag with
  | false => rfl
  | true =>
    rw [settledState?] at h
    split at h <;> cases h

end Rollout
