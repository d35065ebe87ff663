import Rollout.Platform.Memory
import Rollout.Proofs.Deploy.Account
import Rollout.Proofs.Graph.Levels
import Rollout.Proofs.Parameter

/-! The references of a config that is tried: each of them leads to a config that was deployed in an
earlier wave, and finds there what the report and the parameters of that config say. -/

namespace Rollout

variable {σ : Type} {P : Platform σ} {vars : Variables} {g : DependencyGraph}
  {configs : List Config} {report : DeployReport} {context : Context}
  {attempts : List (Attempt σ)} {s : σ}

theorem DependencyGraph.IsGraphOf.mem_dependencies_of_reference (H : g.IsGraphOf configs)
    {config : Config} (hconfig : config ∈ configs) {r : Reference} (hr : r ∈ config.references) :
    r.coordinate ∈ g.dependencies config.coordinate := by
  rw [H.dependencies hconfig]
  exact Config.mem_targets_iff.2 ⟨r, hr, rfl⟩

/-- What the reference `r` of a config finds when the attempt `a` at the config is made, the attempt
`b` having deployed the target. -/
structure Finds (vars : Variables) (report : DeployReport) (r : Reference) (a b : Attempt σ)
    (id : String) : Prop where
  target : b.config.coordinate = r.coordinate
  known : (a.context.get? r.coordinate).map (·.remoteId) = some id
  deployed : report.states.get? r.coordinate = some (.deployed id)
  earlier : DependencyGraph.IsEarlier report.waves r.coordinate a.config.coordinate
  declared : ∀ parameter, b.config.parameters.get? r.property = some parameter →
    ∃ value, parameter.resolve vars b.context = .ok value ∧ a.context.lookup? r = some value
  undeclared : b.config.parameters.get? r.property = none →
    a.context.lookup? r = if r.isId then some (.string id) else none

namespace Completed

variable (h : Completed P vars g configs report context attempts s)

include h

theorem finds (H : g.IsGraphOf configs) {a : Attempt σ} (ha : a ∈ attempts) {r : Reference}
    (hr : r ∈ a.config.references) : ∃ b ∈ attempts, ∃ id, Finds vars report r a b id := by
  have hd := H.mem_dependencies_of_reference (h.attempted a ha) hr
  obtain ⟨hdecision, _, hagrees, _⟩ := h.tried ha
  obtain ⟨id, hdeployed⟩ := deployed_of_settledState?_eq_none hdecision _ hd
  obtain ⟨target, htarget, hc⟩ := H.mem_coordinates_iff.1 (H.closed _ hd)
  rw [← hc] at hdeployed
  obtain ⟨b, hb, entity, rfl, hran, hresult, hid, hknown⟩ := h.exists_attempt htarget hdeployed
  obtain ⟨payload, hprepare, _⟩ := hran.of_ok hresult
  rw [hc] at hdeployed hknown
  have hlookup := Context.lookup?_of_get? ((hagrees _ hd).trans hknown)
  rw [hid] at hlookup
  refine ⟨b, hb, id, hc, ?_, hdeployed, h.layered.areLevels.isEarlier hd (H.closed _ hd), ?_, ?_⟩
  · rw [hagrees _ hd, hknown, Option.map_some, hid]
  · intro parameter hp
    obtain ⟨value, hvalue, hproperty⟩ := get?_of_prepare_ok hprepare hp
    rw [hproperty] at hlookup
    exact ⟨value, hvalue, hlookup⟩
  · intro hp
    rw [get?_of_prepare_ok_of_not_declared hprepare hp, Option.none_or] at hlookup
    exact hlookup

/-- A parameter that failed did so in an attempt. -/
theorem resolve_of_failed (H : g.IsGraphOf configs) {c : Coordinate} {name : String}
    {cause : ParameterError}
    (hstate : report.states.get? c = some (.failed (.parameter name cause))) :
    ∃ a ∈ attempts, ∃ parameter, a.config.parameters.get? name = some parameter ∧
      parameter.resolve vars a.context = .error cause := by
  obtain ⟨config, hconfig, rfl⟩ := h.exists_config H hstate
  cases h.decided config hconfig with
  | settled _ decision state =>
    cases hstate.symm.trans state
    cases (ended_of_settledState? decision).2.2 _ rfl
  | @tried a _ only same ran _ state _ =>
    have hmem : a ∈ attempts := List.mem_of_mem_filter (only ▸ List.mem_singleton_self a)
    cases hresult : a.result with
    | ok entity =>
      rw [hresult] at state
      cases hstate.symm.trans state
    | error e =>
      rw [hresult] at state
      cases hstate.symm.trans state
      rcases ran.of_error hresult with ⟨hcancelled, _⟩ | hprepare | hdelivery
      · cases hcancelled
      · exact ⟨a, hmem, resolve_of_prepare_error hprepare⟩
      · cases hdelivery

/-- A reference that fails is to a property that its target lacks. -/
theorem reference_error (H : g.IsGraphOf configs) {c : Coordinate} {name : String}
    {cause : ParameterError} {r : Reference} (hr : cause.reference? = some r)
    (hstate : report.states.get? c = some (.failed (.parameter name cause))) :
    cause = .noSuchProperty r ∧ r.isId = false ∧ ∃ target ∈ configs,
      target.coordinate = r.coordinate ∧ target.parameters.get? r.property = none := by
  obtain ⟨a, ha, parameter, hparameter, hresolve⟩ := h.resolve_of_failed H hstate
  obtain ⟨hmem, herror⟩ := parameter.resolve_error hresolve hr
  have hdeclared : r ∈ a.config.references :=
    List.mem_flatMap.2 ⟨parameter, SortedMap.mem_values_iff.2 ⟨name, hparameter⟩, hmem⟩
  obtain ⟨b, hb, id, hfinds⟩ := h.finds H ha hdeclared
  rcases Parameter.resolveReference_error herror with ⟨_, hunknown⟩ | ⟨hcause, hlookup⟩
  · have hknown := hfinds.known
    rw [hunknown] at hknown
    cases hknown
  · have hproperty : b.config.parameters.get? r.property = none := by
      rw [Option.eq_none_iff_forall_ne_some]
      intro parameter hp
      obtain ⟨value, _, hvalue⟩ := hfinds.declared parameter hp
      cases hlookup.symm.trans hvalue
    have hid : r.isId = false := by
      by_contra hid
      have hremote := hfinds.undeclared hproperty
      rw [if_pos (by simpa using hid)] at hremote
      cases hlookup.symm.trans hremote
    exact ⟨hcause, hid, b.config, h.attempted b hb, hfinds.target, hproperty⟩

end Completed

/-- Whenever a config is tried, its references are satisfied. -/
theorem deployEnvironment_references (hbuild : DependencyGraph.build configs = .ok g)
    (environment : String) (s : σ) :
    ∃ report, (deployEnvironment P vars environment configs s).1 = .ok report ∧
      (∀ a ∈ history P vars configs s, ∀ r ∈ a.config.references,
        ∃ b ∈ history P vars configs s, ∃ id, b.config ∈ configs ∧
          Finds vars report r a b id) ∧
      (∀ c name r, report.states.get? c ≠ some (.failed (.parameter name (.notDeployed r)))) ∧
      ∀ c name r, report.states.get? c = some (.failed (.parameter name (.noSuchProperty r))) →
        r.isId = false ∧ ∃ target ∈ configs, target.coordinate = r.coordinate ∧
          target.parameters.get? r.property = none := by
  have H := DependencyGraph.isGraphOf_of_build hbuild
  obtain ⟨report, context, hreport, h⟩ :=
    deployEnvironment_completed P vars hbuild environment s
  refine ⟨report, hreport, ?_, ?_, ?_⟩
  · intro a ha r hr
    obtain ⟨b, hb, id, hfinds⟩ := h.finds H ha hr
    exact ⟨b, hb, id, h.attempted b hb, hfinds⟩
  · intro c name r hstate
    cases (h.reference_error H rfl hstate).1
  · intro c name r hstate
    exact (h.reference_error H rfl hstate).2

/-! ### Four configs with references in a list and in a format -/

namespace Diamond

def lenient : Platform Store := Store.platform ⟨[], fun n => "object-" ++ toString n⟩

def lenientHistory : List (Attempt Store) :=
  history lenient (fun _ => none) Diamond.configs .empty

theorem references_found :
    lenientHistory.map (·.config.coordinate) = [tag "root", tag "left", tag "right", tag "top"] ∧
      ∃ report,
        (deployEnvironment lenient (fun _ => none) "dev" Diamond.configs .empty).1 = .ok report ∧
        ∀ a ∈ lenientHistory, ∀ r ∈ a.config.references, ∃ b ∈ lenientHistory, ∃ id,
          b.config ∈ Diamond.configs ∧ Finds (fun _ => none) report r a b id := by
  obtain ⟨report, hreport, hfinds, _⟩ :=
    deployEnvironment_references (P := lenient) build_configs "dev" .empty
  exact ⟨by decide +kernel, report, hreport, hfinds⟩

end Diamond

end Rollout
