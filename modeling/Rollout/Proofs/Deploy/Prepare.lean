import Rollout.Deploy.Config
import Rollout.Proofs.Parameter

/-! What it takes to put the payload of a config together, and the errors that can come of it. -/

namespace Rollout

variable {vars : Variables}

/-- Errors in putting the payload together. -/
def DeployError.isOfPreparation : DeployError → Bool
  | .parameter _ _ | .render _ | .missingScope | .missingName => true
  | _ => false

/-- Errors in bringing the payload to the platform. -/
def DeployError.isOfDelivery : DeployError → Bool
  | .ambiguous _ _ | .remote _ => true
  | _ => false

theorem resolveAll_error {ctx : Context} {ps : List (String × Parameter)} {e : DeployError}
    (h : Config.resolveAll vars ctx ps = .error e) :
    ∃ p ∈ ps, ∃ cause, p.2.resolve vars ctx = .error cause ∧ e = .parameter p.1 cause := by
  induction ps with
  | nil => cases h
  | cons p rest ih =>
    obtain ⟨name, parameter⟩ := p
    rw [Config.resolveAll] at h
    cases hp : parameter.resolve vars ctx with
    | error cause =>
      rw [hp] at h
      cases h
      exact ⟨_, List.mem_cons_self, cause, hp, rfl⟩
    | ok value =>
      rw [hp] at h
      cases hrest : Config.resolveAll vars ctx rest with
      | ok pairs => rw [hrest] at h; cases h
      | error e' =>
        rw [hrest] at h
        cases h
        obtain ⟨p, hp, h⟩ := ih hrest
        exact ⟨p, List.mem_cons_of_mem _ hp, h⟩

theorem resolveAll_ok {ctx : Context} {ps : List (String × Parameter)}
    {pairs : List (String × Json)} (h : Config.resolveAll vars ctx ps = .ok pairs) :
    pairs.map (·.1) = ps.map (·.1) ∧
      ∀ p ∈ ps, ∃ value, p.2.resolve vars ctx = .ok value ∧ (p.1, value) ∈ pairs := by
  induction ps generalizing pairs with
  | nil =>
    cases h
    exact ⟨rfl, by simp⟩
  | cons p rest ih =>
    obtain ⟨name, parameter⟩ := p
    rw [Config.resolveAll] at h
    cases hp : parameter.resolve vars ctx with
    | error cause => rw [hp] at h; cases h
    | ok value =>
      rw [hp] at h
      cases hrest : Config.resolveAll vars ctx rest with
      | error e => rw [hrest] at h; cases h
      | ok others =>
        rw [hrest] at h
        cases h
        obtain ⟨hnames, hvalues⟩ := ih hrest
        refine ⟨by simp [hnames], List.forall_mem_cons.2 ⟨?_, fun q hq => ?_⟩⟩
        · exact ⟨value, hp, List.mem_cons_self⟩
        · obtain ⟨value', hq, hmem⟩ := hvalues q hq
          exact ⟨value', hq, List.mem_cons_of_mem _ hmem⟩

theorem resolveAll_congr {ctx ctx' : Context} {ps : List (String × Parameter)}
    (h : ∀ p ∈ ps, p.2.resolve vars ctx = p.2.resolve vars ctx') :
    Config.resolveAll vars ctx ps = Config.resolveAll vars ctx' ps := by
  induction ps with
  | nil => rfl
  | cons p rest ih =>
    obtain ⟨hp, hrest⟩ := List.forall_mem_cons.1 h
    rw [Config.resolveAll, Config.resolveAll, hp, ih hrest]

theorem prepare_run (ctx : Context) (config : Config) :
    config.prepare vars ctx = match Config.resolveAll vars ctx config.parameters.entries with
      | .error e => .error e
      | .ok pairs => match config.template.render (.ofList pairs) with
        | .error e => .error (.render e)
        | .ok content =>
          let name := parameterText (.ofList pairs) Config.nameParameter
          let scope := parameterText (.ofList pairs) Config.scopeParameter
          if config.configType.kind = .settings ∧ scope.isNone then .error .missingScope
          else if config.configType.identity = .name ∧ name.isNone then .error .missingName
          else .ok (⟨config.coordinate, name, config.coordinate.externalId, scope, content⟩,
            .ofList pairs) := by
  rw [Config.prepare]
  cases Config.resolveAll vars ctx config.parameters.entries <;> rfl

/-- The payload depends on the context only through the references of the config. -/
theorem prepare_congr {ctx ctx' : Context} {config : Config}
    (h : ∀ r ∈ config.references, ctx.get? r.coordinate = ctx'.get? r.coordinate) :
    config.prepare vars ctx = config.prepare vars ctx' := by
  have hparameters : ∀ p ∈ config.parameters.entries,
      p.2.resolve vars ctx = p.2.resolve vars ctx' := by
    intro p hp
    apply p.2.resolve_congr
    intro r hr
    apply Parameter.resolveReference_congr
    exact h r (List.mem_flatMap.2 ⟨p.2, List.mem_map.2 ⟨p, hp, rfl⟩, hr⟩)
  rw [prepare_run, prepare_run, resolveAll_congr hparameters]

theorem prepare_error {ctx : Context} {config : Config} {e : DeployError}
    (h : config.prepare vars ctx = .error e) : e.isOfPreparation := by
  rw [prepare_run] at h
  split at h
  · rename_i hresolve
    cases h
    obtain ⟨_, _, _, _, rfl⟩ := resolveAll_error hresolve
    rfl
  · split at h
    · cases h
      rfl
    · dsimp only at h
      split at h
      · cases h
        rfl
      · split at h
        · cases h
          rfl
        · cases h

/-- An error in a parameter is that of a parameter of the config. -/
theorem resolve_of_prepare_error {ctx : Context} {config : Config} {name : String}
    {cause : ParameterError} (h : config.prepare vars ctx = .error (.parameter name cause)) :
    ∃ parameter, config.parameters.get? name = some parameter ∧
      parameter.resolve vars ctx = .error cause := by
  rw [prepare_run] at h
  split at h
  · rename_i hresolve
    cases h
    obtain ⟨⟨_, parameter⟩, hmem, _, hparameter, herror⟩ := resolveAll_error hresolve
    cases herror
    exact ⟨parameter, SortedMap.mem_entries_iff.1 hmem, hparameter⟩
  · split at h
    · cases h
    · dsimp only at h
      split at h
      · cases h
      · split at h
        · cases h
        · cases h

theorem prepare_ok {ctx : Context} {config : Config} {payload : Payload}
    {values : SortedMap String Json} (h : config.prepare vars ctx = .ok (payload, values)) :
    payload.coordinate = config.coordinate ∧ payload.externalId = config.coordinate.externalId ∧
      config.template.render values = .ok payload.content ∧
      ∃ pairs, Config.resolveAll vars ctx config.parameters.entries = .ok pairs ∧
        values = .ofList pairs := by
  rw [prepare_run] at h
  split at h
  · cases h
  · rename_i pairs hresolve
    split at h
    · cases h
    · rename_i content hrender
      dsimp only at h
      split at h
      · cases h
      · split at h
        · cases h
        · cases h
          exact ⟨rfl, rfl, hrender, pairs, hresolve, rfl⟩

/-- The texts that a payload takes from its parameters. -/
theorem texts_of_prepare_ok {ctx : Context} {config : Config} {payload : Payload}
    {values : SortedMap String Json} (h : config.prepare vars ctx = .ok (payload, values)) :
    payload.name = parameterText values Config.nameParameter ∧
      payload.scope = parameterText values Config.scopeParameter := by
  rw [prepare_run] at h
  split at h
  · cases h
  · split at h
    · cases h
    · dsimp only at h
      split at h
      · cases h
      · split at h
        · cases h
        · cases h
          exact ⟨rfl, rfl⟩

/-! ### The values that are left for later references -/

theorem get?_of_prepare_ok {ctx : Context} {config : Config} {payload : Payload}
    {values : SortedMap String Json} (h : config.prepare vars ctx = .ok (payload, values))
    {name : String} {parameter : Parameter} (hname : config.parameters.get? name = some parameter) :
    ∃ value, parameter.resolve vars ctx = .ok value ∧ values.get? name = some value := by
  obtain ⟨_, _, _, pairs, hresolve, rfl⟩ := prepare_ok h
  obtain ⟨hnames, hvalues⟩ := resolveAll_ok hresolve
  obtain ⟨value, hvalue, hmem⟩ := hvalues _ (SortedMap.mem_entries_iff.2 hname)
  have hnodup : (pairs.map (·.1)).Nodup := hnames ▸ config.parameters.nodup_keys
  exact ⟨value, hvalue, SortedMap.get?_ofList_of_mem hnodup hmem⟩

theorem get?_of_prepare_ok_of_not_declared {ctx : Context} {config : Config} {payload : Payload}
    {values : SortedMap String Json} (h : config.prepare vars ctx = .ok (payload, values))
    {name : String} (hname : config.parameters.get? name = none) : values.get? name = none := by
  obtain ⟨_, _, _, pairs, hresolve, rfl⟩ := prepare_ok h
  obtain ⟨hnames, _⟩ := resolveAll_ok hresolve
  rw [Option.eq_none_iff_forall_ne_some]
  intro value hvalue
  have hmem : name ∈ config.parameters.entries.map (·.1) :=
    hnames ▸ List.mem_map.2 ⟨_, SortedMap.mem_of_get?_ofList hvalue, rfl⟩
  obtain ⟨_, hdeclared⟩ := SortedMap.mem_keys_iff.1 hmem
  cases hname.symm.trans hdeclared

end Rollout
