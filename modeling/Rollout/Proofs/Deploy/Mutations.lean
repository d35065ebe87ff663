import Rollout.Proofs.Deploy.Calls
import Rollout.Proofs.Graph.Levels

/-! What a run changes on the platform: one object for every config that is deployed, and nothing on
behalf of any other. -/

namespace Rollout

variable {σ : Type} {P : Platform σ} {vars : Variables} {g : DependencyGraph}
  {configs : List Config} {report : DeployReport} {context : Context} {supervisor : Supervisor}
  {attempts : List (Attempt (Supervised σ))} {s : Supervised σ}

/-- The calls made for one config. -/
def callsFor (attempts : List (Attempt (Supervised σ))) (c : Coordinate) : List Call :=
  (attempts.filter (·.config.coordinate = c)).flatMap Attempt.calls

/-- The changes made in the name of one config, whoever made the calls. -/
def mutationsFor (calls : List Call) (c : Coordinate) : List Mutation :=
  (mutations calls).filter (·.payload.coordinate = c)

/-- How calls fit the state in which a config is reported. -/
structure CallsFit (vars : Variables) (attempts : List (Attempt (Supervised σ))) (config : Config)
    (state : ConfigState) : Prop where
  /-- The changes made in the name of the config are those made on its behalf. -/
  own : mutationsFor (attempts.flatMap Attempt.calls) config.coordinate =
    mutations (callsFor attempts config.coordinate)
  deployed : ∀ {id}, state = .deployed id → ∃ a ∈ attempts, ∃ payload values,
    a.config = config ∧ config.prepare vars a.context = .ok (payload, values) ∧
    payload.coordinate = config.coordinate ∧
    payload.externalId = config.coordinate.externalId ∧
    config.template.render values = .ok payload.content ∧
    mutationsFor (attempts.flatMap Attempt.calls) config.coordinate =
      [⟨config.configType, id, payload⟩]
  unchanged : state.isDeployed = false →
    mutationsFor (attempts.flatMap Attempt.calls) config.coordinate = []
  quiet : state.isDeployed = false → (∀ e, state = .failed e → e.isOfDelivery = false) →
    callsFor attempts config.coordinate = []

/-! ### Whose changes they are -/

namespace Attempt.Fits

variable {a : Attempt (Supervised σ)}

theorem coordinate_of_mem (h : a.Fits vars) {m : Mutation} (hm : m ∈ Rollout.mutations a.calls) :
    m.payload.coordinate = a.config.coordinate := by
  have hmutations := h.mutations
  cases hresult : a.result with
  | ok entity =>
    rw [hresult] at hmutations
    obtain ⟨payload, hprepare, heq⟩ := hmutations
    rw [heq] at hm
    rw [List.mem_singleton.1 hm]
    exact (prepare_ok hprepare).1
  | error e =>
    rw [hresult] at hmutations
    rw [hmutations.1] at hm
    cases hm

theorem mutationsFor (h : a.Fits vars) (c : Coordinate) :
    mutationsFor a.calls c = if a.config.coordinate = c then Rollout.mutations a.calls else [] := by
  split
  · rename_i heq
    apply List.filter_eq_self.2
    intro m hm
    simpa [heq] using h.coordinate_of_mem hm
  · rename_i hne
    apply List.filter_eq_nil_iff.2
    intro m hm
    simpa [h.coordinate_of_mem hm] using hne

theorem length_mutations (h : a.Fits vars) :
    (Rollout.mutations a.calls).length =
      if (ConfigState.ofResult a.result).isDeployed then 1 else 0 := by
  have hmutations := h.mutations
  cases hresult : a.result with
  | ok entity =>
    rw [hresult] at hmutations
    obtain ⟨_, _, heq⟩ := hmutations
    rw [heq]
    rfl
  | error e =>
    rw [hresult] at hmutations
    rw [hmutations.1]
    rfl

end Attempt.Fits

theorem mutationsFor_append (calls calls' : List Call) (c : Coordinate) :
    mutationsFor (calls ++ calls') c = mutationsFor calls c ++ mutationsFor calls' c := by
  rw [mutationsFor, mutations_append, List.filter_append]
  rfl

theorem mutationsFor_flatMap (hfits : ∀ a ∈ attempts, a.Fits vars) (c : Coordinate) :
    mutationsFor (attempts.flatMap Attempt.calls) c = mutations (callsFor attempts c) := by
  induction attempts with
  | nil => rfl
  | cons a rest ih =>
    obtain ⟨ha, hrest⟩ := List.forall_mem_cons.1 hfits
    rw [List.flatMap_cons, mutationsFor_append, ha.mutationsFor, ih hrest]
    by_cases hc : a.config.coordinate = c
    · rw [if_pos hc, callsFor, callsFor, List.filter_cons_of_pos (by simpa using hc),
        List.flatMap_cons, mutations_append]
    · rw [if_neg hc, callsFor, callsFor, List.filter_cons_of_neg (by simpa using hc),
        List.nil_append]

theorem length_mutations_flatMap (hfits : ∀ a ∈ attempts, a.Fits vars) :
    (mutations (attempts.flatMap Attempt.calls)).length =
      attempts.countP fun a => (ConfigState.ofResult a.result).isDeployed := by
  induction attempts with
  | nil => rfl
  | cons a rest ih =>
    obtain ⟨ha, hrest⟩ := List.forall_mem_cons.1 hfits
    rw [List.flatMap_cons, mutations_append, List.length_append, ha.length_mutations, ih hrest,
      List.countP_cons, Nat.add_comm]

/-! ### The whole run -/

namespace Completed

variable (h : Completed (P.supervised supervisor) vars g configs report context attempts s)

include h

theorem fits : ∀ a ∈ attempts, a.Fits vars := fun _ ha => (h.tried ha).2.1.fits

/-- The calls for a config are those of its only attempt. -/
theorem callsFor_eq {a : Attempt (Supervised σ)} (ha : a ∈ attempts) :
    callsFor attempts a.config.coordinate = a.calls := by
  rw [callsFor, h.filter_eq ha, List.flatMap_singleton]

theorem callsFit {config : Config} (hconfig : config ∈ configs) :
    ∃ state, report.states.get? config.coordinate = some state ∧
      CallsFit vars attempts config state := by
  have hown := mutationsFor_flatMap h.fits config.coordinate
  have hmutations := hown
  cases h.decided config hconfig with
  | @settled _ state _ decision reported _ untried =>
    have hnone : callsFor attempts config.coordinate = [] := by
      rw [callsFor, List.filter_eq_nil_iff.2 fun a ha => by simpa using untried a ha,
        List.flatMap_nil]
    rw [hnone] at hmutations
    refine ⟨state, reported, hown, ?_, fun _ => hmutations, fun _ _ => hnone⟩
    intro id hdeployed
    cases (hdeployed ▸ (ended_of_settledState? decision).2.1)
  | @tried a _ only same ran _ reported _ =>
    subst same
    have hmem : a ∈ attempts := List.mem_of_mem_filter (only ▸ List.mem_singleton_self a)
    have hcalls : callsFor attempts a.config.coordinate = a.calls := by
      rw [callsFor, only, List.flatMap_singleton]
    rw [hcalls] at hmutations
    have hfits := ran.fits.mutations
    refine ⟨_, reported, ?_⟩
    cases hresult : a.result with
    | ok entity =>
      rw [hresult] at hfits
      obtain ⟨payload, hprepare, heq⟩ := hfits
      obtain ⟨hcoordinate, hexternal, hrender, _⟩ := prepare_ok hprepare
      refine ⟨hown, ?_, nofun, nofun⟩
      rintro _ ⟨⟩
      exact ⟨a, hmem, payload, _, rfl, hprepare, hcoordinate, hexternal, hrender,
        hmutations.trans heq⟩
    | error e =>
      rw [hresult] at hfits
      refine ⟨hown, nofun, fun _ => hmutations.trans hfits.1, ?_⟩
      intro _ hquiet
      rw [hcalls]
      exact hfits.2 (hquiet e rfl)

end Completed

/-- The count keeps up with the calls. -/
theorem Platform.CountsMutations.keeps {count : σ → Nat} (h : P.CountsMutations count)
    (supervisor : Supervisor) : (P.supervised supervisor).Keeps fun s t =>
      ∃ calls, t.calls = s.calls ++ calls ∧
        count t.inner = count s.inner + (mutations calls).length where
  refl s := ⟨[], (List.append_nil _).symm, rfl⟩
  trans := by
    rintro s t u ⟨calls, hcalls, hcount⟩ ⟨calls', hcalls', hcount'⟩
    refine ⟨calls ++ calls', ?_, ?_⟩
    · rw [hcalls', hcalls, List.append_assoc]
    · rw [hcount', hcount, mutations_append, List.length_append, Nat.add_assoc]
  elapse s := ⟨[], (List.append_nil _).symm, h.elapse s.inner⟩
  handle r s := ⟨_, calls_handle P supervisor r s, (h.supervised supervisor).handle r s⟩

/-- How the calls of a run fit its report. -/
structure RunFits (P : Platform σ) (vars : Variables) (configs : List Config)
    (report : DeployReport) (attempts : List (Attempt (Supervised σ))) (s s' : Supervised σ) :
    Prop where
  calls : s'.calls = s.calls ++ attempts.flatMap Attempt.calls
  attempted : ∀ a ∈ attempts, a.config ∈ configs
  callsFit : ∀ config ∈ configs, ∃ state,
    report.states.get? config.coordinate = some state ∧ CallsFit vars attempts config state
  length_mutations : (mutations (attempts.flatMap Attempt.calls)).length = report.deployedCount
  counted : ∀ count : σ → Nat, P.CountsMutations count →
    count s'.inner = count s.inner + report.deployedCount

variable (P vars supervisor) in
theorem deployEnvironment_runFits (hbuild : DependencyGraph.build configs = .ok g)
    (environment : String) (s : Supervised σ) :
    let run := deployEnvironment (P.supervised supervisor) vars environment configs s
    ∃ report, run.1 = .ok report ∧
      RunFits P vars configs report (history (P.supervised supervisor) vars configs s) s run.2 := by
  have H := DependencyGraph.isGraphOf_of_build hbuild
  obtain ⟨report, context, hreport, h⟩ := deployEnvironment_completed
    (P.supervised supervisor) vars hbuild environment s
  have hcalls := deployEnvironment_calls P vars supervisor environment configs s
  have hlength := (length_mutations_flatMap h.fits).trans (h.countP_deployed H)
  refine ⟨report, hreport, hcalls, h.attempted, fun config hconfig => h.callsFit hconfig, hlength,
    fun count hcounts => ?_⟩
  obtain ⟨calls, hcalls', hcount⟩ :=
    (hcounts.keeps supervisor).deployEnvironment vars environment configs s
  have heq := List.append_cancel_left (hcalls.symm.trans hcalls')
  rw [hcount, ← heq, hlength]

/-- A run changes exactly one object for every config that it reports as deployed, and none for any
other config; without a report it does nothing at all. -/
theorem deployEnvironment_mutations (vars : Variables) (environment : String)
    (configs : List Config) :
    (∀ {σ : Type} (P : Platform σ) (supervisor : Supervisor) (s : Supervised σ),
      let run := deployEnvironment (P.supervised supervisor) vars environment configs s
      match run.1 with
      | .error _ => run.2 = s
      | .ok report => RunFits P vars configs report
          (history (P.supervised supervisor) vars configs s) s run.2) ∧
    ∀ (inCharge : ConfigKind → Nat) (policies : Nat → StorePolicy) (supervisor : Supervisor)
      (s : Supervised (List Store)),
      let fleet := Platform.fleet inCharge fun i => Store.platform (policies i)
      let run := deployEnvironment (fleet.supervised supervisor) vars environment configs s
      ∀ report, run.1 = .ok report →
        sumOver Store.writes run.2.inner = sumOver Store.writes s.inner + report.deployedCount := by
  constructor
  · intro σ P supervisor s
    dsimp only
    cases hbuild : DependencyGraph.build configs with
    | error errors => rw [deployEnvironment_of_error hbuild]
    | ok g =>
      obtain ⟨report, hreport, hfits⟩ := deployEnvironment_runFits P vars supervisor hbuild
        environment s
      rw [hreport]
      exact hfits
  · intro inCharge policies supervisor s
    dsimp only
    intro report hreport
    cases hbuild : DependencyGraph.build configs with
    | error errors =>
      rw [deployEnvironment_of_error hbuild] at hreport
      cases hreport
    | ok g =>
      obtain ⟨_, hreport', hfits⟩ := deployEnvironment_runFits
        (Platform.fleet inCharge fun i => Store.platform (policies i)) vars supervisor hbuild
        environment s
      cases hreport'.symm.trans hreport
      exact hfits.counted _ (.fleet fun i => Store.countsMutations (policies i))

/-! ### Two stores, of which the one for tags refuses a name -/

namespace Diamond

def inCharge : ConfigKind → Nat
  | .settings => 1
  | _ => 0

def policies : Nat → StorePolicy
  | 0 => ⟨["left"], fun n => "object-" ++ toString n⟩
  | _ => ⟨[], fun n => "object-" ++ toString n⟩

def stores : Platform (Supervised (List Store)) :=
  (Platform.fleet inCharge fun i => Store.platform (policies i)).supervised fun _ _ => .nothing

theorem writes_counted :
    let run := deployEnvironment stores (fun _ => none) "dev" Diamond.configs
      (.start [.empty, .empty])
    run.1.toOption.map DeployReport.deployedCount = some 2 ∧
      sumOver Store.writes run.2.inner = 2 := by
  have hcount : (deployEnvironment stores (fun _ => none) "dev" Diamond.configs
      (.start [.empty, .empty])).1.toOption.map DeployReport.deployedCount = some 2 := by
    decide +kernel
  refine ⟨hcount, ?_⟩
  rw [stores] at hcount ⊢
  have hwrites := (deployEnvironment_mutations (fun _ => none) "dev" Diamond.configs).2 inCharge
    policies (fun _ _ => .nothing) (.start [.empty, .empty])
  dsimp only at hwrites
  revert hcount hwrites
  generalize deployEnvironment _ _ _ _ _ = run
  intro hcount hwrites
  obtain ⟨report, hreport, hdeployed⟩ := Option.map_eq_some_iff.1 hcount
  cases hrun : run.1 with
  | error _ =>
    rw [hrun] at hreport
    cases hreport
  | ok other =>
    rw [hrun] at hreport
    cases hreport
    rw [hwrites report hrun, hdeployed]
    rfl

end Diamond

end Rollout
