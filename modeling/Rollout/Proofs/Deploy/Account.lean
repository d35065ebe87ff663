import Rollout.Proofs.Deploy.Wave
import Rollout.Proofs.Graph.Layers

/-! The invariant of a run: whatever was placed so far is accounted for, either settled because of
its dependencies or tried once, in a context that agrees with the latest one on its dependencies. -/

namespace Rollout

variable {σ : Type} {P : Platform σ} {vars : Variables} {g : DependencyGraph}
  {configs : List Config} {placed : List Coordinate} {p : Progress} {attempts : List (Attempt σ)}
  {s : σ}

/-! ### What became of the configs -/

/-- What became of a config, by the time `s` was reached with `p` after some attempts. -/
inductive Decided (P : Platform σ) (vars : Variables) (g : DependencyGraph) (p : Progress)
    (attempts : List (Attempt σ)) (s : σ) (config : Config) : Prop
  | settled {flag : Bool} {state : ConfigState} (seen : flag = true → P.isCancelled s = true)
    (decision : settledState? g flag p.states config = some state)
    (state : p.states.get? config.coordinate = some state)
    (unknown : p.context.get? config.coordinate = none)
    (untried : ∀ a ∈ attempts, a.config.coordinate ≠ config.coordinate)
  | tried {a : Attempt σ} (decision : settledState? g false p.states config = none)
    (only : attempts.filter (·.config.coordinate = config.coordinate) = [a])
    (same : a.config = config) (ran : a.Ran P vars)
    (context : ∀ d ∈ g.dependencies config.coordinate, a.context.get? d = p.context.get? d)
    (state : p.states.get? config.coordinate = some (.ofResult a.result))
    (known : p.context.get? config.coordinate = a.result.toOption)
    (cancelled : P.isCancelled a.after = true → P.isCancelled s = true)

/-- Everything placed is accounted for, and nothing else was touched. -/
structure Accounts (P : Platform σ) (vars : Variables) (g : DependencyGraph)
    (configs : List Config) (placed : List Coordinate) (p : Progress)
    (attempts : List (Attempt σ)) (s : σ) : Prop where
  closed : ∀ c ∈ placed, g.dependencies c ⊆ placed
  outside : ∀ c ∉ g.coordinates, p.states.get? c = none
  fresh : ∀ c ∉ placed, p.context.get? c = none
  attempted : ∀ a ∈ attempts, a.config ∈ configs ∧ a.config.coordinate ∈ placed
  decided : ∀ config ∈ configs, config.coordinate ∈ placed → Decided P vars g p attempts s config

/-- Every config that is accounted for has a state. -/
theorem Decided.exists_state {config : Config} (h : Decided P vars g p attempts s config) :
    ∃ state, p.states.get? config.coordinate = some state := by
  cases h with
  | settled _ _ state => exact ⟨_, state⟩
  | tried _ _ _ _ _ state => exact ⟨_, state⟩

variable (P vars g configs) in
theorem Accounts.start (s : σ) : Accounts P vars g configs [] (.start g) [] s where
  closed _ hc := nomatch hc
  outside c hc := by
    have hnone : g.vertices.get? c = none := by
      rw [Option.eq_none_iff_forall_ne_some]
      exact fun v hv => hc (DependencyGraph.mem_coordinates_iff.2 ⟨v, hv⟩)
    rw [Progress.start, SortedMap.get?_mapValues, hnone]
    rfl
  fresh _ _ := rfl
  attempted _ ha := nomatch ha
  decided _ _ hc := nomatch hc

/-- Later waves leave the account of a config as it is. -/
theorem Decided.later {config : Config} (h : Decided P vars g p attempts s config)
    {p' : Progress} {later : List (Attempt σ)} {s' : σ}
    (hsame : ∀ c ∈ config.coordinate :: g.dependencies config.coordinate,
      p'.states.get? c = p.states.get? c ∧ p'.context.get? c = p.context.get? c)
    (hlater : ∀ a ∈ later, a.config.coordinate ≠ config.coordinate)
    (hflag : P.isCancelled s → P.isCancelled s') :
    Decided P vars g p' (attempts ++ later) s' config := by
  obtain ⟨⟨hstates, hcontext⟩, hdeps⟩ := List.forall_mem_cons.1 hsame
  have hdecision : ∀ flag, settledState? g flag p'.states config =
      settledState? g flag p.states config := fun flag =>
    settledState?_congr fun d hd => (hdeps d hd).1
  cases h with
  | settled seen decision state unknown untried =>
    refine .settled (fun h => hflag (seen h)) ((hdecision _).trans decision)
      (hstates.trans state) (hcontext.trans unknown) fun a ha => ?_
    exact (List.mem_append.1 ha).elim (untried a) (hlater a)
  | tried decision only same ran context state known cancelled =>
    refine .tried ((hdecision _).trans decision) ?_ same ran
      (fun d hd => (context d hd).trans (hdeps d hd).2.symm) (hstates.trans state)
      (hcontext.trans known) fun h => hflag (cancelled h)
    rw [List.filter_append, only, List.filter_eq_nil_iff.2, List.append_nil]
    intro a ha
    simpa using hlater a ha

/-- The account of a config does not mention attempts at others. -/
theorem Decided.earlier {config : Config} (h : Decided P vars g p attempts s config)
    {earlier : List (Attempt σ)}
    (hearlier : ∀ a ∈ earlier, a.config.coordinate ≠ config.coordinate) :
    Decided P vars g p (earlier ++ attempts) s config := by
  cases h with
  | settled seen decision state unknown untried =>
    apply Decided.settled seen decision state unknown
    intro a ha
    rcases List.mem_append.1 ha with ha | ha
    · exact hearlier a ha
    · exact untried a ha
  | tried decision only same ran context state known cancelled =>
    refine .tried decision ?_ same ran context state known cancelled
    rw [List.filter_append, only, List.filter_eq_nil_iff.2, List.nil_append]
    intro a ha
    simpa using hearlier a ha

/-! ### One wave -/

private theorem filter_coordinate_eq {attempts : List (Attempt σ)}
    (hnodup : (attempts.map (·.config.coordinate)).Nodup) {a : Attempt σ} (ha : a ∈ attempts) :
    attempts.filter (·.config.coordinate = a.config.coordinate) = [a] := by
  induction attempts with
  | nil => cases ha
  | cons b rest ih =>
    obtain ⟨hb, hrest⟩ := List.nodup_cons.1 hnodup
    rcases List.mem_cons.1 ha with rfl | ha
    · rw [List.filter_cons_of_pos (by simp), List.filter_eq_nil_iff.2]
      intro b hmem
      simpa using fun heq => hb (List.mem_map.2 ⟨b, hmem, heq⟩)
    · rw [List.filter_cons_of_neg, ih hrest ha]
      simpa using fun heq => hb (List.mem_map.2 ⟨a, ha, heq.symm⟩)

/-- A group of configs that do not depend on each other, settled, tried and recorded. -/
structure GroupRan (P : Platform σ) (vars : Variables) (g : DependencyGraph) (p : Progress)
    (group : List Config) (p' : Progress) (attempts : List (Attempt σ)) (s' : σ) : Prop where
  others : ∀ c ∉ group.map (·.coordinate),
    p'.states.get? c = p.states.get? c ∧ p'.context.get? c = p.context.get? c
  attempted : ∀ a ∈ attempts, a.config ∈ group
  decided : ∀ config ∈ group, p.context.get? config.coordinate = none →
    Decided P vars g p' attempts s' config

theorem Settling.groupRan {group runnable : List Config} {settled : Progress} {s₁ : σ}
    (h : Settling P g p group settled runnable s₁) (hnodup : (group.map (·.coordinate)).Nodup)
    (hdeps : ∀ config ∈ group, ∀ d ∈ g.dependencies config.coordinate,
      d ∉ group.map (·.coordinate)) :
    let attempts := attemptAll P vars p.context runnable s₁
    GroupRan P vars g p group (attempts.foldl (fun p a => a.recordIn p) settled) attempts
      (deployAll P vars p.context runnable s₁).2 := by
  dsimp only
  have hmap := map_config_attemptAll P vars p.context runnable s₁
  have hran : ∀ a ∈ attemptAll P vars p.context runnable s₁,
      a.context = p.context ∧ a.Ran P vars := fun _ => ran_of_mem_attemptAll
  have hkeeps : ∀ a ∈ attemptAll P vars p.context runnable s₁, P.isCancelled a.after →
      P.isCancelled (deployAll P vars p.context runnable s₁).2 :=
    fun _ => P.keeps_isCancelled.after_attemptAll
  have hlast := P.keeps_isCancelled.deployAll vars p.context runnable s₁
  generalize attemptAll P vars p.context runnable s₁ = attempts at *
  have hcoords : attempts.map (·.config.coordinate) = runnable.map (·.coordinate) := by
    rw [← hmap, List.map_map]
    rfl
  have hsublist : (attempts.map (·.config.coordinate)).Sublist (group.map (·.coordinate)) :=
    hcoords ▸ h.sublist.map _
  have hrec := recorded_foldl (fun a ha => (hran a ha).2) (hsublist.nodup hnodup) settled
  generalize attempts.foldl (fun p a => a.recordIn p) settled = p' at *
  have hothers : ∀ c ∉ group.map (·.coordinate),
      p'.states.get? c = p.states.get? c ∧ p'.context.get? c = p.context.get? c := by
    intro c hc
    obtain ⟨hstates, hcontext⟩ := hrec.others c fun hmem => hc (hsublist.subset hmem)
    rw [hstates, hcontext, h.others c hc, h.context]
    exact ⟨rfl, rfl⟩
  refine ⟨hothers, ?_, ?_⟩
  · intro a ha
    exact h.sublist.subset (hmap ▸ List.mem_map.2 ⟨a, ha, rfl⟩)
  intro config hconfig hfresh
  have hcongr : ∀ flag, settledState? g flag p'.states config =
      settledState? g flag p.states config := fun flag =>
    settledState?_congr fun d hd => (hothers d (hdeps _ hconfig d hd)).1
  cases h.decided config hconfig with
  | settled seen decision untried state =>
    have hout : config.coordinate ∉ attempts.map (·.config.coordinate) := by
      rw [hcoords]
      intro hmem
      obtain ⟨other, hother, heq⟩ := List.mem_map.1 hmem
      exact untried
        (List.inj_on_of_nodup_map hnodup (h.sublist.subset hother) hconfig heq ▸ hother)
    obtain ⟨hstates, hcontext⟩ := hrec.others _ hout
    refine .settled (fun h => hlast (seen h)) ((hcongr _).trans decision) (hstates.trans state) ?_
      fun a ha heq => hout (List.mem_map.2 ⟨a, ha, heq⟩)
    rw [hcontext, h.context, hfresh]
  | tried decision tried =>
    rw [← hmap] at tried
    obtain ⟨a, ha, rfl⟩ := List.mem_map.1 tried
    obtain ⟨hstate, hknown⟩ := hrec.recorded a ha
    refine .tried ((hcongr _).trans decision) (filter_coordinate_eq (hsublist.nodup hnodup) ha) rfl
      (hran a ha).2 (fun d hd => ?_) hstate ?_ (hkeeps a ha)
    · rw [(hran a ha).1, (hothers d (hdeps _ hconfig d hd)).2]
    · rw [hknown, h.context, hfresh, Option.or_none]

variable (P vars p s) in
theorem deployWave_groupRan (H : g.IsGraphOf configs) {wave : Wave} (hnodup : wave.Nodup)
    (hsub : wave ⊆ g.coordinates) (hdeps : ∀ c ∈ wave, ∀ d ∈ g.dependencies c, d ∉ wave) :
    let after := deployWave P vars g p wave s
    GroupRan P vars g p (wave.filterMap g.config?) after.1 (waveAttempts P vars g p wave s)
      after.2 := by
  obtain ⟨hattempts, hafter⟩ := deployWave_run P vars g p wave s
  have hcoords := H.map_coordinate_filterMap hsub
  have hnodup' : ((wave.filterMap g.config?).map (·.coordinate)).Nodup := by rwa [hcoords]
  have hdeps' : ∀ config ∈ wave.filterMap g.config?, ∀ d ∈ g.dependencies config.coordinate,
      d ∉ (wave.filterMap g.config?).map (·.coordinate) := by
    intro config hconfig d hd
    rw [hcoords]
    exact hdeps _ (H.mem_filterMap_config?.1 hconfig).2 d hd
  rw [hafter, hattempts]
  exact (settleWave_settling hnodup' hdeps' p s).groupRan hnodup' hdeps'

/-- The step of the run: a wave of everything that has become ready. -/
theorem Accounts.wave (h : Accounts P vars g configs placed p attempts s)
    (H : g.IsGraphOf configs) {wave : Wave} (hnodup : wave.Nodup)
    (hmem : ∀ c, c ∈ wave ↔ c ∈ g.coordinates ∧ c ∉ placed ∧ ∀ d ∈ g.dependencies c, d ∈ placed) :
    let after := deployWave P vars g p wave s
    Accounts P vars g configs (placed ++ wave) after.1
      (attempts ++ waveAttempts P vars g p wave s) after.2 := by
  have hsub : wave ⊆ g.coordinates := fun c hc => ((hmem c).1 hc).1
  have hnew : ∀ {c}, c ∈ placed → c ∉ wave := fun hp hw => ((hmem _).1 hw).2.1 hp
  have hran := deployWave_groupRan P vars p s H hnodup hsub
    fun c hc d hd => hnew (((hmem c).1 hc).2.2 d hd)
  have hcancelled := P.keeps_isCancelled.deployWave vars g p wave s
  dsimp only at hran ⊢
  have hcoords := H.map_coordinate_filterMap hsub
  have hothers := hcoords ▸ hran.others
  have hattempted : ∀ a ∈ waveAttempts P vars g p wave s,
      a.config ∈ configs ∧ a.config.coordinate ∈ wave := fun a ha =>
    H.mem_filterMap_config?.1 (hran.attempted a ha)
  refine ⟨?_, ?_, ?_, ?_, ?_⟩
  · intro c hc d hd
    apply List.mem_append_left
    rcases List.mem_append.1 hc with hp | hw
    · exact h.closed c hp hd
    · exact ((hmem c).1 hw).2.2 d hd
  · intro c hc
    rw [(hothers c fun hw => hc (hsub hw)).1, h.outside c hc]
  · intro c hc
    rw [List.mem_append, not_or] at hc
    rw [(hothers c hc.2).2, h.fresh c hc.1]
  · intro a ha
    rcases List.mem_append.1 ha with ha | ha
    · exact (h.attempted a ha).imp_right (List.mem_append_left _)
    · exact (hattempted a ha).imp_right (List.mem_append_right _)
  · intro config hconfig hc
    rcases List.mem_append.1 hc with hp | hw
    · refine (h.decided config hconfig hp).later ?_ ?_ hcancelled
      · intro c hc
        apply hothers
        apply hnew
        rcases List.mem_cons.1 hc with rfl | hd
        · exact hp
        · exact h.closed _ hp hd
      · intro a ha heq
        exact hnew hp (heq ▸ (hattempted a ha).2)
    · refine (hran.decided config (H.mem_filterMap_config?.2 ⟨hconfig, hw⟩) ?_).earlier ?_
      · exact h.fresh _ ((hmem _).1 hw).2.1
      · intro a ha heq
        exact hnew (h.attempted a ha).2 (heq ▸ hw)

/-! ### The whole run -/

theorem wavesAttempts_cons (p : Progress) (wave : Wave) (rest : List Wave) (s : σ) :
    wavesAttempts P vars g p (wave :: rest) s =
      let after := deployWave P vars g p wave s
      waveAttempts P vars g p wave s ++ wavesAttempts P vars g after.1 rest after.2 := rfl

theorem deployWaves_cons (p : Progress) (wave : Wave) (rest : List Wave) (s : σ) :
    deployWaves P vars g p (wave :: rest) s =
      let after := deployWave P vars g p wave s
      deployWaves P vars g after.1 rest after.2 := rfl

theorem Accounts.waves (h : Accounts P vars g configs placed p attempts s)
    (H : g.IsGraphOf configs) {waves : List Wave} (hlayered : g.Layered placed waves) :
    let after := deployWaves P vars g p waves s
    Accounts P vars g configs (placed ++ waves.flatten) after.1
      (attempts ++ wavesAttempts P vars g p waves s) after.2 := by
  induction hlayered generalizing p attempts s with
  | nil =>
    rw [List.flatten_nil, wavesAttempts, List.append_nil, List.append_nil]
    exact h
  | cons _ ascending mem_iff _ ih =>
    rw [List.flatten_cons, wavesAttempts_cons, ← List.append_assoc, ← List.append_assoc]
    exact ih (h.wave H (nodup_of_pairwise_lt ascending) mem_iff)

theorem ConfigState.isTerminal_ofResult (result : Except DeployError ResolvedEntity) :
    (ofResult result).isTerminal = true := by
  cases result <;> rfl

/-- What is tried is not skipped. -/
theorem ConfigState.ofResult_ne_skipped (result : Except DeployError ResolvedEntity)
    (reason : SkipReason) : ofResult result ≠ .skipped reason := by
  cases result <;> nofun

/-- What is known of a run that came to its end. -/
structure Completed (P : Platform σ) (vars : Variables) (g : DependencyGraph)
    (configs : List Config) (report : DeployReport) (context : Context)
    (history : List (Attempt σ)) (s : σ) : Prop where
  layered : g.Layered [] report.waves
  keys : report.states.keys = g.coordinates
  attempted : ∀ a ∈ history, a.config ∈ configs
  decided : ∀ config ∈ configs, Decided P vars g ⟨report.states, context⟩ history s config

namespace Completed

variable {report : DeployReport} {context : Context}
  (h : Completed P vars g configs report context attempts s)

include h

/-- The attempt of which the history tells. -/
theorem tried {a : Attempt σ} (ha : a ∈ attempts) :
    settledState? g false report.states a.config = none ∧ a.Ran P vars ∧
      (∀ d ∈ g.dependencies a.config.coordinate, a.context.get? d = context.get? d) ∧
      report.states.get? a.config.coordinate = some (.ofResult a.result) := by
  cases h.decided a.config (h.attempted a ha) with
  | settled _ _ _ _ untried => exact absurd rfl (untried a ha)
  | @tried b decision only same ran context state =>
    have hmem : a ∈ attempts.filter (·.config.coordinate = a.config.coordinate) := by simp [ha]
    rw [only] at hmem
    obtain rfl := List.mem_singleton.1 hmem
    exact ⟨decision, ran, context, state⟩

/-- It is the only attempt at its config. -/
theorem filter_eq {a : Attempt σ} (ha : a ∈ attempts) :
    attempts.filter (·.config.coordinate = a.config.coordinate) = [a] := by
  cases h.decided a.config (h.attempted a ha) with
  | settled _ _ _ _ untried => exact absurd rfl (untried a ha)
  | @tried b _ only =>
    have hmem : a ∈ attempts.filter (·.config.coordinate = a.config.coordinate) := by simp [ha]
    rw [only] at hmem
    rw [only, List.mem_singleton.1 hmem]

/-- Nothing is tried twice. -/
theorem nodup_attempts : (attempts.map (·.config.coordinate)).Nodup := by
  apply List.nodup_iff_count_le_one.2
  intro c
  rw [List.count_eq_countP, List.countP_map, List.countP_eq_length_filter]
  by_cases hc : ∃ a ∈ attempts, a.config.coordinate = c
  · obtain ⟨a, ha, rfl⟩ := hc
    cases h.decided a.config (h.attempted a ha) with
    | settled _ _ _ _ untried => exact absurd rfl (untried a ha)
    | tried _ only => exact (congrArg List.length only).le
  · have hnone : attempts.filter (·.config.coordinate = c) = [] := by
      apply List.filter_eq_nil_iff.2
      intro a ha
      simpa using fun heq => hc ⟨a, ha, heq⟩
    exact (congrArg List.length hnone).le.trans (Nat.zero_le 1)

/-- Who is deployed was so by an attempt. -/
theorem exists_attempt {config : Config} (hconfig : config ∈ configs) {id : String}
    (hstate : report.states.get? config.coordinate = some (.deployed id)) :
    ∃ b ∈ attempts, ∃ entity, b.config = config ∧ b.Ran P vars ∧ b.result = .ok entity ∧
      entity.remoteId = id ∧ context.get? config.coordinate = some entity := by
  cases h.decided config hconfig with
  | settled _ decision state =>
    cases hstate.symm.trans state
    cases (ended_of_settledState? decision).2.1
  | @tried b _ only same ran _ state known =>
    have hmem : b ∈ attempts := List.mem_of_mem_filter (only ▸ List.mem_singleton_self b)
    cases hresult : b.result with
    | error e =>
      rw [hresult] at state
      cases hstate.symm.trans state
    | ok entity =>
      rw [hresult] at state known
      cases hstate.symm.trans state
      exact ⟨b, hmem, entity, same, ran, hresult, rfl, known⟩

/-- Just what is marked to be skipped is reported so. -/
theorem skip_of_explicit {config : Config} (hconfig : config ∈ configs)
    (hstate : report.states.get? config.coordinate = some (.skipped .explicit)) :
    config.skip = true := by
  cases h.decided config hconfig with
  | settled _ decision state =>
    cases hstate.symm.trans state
    exact settledState?_explicit_iff.1 decision
  | tried _ _ _ _ _ state =>
    have heq := Option.some.inj (state.symm.trans hstate)
    exact absurd heq (ConfigState.ofResult_ne_skipped _ _)

/-- The context has what came of the attempts that succeeded. -/
theorem get?_context_iff {config : Config} (hconfig : config ∈ configs)
    {entity : ResolvedEntity} : context.get? config.coordinate = some entity ↔
      ∃ a ∈ attempts, a.config = config ∧ a.result = .ok entity := by
  cases h.decided config hconfig with
  | settled _ _ _ unknown untried =>
    constructor
    · intro hknown
      cases unknown.symm.trans hknown
    · rintro ⟨a, ha, rfl, _⟩
      exact absurd rfl (untried a ha)
  | @tried a _ only same _ _ _ known =>
    have hmem : a ∈ attempts := List.mem_of_mem_filter (only ▸ List.mem_singleton_self a)
    refine Iff.trans (b := a.result = .ok entity) ?_ ⟨fun hresult => ⟨a, hmem, same, hresult⟩, ?_⟩
    · rw [known]
      cases a.result <;> simp [Except.toOption]
    · rintro ⟨b, hb, rfl, hresult⟩
      cases only.symm.trans (h.filter_eq hb)
      exact hresult

/-- The context and the states tell of the same configs. -/
theorem get?_states_iff {config : Config} (hconfig : config ∈ configs) {id : String} :
    report.states.get? config.coordinate = some (.deployed id) ↔
      ∃ entity, context.get? config.coordinate = some entity ∧ entity.remoteId = id := by
  constructor
  · intro hstate
    obtain ⟨_, _, entity, _, _, _, hid, hknown⟩ := h.exists_attempt hconfig hstate
    exact ⟨entity, hknown, hid⟩
  · rintro ⟨entity, hknown, rfl⟩
    obtain ⟨a, ha, rfl, hresult⟩ := (h.get?_context_iff hconfig).1 hknown
    obtain ⟨_, _, _, hstate⟩ := h.tried ha
    rw [hstate, hresult]
    rfl

/-- Only configs of the run are reported. -/
theorem exists_config (H : g.IsGraphOf configs) {c : Coordinate} {state : ConfigState}
    (hstate : report.states.get? c = some state) : ∃ config ∈ configs, config.coordinate = c :=
  H.mem_coordinates_iff.1 (h.keys ▸ SortedMap.mem_keys_iff.2 ⟨state, hstate⟩)

/-- Everything has come to an end. -/
theorem isTerminal (H : g.IsGraphOf configs) :
    ∀ state ∈ report.states.values, state.isTerminal = true := by
  intro state hmem
  obtain ⟨c, hstate⟩ := SortedMap.mem_values_iff.1 hmem
  obtain ⟨config, hconfig, rfl⟩ := h.exists_config H hstate
  cases h.decided config hconfig with
  | settled _ decision reported =>
    cases hstate.symm.trans reported
    exact (ended_of_settledState? decision).1
  | tried _ _ _ _ _ reported =>
    cases hstate.symm.trans reported
    exact ConfigState.isTerminal_ofResult _

/-- What a config that is tried depends on was deployed. -/
theorem known_of_dependency (H : g.IsGraphOf configs) {a : Attempt σ} (ha : a ∈ attempts) :
    ∀ d ∈ g.dependencies a.config.coordinate, ∃ target ∈ configs, target.coordinate = d ∧
      ∃ entity, context.get? d = some entity := by
  intro d hd
  obtain ⟨target, htarget, rfl⟩ := H.mem_coordinates_iff.1 (H.closed _ hd)
  obtain ⟨id, hid⟩ := deployed_of_settledState?_eq_none (h.tried ha).1 _ hd
  obtain ⟨entity, hknown, _⟩ := (h.get?_states_iff htarget).1 hid
  exact ⟨target, htarget, rfl, entity, hknown⟩

/-- As many attempts succeed as configs are reported as deployed. -/
theorem countP_deployed (H : g.IsGraphOf configs) :
    (attempts.countP fun a => (ConfigState.ofResult a.result).isDeployed) =
      report.deployedCount := by
  have hattempts : ((attempts.filter fun a => (ConfigState.ofResult a.result).isDeployed).map
      (·.config.coordinate)).Nodup := (List.filter_sublist.map _).nodup h.nodup_attempts
  have hstates : ((report.states.entries.filter (·.2.isDeployed)).map (·.1)).Nodup :=
    (List.filter_sublist.map _).nodup report.states.nodup_keys
  have hperm := (List.perm_ext_iff_of_nodup hattempts hstates).2 fun c => ?_
  · have hlength := hperm.length_eq
    rw [List.length_map, List.length_map, ← List.countP_eq_length_filter,
      ← List.countP_eq_length_filter] at hlength
    rw [hlength, DeployReport.deployedCount, SortedMap.values, List.countP_map]
    rfl
  · simp only [List.mem_map, List.mem_filter, Prod.exists, SortedMap.mem_entries_iff]
    constructor
    · rintro ⟨a, ⟨ha, hdeployed⟩, rfl⟩
      exact ⟨_, _, ⟨(h.tried ha).2.2.2, hdeployed⟩, rfl⟩
    · rintro ⟨_, state, ⟨hstate, hdeployed⟩, rfl⟩
      obtain ⟨config, hconfig, rfl⟩ := h.exists_config H hstate
      cases state with
      | deployed id =>
        obtain ⟨b, hb, entity, rfl, _, hresult, _⟩ := h.exists_attempt hconfig hstate
        exact ⟨b, ⟨hb, by rw [hresult]; rfl⟩, rfl⟩
      | _ => cases hdeployed

/-- Who failed was kept from being tried or failed in its attempt. -/
theorem settled_or_attempted_of_failed (H : g.IsGraphOf configs) {c : Coordinate} {e : DeployError}
    (hstate : report.states.get? c = some (.failed e)) :
    (∃ config ∈ configs, ∃ flag, (flag = true → P.isCancelled s = true) ∧
        settledState? g flag report.states config = some (.failed e)) ∨
      ∃ a ∈ attempts, a.result = .error e := by
  obtain ⟨config, hconfig, rfl⟩ := h.exists_config H hstate
  cases h.decided config hconfig with
  | @settled flag _ seen decision state =>
    cases hstate.symm.trans state
    exact .inl ⟨config, hconfig, flag, seen, decision⟩
  | @tried a _ only _ _ _ state =>
    refine .inr ⟨a, List.mem_of_mem_filter (only ▸ List.mem_singleton_self a), ?_⟩
    exact ConfigState.ofResult_eq_failed_iff.1 (Option.some.inj (state.symm.trans hstate))

/-- In a successful run, whatever was tried was deployed. -/
theorem exists_ok (hsuccess : report.isSuccess = true) {a : Attempt σ} (ha : a ∈ attempts) :
    ∃ entity, a.result = .ok entity := by
  obtain ⟨_, _, _, hstate⟩ := h.tried ha
  have hgood := List.all_eq_true.1 hsuccess _ (SortedMap.mem_values_iff.2 ⟨_, hstate⟩)
  cases hresult : a.result with
  | ok entity => exact ⟨entity, rfl⟩
  | error e =>
    rw [hresult] at hgood
    cases hgood

end Completed

/-- Nothing happens to configs that are not in order. -/
theorem deployEnvironment_of_error {errors : List GraphError}
    (hbuild : DependencyGraph.build configs = .error errors) (environment : String) (s : σ) :
    deployEnvironment P vars environment configs s = (.error errors, s) := by
  rw [deployEnvironment, hbuild]
  rfl

variable (P vars) in
/-- What is deployed is the waves of the graph. -/
theorem deployEnvironment_run (hbuild : DependencyGraph.build configs = .ok g) {waves : List Wave}
    (hwaves : g.waves = .ok waves) (environment : String) (s : σ) :
    (deployEnvironment P vars environment configs s =
      let after := deployWaves P vars g (.start g) waves s
      (.ok ⟨environment, waves, after.1.states⟩, after.2)) ∧
    history P vars configs s = wavesAttempts P vars g (.start g) waves s := by
  constructor
  · rw [deployEnvironment, hbuild]
    dsimp only
    rw [hwaves]
    rfl
  · rw [history, hbuild]
    dsimp only
    rw [hwaves]

variable (P vars) in
/-- Configs that are in order are deployed to the end. -/
theorem deployEnvironment_completed (hbuild : DependencyGraph.build configs = .ok g)
    (environment : String) (s : σ) :
    let run := deployEnvironment P vars environment configs s
    ∃ report context, run.1 = .ok report ∧
      Completed P vars g configs report context (history P vars configs s) run.2 := by
  have H := DependencyGraph.isGraphOf_of_build hbuild
  obtain ⟨waves, hwaves, hlayered⟩ := DependencyGraph.exists_waves H
  have hacc := (Accounts.start P vars g configs s).waves H hlayered
  obtain ⟨hrun, hhistory⟩ := deployEnvironment_run P vars hbuild hwaves environment s
  rw [hrun, hhistory]
  dsimp only at hacc ⊢
  rw [List.nil_append, List.nil_append] at hacc
  have hplaced : ∀ config ∈ configs, config.coordinate ∈ waves.flatten := by
    intro config hconfig
    apply hlayered.mem_flatten_iff.2
    exact ⟨H.mem_coordinates_iff.2 ⟨config, hconfig, rfl⟩, List.not_mem_nil⟩
  have hdecided := fun config hconfig => hacc.decided config hconfig (hplaced config hconfig)
  refine ⟨_, (deployWaves P vars g (.start g) waves s).1.context, rfl, hlayered, ?_,
    fun a ha => (hacc.attempted a ha).1, hdecided⟩
  apply eq_of_pairwise_lt (SortedMap.pairwise_keys _) (SortedMap.pairwise_keys _)
  intro c
  rw [SortedMap.mem_keys_iff]
  constructor
  · rintro ⟨state, hstate⟩
    by_contra hout
    cases (hacc.outside c hout).symm.trans hstate
  · intro hc
    obtain ⟨config, hconfig, rfl⟩ := H.mem_coordinates_iff.1 hc
    exact (hdecided config hconfig).exists_state

/-- Who reports has come to the end. -/
theorem completed_of_report {environment : String} {report : DeployReport}
    (hreport : (deployEnvironment P vars environment configs s).1 = .ok report) :
    ∃ g context, g.IsGraphOf configs ∧ Completed P vars g configs report context
      (history P vars configs s) (deployEnvironment P vars environment configs s).2 := by
  cases hbuild : DependencyGraph.build configs with
  | error errors =>
    rw [deployEnvironment_of_error hbuild] at hreport
    cases hreport
  | ok g =>
    obtain ⟨_, context, hreport', h⟩ := deployEnvironment_completed P vars hbuild environment s
    cases hreport'.symm.trans hreport
    exact ⟨g, context, DependencyGraph.isGraphOf_of_build hbuild, h⟩

end Rollout
