import Rollout.Proofs.Deploy.Runs
import Rollout.Proofs.Deploy.Settled
import Rollout.Proofs.Graph.Build

/-! One wave of a run: which of its configs are settled before anything is tried, and what the
attempts at the others leave behind. -/

namespace Rollout

variable {σ : Type} {P : Platform σ} {vars : Variables} {g : DependencyGraph}

/-! ### Settling -/

theorem isCancelled_of_pollFor {config : Config} {s : σ} (h : (pollFor P config s).1 = true) :
    P.isCancelled (pollFor P config s).2 = true := by
  unfold pollFor at h ⊢
  split at h
  · cases h
  · rename_i hskip
    rw [if_neg hskip]
    exact h

theorem settleWave_cons (p : Progress) (config : Config) (rest : List Config) (s : σ) :
    settleWave P g p (config :: rest) s =
      let polled := pollFor P config s
      match settledState? g polled.1 p.states config with
      | some state => settleWave P g (p.settle config.coordinate state) rest polled.2
      | none =>
        let later := settleWave P g (p.settle config.coordinate .resolving) rest polled.2
        ((later.1.1, config :: later.1.2), later.2) := by
  rw [settleWave, bind_run]
  dsimp only
  cases settledState? g (pollFor P config s).1 p.states config <;> rfl

theorem Progress.get?_settle_of_ne {c d : Coordinate} (h : d ≠ c) (p : Progress)
    (state : ConfigState) : (p.settle c state).states.get? d = p.states.get? d :=
  SortedMap.get?_insert_of_ne h ..

/-- What becomes of a config that is looked at in `p`, by the time `s'` is reached with `p'` and the
configs to try. -/
inductive Decision (P : Platform σ) (g : DependencyGraph) (p p' : Progress)
    (runnable : List Config) (s' : σ) (config : Config) : Prop
  | settled {flag : Bool} {state : ConfigState} (seen : flag = true → P.isCancelled s' = true)
    (decision : settledState? g flag p.states config = some state) (untried : config ∉ runnable)
    (state : p'.states.get? config.coordinate = some state)
  | tried (decision : settledState? g false p.states config = none) (tried : config ∈ runnable)

/-- What becomes of configs none of which depends on another of them. -/
structure Settling (P : Platform σ) (g : DependencyGraph) (p : Progress) (configs : List Config)
    (p' : Progress) (runnable : List Config) (s' : σ) : Prop where
  context : p'.context = p.context
  sublist : runnable.Sublist configs
  others : ∀ c ∉ configs.map (·.coordinate), p'.states.get? c = p.states.get? c
  decided : ∀ config ∈ configs, Decision P g p p' runnable s' config

namespace Settling

variable {p p' : Progress} {config : Config} {rest runnable : List Config} {s' : σ}
  {state : ConfigState}

theorem others_cons (h : Settling P g (p.settle config.coordinate state) rest p' runnable s') :
    ∀ c ∉ (config :: rest).map (·.coordinate), p'.states.get? c = p.states.get? c := by
  intro c hc
  rw [List.map_cons, List.mem_cons, not_or] at hc
  rw [h.others c hc.2, Progress.get?_settle_of_ne hc.1]

/-- A config that the others do not depend on makes no difference to them. -/
theorem decided_rest (h : Settling P g (p.settle config.coordinate state) rest p' runnable s')
    (hindep : ∀ other ∈ rest, config.coordinate ∉ g.dependencies other.coordinate) :
    ∀ other ∈ rest, Decision P g p p' runnable s' other := by
  intro other hother
  have hsame : ∀ flag, settledState? g flag (p.settle config.coordinate state).states other =
      settledState? g flag p.states other := by
    intro flag
    apply settledState?_congr
    intro d hd
    apply Progress.get?_settle_of_ne
    intro heq
    exact hindep other hother (by rwa [heq] at hd)
  cases h.decided other hother with
  | settled seen decision untried state => exact .settled seen (hsame _ ▸ decision) untried state
  | tried decision tried => exact .tried (hsame _ ▸ decision) tried

end Settling

theorem settleWave_settling {configs : List Config} (hnodup : (configs.map (·.coordinate)).Nodup)
    (hdeps : ∀ config ∈ configs, ∀ d ∈ g.dependencies config.coordinate,
      d ∉ configs.map (·.coordinate)) (p : Progress) (s : σ) :
    let settled := settleWave P g p configs s
    Settling P g p configs settled.1.1 settled.1.2 settled.2 := by
  induction configs generalizing p s with
  | nil => exact ⟨rfl, .refl _, fun _ _ => rfl, by simp⟩
  | cons config rest ih =>
    obtain ⟨hnew, hrest⟩ := List.nodup_cons.1 hnodup
    have hdepsRest : ∀ config ∈ rest, ∀ d ∈ g.dependencies config.coordinate,
        d ∉ rest.map (·.coordinate) := by
      intro c hc d hd h
      exact hdeps c (List.mem_cons_of_mem _ hc) d hd (List.mem_cons_of_mem _ h)
    have hindep : ∀ other ∈ rest, config.coordinate ∉ g.dependencies other.coordinate := by
      intro other ho hd
      exact hdeps other (List.mem_cons_of_mem _ ho) _ hd List.mem_cons_self
    have hout : config ∉ rest := fun h => hnew (List.mem_map.2 ⟨config, h, rfl⟩)
    rw [settleWave_cons]
    dsimp only
    split
    · rename_i state hstate
      have hlater := ih hrest hdepsRest (p.settle config.coordinate state) (pollFor P config s).2
      dsimp only at hlater
      refine ⟨hlater.context, hlater.sublist.cons config, hlater.others_cons,
        List.forall_mem_cons.2 ⟨?_, hlater.decided_rest hindep⟩⟩
      refine .settled (fun h => ?_) hstate (fun h => hout (hlater.sublist.subset h)) ?_
      · -- The flag stays set while the others are settled.
        exact P.keeps_isCancelled.settleWave g _ rest _ (isCancelled_of_pollFor h)
      · rw [hlater.others _ hnew]
        exact SortedMap.get?_insert_self ..
    · rename_i hstate
      have hlater :=
        ih hrest hdepsRest (p.settle config.coordinate .resolving) (pollFor P config s).2
      dsimp only at hlater
      refine ⟨hlater.context, hlater.sublist.cons_cons config, hlater.others_cons,
        List.forall_mem_cons.2 ⟨?_, fun other ho => ?_⟩⟩
      · rw [flag_of_settledState?_eq_none hstate] at hstate
        exact .tried hstate List.mem_cons_self
      · cases hlater.decided_rest hindep other ho with
        | settled seen decision untried state =>
          refine .settled seen decision (fun h => ?_) state
          rcases List.mem_cons.1 h with rfl | h
          · exact hout ho
          · exact untried h
        | tried decision tried => exact .tried decision (List.mem_cons_of_mem _ tried)

/-! ### Recording -/

/-- The state that the result of an attempt leads to. -/
def ConfigState.ofResult : Except DeployError ResolvedEntity → ConfigState
  | .ok entity => .deployed entity.remoteId
  | .error e => .failed e

theorem ConfigState.ofResult_eq_failed_iff {result : Except DeployError ResolvedEntity}
    {e : DeployError} : ofResult result = .failed e ↔ result = .error e := by
  cases result <;> simp [ofResult]

namespace Attempt

variable {a : Attempt σ}

/-- Records what came of an attempt. -/
def recordIn (a : Attempt σ) (p : Progress) : Progress := p.record a.config.coordinate a.result

theorem get?_states_recordIn (a : Attempt σ) (p : Progress) (c : Coordinate) :
    (a.recordIn p).states.get? c =
      if c = a.config.coordinate then some (.ofResult a.result) else p.states.get? c := by
  unfold recordIn Progress.record
  cases a.result <;> simp [Progress.settle, SortedMap.get?_insert, ConfigState.ofResult]

theorem Ran.get?_context_recordIn (h : a.Ran P vars) (p : Progress) (c : Coordinate) :
    (a.recordIn p).context.get? c =
      if c = a.config.coordinate then a.result.toOption.or (p.context.get? c)
      else p.context.get? c := by
  unfold recordIn Progress.record
  cases hr : a.result with
  | error e => simp [Progress.settle, Except.toOption]
  | ok entity =>
    obtain ⟨_, _, hc⟩ := h.of_ok hr
    simp [Context.insert, Context.get?, SortedMap.get?_insert, hc, Except.toOption]

end Attempt

variable (P vars) in
theorem map_config_attemptAll (ctx : Context) (configs : List Config) (s : σ) :
    (attemptAll P vars ctx configs s).map (·.config) = configs := by
  induction configs generalizing s with
  | nil => rfl
  | cons config rest ih =>
    rw [attemptAll, List.map_cons, ih]
    rfl

theorem ran_of_mem_attemptAll {ctx : Context} {configs : List Config} {s : σ} {a : Attempt σ}
    (ha : a ∈ attemptAll P vars ctx configs s) : a.context = ctx ∧ a.Ran P vars := by
  induction configs generalizing s with
  | nil => cases ha
  | cons config rest ih =>
    rcases List.mem_cons.1 ha with rfl | ha
    · exact ⟨rfl, attempt_ran P vars ctx config s⟩
    · exact ih ha

/-- What is left of an attempt is still there at the end. -/
theorem Platform.Keeps.after_attemptAll {R : σ → σ → Prop} (H : P.Keeps R) {ctx : Context}
    {configs : List Config} {s : σ} {a : Attempt σ} (ha : a ∈ attemptAll P vars ctx configs s) :
    R a.after (Rollout.deployAll P vars ctx configs s).2 := by
  induction configs generalizing s with
  | nil => cases ha
  | cons config rest ih =>
    rcases List.mem_cons.1 ha with rfl | ha
    · exact H.deployAll vars ctx rest _
    · exact ih ha

theorem deployAll_results (ctx : Context) (configs : List Config) (s : σ) :
    (deployAll P vars ctx configs s).1 =
      (attemptAll P vars ctx configs s).map fun a => (a.config.coordinate, a.result) := by
  induction configs generalizing s with
  | nil => rfl
  | cons config rest ih =>
    rw [attemptAll, List.map_cons, ← ih]
    rfl

/-- What attempts at different configs leave behind. -/
structure Recorded (p : Progress) (attempts : List (Attempt σ)) (p' : Progress) : Prop where
  others : ∀ c ∉ attempts.map (·.config.coordinate),
    p'.states.get? c = p.states.get? c ∧ p'.context.get? c = p.context.get? c
  recorded : ∀ a ∈ attempts, p'.states.get? a.config.coordinate = some (.ofResult a.result) ∧
    p'.context.get? a.config.coordinate =
      a.result.toOption.or (p.context.get? a.config.coordinate)

theorem recorded_foldl {attempts : List (Attempt σ)} (hran : ∀ a ∈ attempts, a.Ran P vars)
    (hnodup : (attempts.map (·.config.coordinate)).Nodup) (p : Progress) :
    Recorded p attempts (attempts.foldl (fun p a => a.recordIn p) p) := by
  induction attempts generalizing p with
  | nil => exact ⟨fun _ _ => ⟨rfl, rfl⟩, by simp⟩
  | cons a rest ih =>
    obtain ⟨hnew, hrest⟩ := List.nodup_cons.1 hnodup
    have hlater := ih (fun b hb => hran b (List.mem_cons_of_mem _ hb)) hrest (a.recordIn p)
    have ha := hran a List.mem_cons_self
    refine ⟨?_, List.forall_mem_cons.2 ⟨?_, ?_⟩⟩
    · intro c hc
      rw [List.map_cons, List.mem_cons, not_or] at hc
      obtain ⟨hstates, hcontext⟩ := hlater.others c hc.2
      rw [List.foldl_cons, hstates, hcontext, a.get?_states_recordIn, ha.get?_context_recordIn,
        if_neg hc.1, if_neg hc.1]
      exact ⟨rfl, rfl⟩
    · obtain ⟨hstates, hcontext⟩ := hlater.others _ hnew
      rw [List.foldl_cons, hstates, hcontext, a.get?_states_recordIn, ha.get?_context_recordIn,
        if_pos rfl, if_pos rfl]
      exact ⟨rfl, rfl⟩
    · intro b hb
      obtain ⟨hstates, hcontext⟩ := hlater.recorded b hb
      have hne : b.config.coordinate ≠ a.config.coordinate := by
        intro heq
        exact hnew (List.mem_map.2 ⟨b, hb, heq⟩)
      rw [ha.get?_context_recordIn, if_neg hne] at hcontext
      exact ⟨hstates, hcontext⟩

variable (P vars g) in
/-- A wave settles some configs and records the attempts at the others. -/
theorem deployWave_run (p : Progress) (wave : Wave) (s : σ) :
    let settled := settleWave P g p (wave.filterMap g.config?) s
    let attempts := attemptAll P vars p.context settled.1.2 settled.2
    waveAttempts P vars g p wave s = attempts ∧
      deployWave P vars g p wave s =
        (attempts.foldl (fun p a => a.recordIn p) settled.1.1,
          (deployAll P vars p.context settled.1.2 settled.2).2) := by
  refine ⟨rfl, ?_⟩
  rw [deployWave, bind_run]
  dsimp only
  rw [bind_run, deployAll_results]
  exact Prod.ext List.foldl_map rfl

end Rollout
