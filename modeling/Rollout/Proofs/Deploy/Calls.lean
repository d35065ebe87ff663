import Rollout.Proofs.Deploy.Account
import Rollout.Proofs.Platform.Mutation

/-! The calls of a run, as a supervisor writes them down: they are the calls of its attempts, and an
attempt changes an object on the platform just when it succeeds. -/

namespace Rollout

variable {σ : Type} {P : Platform σ} {vars : Variables} {g : DependencyGraph}
  {supervisor : Supervisor}

/-! ### One attempt -/

variable (P supervisor) in
theorem calls_handle (r : Request) (s : Supervised σ) :
    ((P.supervised supervisor).handle r s).2.calls =
      s.calls ++ [⟨r, ((P.supervised supervisor).handle r s).1⟩] := rfl

/-- Calls that changed just the object that came out, if any did. -/
def Delivers (type : ConfigType) (payload : Payload) (result : Except DeployError String)
    (calls : List Call) : Prop :=
  mutations calls = match result with
    | .ok id => [⟨type, id, payload⟩]
    | .error _ => []

variable (P supervisor) in
theorem discover_delivers (type : ConfigType) (payload : Payload) (s : Supervised σ) :
    let run := discover (P.supervised supervisor) type payload s
    ∃ calls, run.2.calls = s.calls ++ calls ∧ Delivers type payload run.1 calls := by
  rw [discover_run]
  dsimp only
  have hlist := calls_handle P supervisor (.list type) s
  generalize (P.supervised supervisor).handle (.list type) s = listed at *
  obtain ⟨listed, s₁⟩ := listed
  cases listed with
  | error e => exact ⟨_, hlist, rfl⟩
  | ok existing =>
    dsimp only at hlist ⊢
    rcases existing.filter (payload.isFor type.identity) with _ | ⟨object, _ | ⟨_, _⟩⟩
    · have hcreate := calls_handle P supervisor (.create type payload) s₁
      dsimp only
      generalize (P.supervised supervisor).handle (.create type payload) s₁ = created at *
      obtain ⟨created, s₂⟩ := created
      rw [hlist, List.append_assoc] at hcreate
      cases created with
      | error e => exact ⟨_, hcreate, rfl⟩
      | ok id => exact ⟨_, hcreate, rfl⟩
    · have hupdate :=
        calls_handle P supervisor (.update type object.id payload) s₁
      dsimp only
      generalize (P.supervised supervisor).handle (.update type object.id payload) s₁ = updated
        at *
      obtain ⟨updated, s₂⟩ := updated
      rw [hlist, List.append_assoc] at hupdate
      cases updated with
      | error e => exact ⟨_, hupdate, rfl⟩
      | ok _ => exact ⟨_, hupdate, rfl⟩
    · exact ⟨_, hlist, rfl⟩

variable (P supervisor) in
theorem deliver_delivers (config : Config) (payload : Payload) (s : Supervised σ) :
    let run := deliver (P.supervised supervisor) config payload s
    ∃ calls, run.2.calls = s.calls ++ calls ∧ Delivers config.configType payload run.1 calls := by
  rw [deliver_run]
  cases config.originObjectId with
  | none => exact discover_delivers P supervisor config.configType payload s
  | some id =>
    dsimp only
    have hupdate :=
      calls_handle P supervisor (.update config.configType id payload) s
    generalize (P.supervised supervisor).handle (.update config.configType id payload) s = updated
      at *
    obtain ⟨updated, s₁⟩ := updated
    cases updated with
    | ok _ => exact ⟨_, hupdate, rfl⟩
    | error e =>
      dsimp only at hupdate ⊢
      split
      · -- The update of an object that is gone changed nothing.
        obtain ⟨calls, hcalls, hdelivers⟩ := discover_delivers P supervisor
          config.configType payload s₁
        rw [hupdate, List.append_assoc] at hcalls
        exact ⟨_, hcalls, hdelivers⟩
      · exact ⟨_, hupdate, rfl⟩

namespace Attempt

/-- The calls made during an attempt. -/
def calls (a : Attempt (Supervised σ)) : List Call := a.after.calls.drop a.before.calls.length

variable {a : Attempt (Supervised σ)}

theorem calls_eq {calls : List Call} (h : a.after.calls = a.before.calls ++ calls) :
    a.calls = calls := by
  rw [Attempt.calls, h, List.drop_left]

/-- What the calls of an attempt come to. -/
structure Fits (vars : Variables) (a : Attempt (Supervised σ)) : Prop where
  append : a.after.calls = a.before.calls ++ a.calls
  mutations : match a.result with
    | .ok entity => ∃ payload, a.config.prepare vars a.context = .ok (payload, entity.properties) ∧
      mutations a.calls = [⟨a.config.configType, entity.remoteId, payload⟩]
    | .error e => Rollout.mutations a.calls = [] ∧ (e.isOfDelivery = false → a.calls = [])

theorem calls_poll (s : Supervised σ) : ((P.supervised supervisor).poll s).2.calls = s.calls := rfl

theorem Ran.fits (h : a.Ran (P.supervised supervisor) vars) : a.Fits vars := by
  cases h with
  | cancelled _ result after =>
    have hcalls : a.calls = [] := calls_eq (by rw [after, calls_poll, List.append_nil])
    refine ⟨by rw [after, hcalls, calls_poll, List.append_nil], ?_⟩
    rw [result, hcalls]
    exact ⟨rfl, fun _ => rfl⟩
  | unprepared _ prepare result after =>
    have hcalls : a.calls = [] := calls_eq (by rw [after, calls_poll, List.append_nil])
    refine ⟨by rw [after, hcalls, calls_poll, List.append_nil], ?_⟩
    rw [result, hcalls]
    exact ⟨rfl, fun _ => rfl⟩
  | @delivered _ payload values prepare result after =>
    obtain ⟨calls, hcalls, hdelivers⟩ := deliver_delivers P supervisor
      a.config payload ((P.supervised supervisor).poll a.before).2
    rw [← after, calls_poll] at hcalls
    have heq := calls_eq hcalls
    refine ⟨heq ▸ hcalls, ?_⟩
    rw [result, heq]
    unfold Delivers at hdelivers
    cases hrun : (deliver (P.supervised supervisor) a.config payload
        ((P.supervised supervisor).poll a.before).2).1 with
    | ok id =>
      rw [hrun] at hdelivers
      exact ⟨payload, prepare, hdelivers⟩
    | error e =>
      rw [hrun] at hdelivers
      refine ⟨hdelivers, fun hnot => ?_⟩
      cases (deliver_error hrun).symm.trans hnot

end Attempt

/-! ### All attempts -/

theorem deployAll_calls (ctx : Context) (configs : List Config) (s : Supervised σ) :
    (deployAll (P.supervised supervisor) vars ctx configs s).2.calls =
      s.calls ++ (attemptAll (P.supervised supervisor) vars ctx configs s).flatMap
        Attempt.calls := by
  induction configs generalizing s with
  | nil => exact (List.append_nil _).symm
  | cons config rest ih =>
    have hfits := (attempt_ran (P.supervised supervisor) vars ctx config s).fits
    rw [attemptAll, List.flatMap_cons, ← List.append_assoc]
    exact hfits.append ▸ ih _

/-- Nothing is asked of the platform while configs are settled. -/
theorem idles_calls : (P.supervised supervisor).Idles fun s t => t.calls = s.calls where
  refl _ := rfl
  trans h h' := h'.trans h
  elapse _ := rfl

theorem deployWave_calls (p : Progress) (wave : Wave) (s : Supervised σ) :
    (deployWave (P.supervised supervisor) vars g p wave s).2.calls =
      s.calls ++ (waveAttempts (P.supervised supervisor) vars g p wave s).flatMap
        Attempt.calls := by
  obtain ⟨hattempts, hrun⟩ := deployWave_run (P.supervised supervisor) vars g p wave s
  rw [hrun, hattempts, deployAll_calls, idles_calls.settleWave g p _ s]

theorem deployWaves_calls (p : Progress) (waves : List Wave) (s : Supervised σ) :
    (deployWaves (P.supervised supervisor) vars g p waves s).2.calls =
      s.calls ++ (wavesAttempts (P.supervised supervisor) vars g p waves s).flatMap
        Attempt.calls := by
  induction waves generalizing p s with
  | nil => exact (List.append_nil _).symm
  | cons wave rest ih =>
    rw [wavesAttempts_cons, List.flatMap_append, ← List.append_assoc, ← deployWave_calls]
    exact ih _ _

variable (P vars supervisor) in
/-- The calls of a run are those of its attempts, in order. -/
theorem deployEnvironment_calls (environment : String) (configs : List Config)
    (s : Supervised σ) :
    (deployEnvironment (P.supervised supervisor) vars environment configs s).2.calls =
      s.calls ++ (history (P.supervised supervisor) vars configs s).flatMap Attempt.calls := by
  unfold deployEnvironment history
  cases DependencyGraph.build configs with
  | error errors => exact (List.append_nil _).symm
  | ok g =>
    cases hwaves : g.waves with
    | error e =>
      dsimp only
      rw [hwaves]
      exact (List.append_nil _).symm
    | ok waves =>
      dsimp only
      rw [hwaves]
      exact deployWaves_calls (.start g) waves s

end Rollout
