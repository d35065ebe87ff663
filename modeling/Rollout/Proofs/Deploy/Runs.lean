import Rollout.Deploy.History
import Rollout.Platform.Supervised
import Rollout.Proofs.Deploy.Prepare

/-! How a run moves the state of its platform, and how its history fits the run. -/

namespace Rollout

variable {σ α β : Type} {P : Platform σ} {vars : Variables}

/-! ### Relations between the states before and after -/

/-- Wherever it starts, a computation moves the state along `R`. -/
def Moves (R : σ → σ → Prop) (m : StateM σ α) : Prop := ∀ s, R s (m s).2

/-- Time alone moves the state of the platform along `R`. -/
structure Platform.Idles (P : Platform σ) (R : σ → σ → Prop) : Prop where
  refl : ∀ s, R s s
  trans : ∀ {s t u}, R s t → R t u → R s u
  elapse : ∀ s, R s (P.elapse s)

namespace Platform.Idles

variable {R : σ → σ → Prop} (H : P.Idles R)

include H

theorem pure (a : α) : Moves R (pure a : StateM σ α) := H.refl

theorem bind {m : StateM σ α} {f : α → StateM σ β} (hm : Moves R m) (hf : ∀ a, Moves R (f a)) :
    Moves R (m >>= f) := fun s => H.trans (hm s) (hf _ _)

theorem poll : Moves R P.poll := H.elapse

theorem pollFor (config : Config) : Moves R (pollFor P config) := by
  unfold Rollout.pollFor
  split
  · exact H.pure false
  · exact H.poll

theorem settleWave (g : DependencyGraph) (p : Progress) (configs : List Config) :
    Moves R (settleWave P g p configs) := by
  induction configs generalizing p with
  | nil => exact H.pure _
  | cons config rest ih =>
    apply H.bind (H.pollFor config)
    intro cancelled
    split
    · exact ih _
    · exact H.bind (ih _) fun _ => H.pure _

end Platform.Idles

/-- Whatever happens to the platform moves its state along `R`. -/
structure Platform.Keeps (P : Platform σ) (R : σ → σ → Prop) : Prop extends P.Idles R where
  handle : ∀ r, Moves R (P.handle r)

namespace Platform.Keeps

variable {R : σ → σ → Prop} (H : P.Keeps R)

include H

theorem discover (type : ConfigType) (payload : Payload) :
    Moves R (discover P type payload) := by
  apply H.bind (H.handle _)
  intro listed
  cases listed with
  | error e => exact H.pure _
  | ok existing =>
    dsimp only
    split
    · apply H.bind (H.handle _)
      intro created
      cases created <;> exact H.pure _
    · apply H.bind (H.handle _)
      intro updated
      cases updated <;> exact H.pure _
    · exact H.pure _

theorem deliver (config : Config) (payload : Payload) : Moves R (deliver P config payload) := by
  unfold Rollout.deliver
  split
  · exact H.discover _ _
  · apply H.bind (H.handle _)
    intro updated
    cases updated with
    | error e =>
      dsimp only
      split
      · exact H.discover _ _
      · exact H.pure _
    | ok _ => exact H.pure _

theorem deployConfig (vars : Variables) (ctx : Context) (config : Config) :
    Moves R (deployConfig P vars ctx config) := by
  apply H.bind H.poll
  intro cancelled
  split
  · exact H.pure _
  · split
    · exact H.pure _
    · apply H.bind (H.deliver _ _)
      intro delivered
      cases delivered <;> exact H.pure _

theorem deployAll (vars : Variables) (ctx : Context) (configs : List Config) :
    Moves R (deployAll P vars ctx configs) := by
  induction configs with
  | nil => exact H.pure _
  | cons config rest ih =>
    exact H.bind (H.deployConfig vars ctx config) fun _ => H.bind ih fun _ => H.pure _

theorem deployWave (vars : Variables) (g : DependencyGraph) (p : Progress) (wave : Wave) :
    Moves R (deployWave P vars g p wave) :=
  H.bind (H.settleWave _ _ _) fun _ => H.bind (H.deployAll _ _ _) fun _ => H.pure _

theorem deployWaves (vars : Variables) (g : DependencyGraph) (p : Progress) (waves : List Wave) :
    Moves R (deployWaves P vars g p waves) := by
  induction waves generalizing p with
  | nil => exact H.pure _
  | cons wave rest ih =>
    apply H.bind (H.deployWave vars g p wave)
    intro p
    exact ih p

theorem deployEnvironment (vars : Variables) (environment : String) (configs : List Config) :
    Moves R (deployEnvironment P vars environment configs) := by
  unfold Rollout.deployEnvironment
  split
  · exact H.pure _
  · split
    · exact H.pure _
    · exact H.bind (H.deployWaves _ _ _ _) fun _ => H.pure _

theorem deployNamed (vars : Variables) (projects : List Project) (names : List String)
    (results : SortedMap String EnvironmentResult) :
    Moves R (deployNamed P vars projects names results) := by
  induction names generalizing results with
  | nil => exact H.pure _
  | cons name rest ih => exact H.bind (H.deployEnvironment vars name _) fun _ => ih _

end Platform.Keeps

/-- The flag stays set. -/
theorem Platform.keeps_isCancelled (P : Platform σ) :
    P.Keeps fun s t => P.isCancelled s → P.isCancelled t where
  refl _ h := h
  trans h h' := fun hs => h' (h hs)
  elapse s := P.isCancelled_elapse s
  handle r s := P.isCancelled_handle r s

/-! ### One attempt -/

theorem bind_run (m : StateM σ α) (f : α → StateM σ β) (s : σ) :
    (m >>= f) s = f (m s).1 (m s).2 := rfl

theorem discover_run (type : ConfigType) (payload : Payload) (s : σ) :
    discover P type payload s =
      let listed := P.handle (.list type) s
      match listed.1 with
      | .error e => (.error (.remote e), listed.2)
      | .ok existing =>
        match existing.filter (payload.isFor type.identity) with
        | [] =>
          let created := P.handle (.create type payload) listed.2
          (created.1.mapError .remote, created.2)
        | [object] =>
          let updated := P.handle (.update type object.id payload) listed.2
          ((updated.1.map fun _ => object.id).mapError .remote, updated.2)
        | several => (.error (.ambiguous (payload.name.getD "") several.length), listed.2) := by
  rw [discover, bind_run]
  dsimp only
  cases (P.handle (.list type) s).1 with
  | error e => rfl
  | ok existing =>
    dsimp only
    rcases existing.filter (payload.isFor type.identity) with _ | ⟨object, _ | ⟨_, _⟩⟩
    · dsimp only
      rw [bind_run]
      cases (P.handle (.create type payload) (P.handle (.list type) s).2).1 <;> rfl
    · dsimp only
      rw [bind_run]
      cases (P.handle (.update type object.id payload) (P.handle (.list type) s).2).1 <;> rfl
    · rfl

theorem deliver_run (config : Config) (payload : Payload) (s : σ) :
    deliver P config payload s =
      match config.originObjectId with
      | none => discover P config.configType payload s
      | some id =>
        let updated := P.handle (.update config.configType id payload) s
        match updated.1 with
        | .ok _ => (.ok id, updated.2)
        | .error e =>
          if e.isNotFound then discover P config.configType payload updated.2
          else (.error (.remote e), updated.2) := by
  rw [deliver]
  cases config.originObjectId with
  | none => rfl
  | some id =>
    dsimp only
    rw [bind_run]
    cases (P.handle (.update config.configType id payload) s).1 with
    | ok _ => rfl
    | error e =>
      dsimp only
      by_cases hgone : e.isNotFound = true
      · rw [if_pos hgone, if_pos hgone]
      · rw [if_neg hgone, if_neg hgone]
        rfl

theorem discover_error {type : ConfigType} {payload : Payload} {s : σ} {e : DeployError}
    (h : (discover P type payload s).1 = .error e) : e.isOfDelivery := by
  rw [discover_run] at h
  dsimp only at h
  split at h
  · cases h
    rfl
  · split at h
    · cases hc : (P.handle (.create type payload) (P.handle (.list type) s).2).1 <;>
        rw [hc] at h <;> cases h
      rfl
    · rename_i object _
      cases hu : (P.handle (.update type object.id payload) (P.handle (.list type) s).2).1 <;>
        rw [hu] at h <;> cases h
      rfl
    · cases h
      rfl

theorem deliver_error {config : Config} {payload : Payload} {s : σ} {e : DeployError}
    (h : (deliver P config payload s).1 = .error e) : e.isOfDelivery := by
  rw [deliver_run] at h
  dsimp only at h
  split at h
  · exact discover_error h
  · split at h
    · cases h
    · split at h
      · exact discover_error h
      · cases h
        rfl

/-- How an attempt can go. -/
inductive Attempt.Ran (P : Platform σ) (vars : Variables) (a : Attempt σ) : Prop
  | cancelled (flag : a.startsResolving P = false) (result : a.result = .error .cancelled)
    (after : a.after = (P.poll a.before).2)
  | unprepared (flag : a.startsResolving P = true) {e : DeployError}
    (prepare : a.config.prepare vars a.context = .error e) (result : a.result = .error e)
    (after : a.after = (P.poll a.before).2)
  | delivered (flag : a.startsResolving P = true) {payload : Payload}
    {values : SortedMap String Json}
    (prepare : a.config.prepare vars a.context = .ok (payload, values))
    (result : a.result = (deliver P a.config payload (P.poll a.before).2).1.map fun id =>
      ⟨a.config.coordinate, id, values⟩)
    (after : a.after = (deliver P a.config payload (P.poll a.before).2).2)

variable (P vars) in
theorem deployConfig_run (ctx : Context) (config : Config) (s : σ) :
    deployConfig P vars ctx config s =
      if (P.poll s).1 then (.error .cancelled, (P.poll s).2)
      else match config.prepare vars ctx with
        | .error e => (.error e, (P.poll s).2)
        | .ok (payload, values) =>
          ((deliver P config payload (P.poll s).2).1.map fun id =>
            ⟨config.coordinate, id, values⟩, (deliver P config payload (P.poll s).2).2) := by
  rw [deployConfig, bind_run]
  split
  · rfl
  · cases config.prepare vars ctx with
    | error e => rfl
    | ok prepared =>
      dsimp only
      rw [bind_run]
      cases (deliver P config prepared.1 (P.poll s).2).1 <;> rfl

variable (P vars) in
theorem attempt_ran (ctx : Context) (config : Config) (s : σ) :
    (attempt P vars ctx config s).Ran P vars := by
  have hrun := deployConfig_run P vars ctx config s
  cases hflag : (P.poll s).1 with
  | true =>
    rw [hflag, if_pos rfl] at hrun
    exact .cancelled (by simp [attempt, Attempt.startsResolving, hflag])
      (congrArg Prod.fst hrun) (congrArg Prod.snd hrun)
  | false =>
    have hstarts : (attempt P vars ctx config s).startsResolving P = true := by
      simp [attempt, Attempt.startsResolving, hflag]
    rw [hflag, if_neg (by simp)] at hrun
    cases hprepare : config.prepare vars ctx with
    | error e =>
      rw [hprepare] at hrun
      exact .unprepared hstarts hprepare (congrArg Prod.fst hrun) (congrArg Prod.snd hrun)
    | ok prepared =>
      rw [hprepare] at hrun
      exact .delivered hstarts hprepare (congrArg Prod.fst hrun) (congrArg Prod.snd hrun)

namespace Attempt

variable {a : Attempt σ}

private theorem poll_snd_of_fst {s : σ} (h : (P.poll s).1 = true) :
    P.isCancelled (P.poll s).2 = true := h

/-- Only an attempt that sees the flag ends as cancelled. -/
theorem Ran.of_error (h : a.Ran P vars) {e : DeployError} (hr : a.result = .error e) :
    (e = .cancelled ∧ P.isCancelled a.after = true) ∨
      a.config.prepare vars a.context = .error e ∨ e.isOfDelivery := by
  cases h with
  | cancelled flag result after =>
    cases result.symm.trans hr
    rw [after]
    exact .inl ⟨rfl, poll_snd_of_fst (by simpa [startsResolving] using flag)⟩
  | unprepared _ prepare result =>
    cases result.symm.trans hr
    exact .inr (.inl prepare)
  | @delivered _ payload _ _ result =>
    cases hd : (deliver P a.config payload (P.poll a.before).2).1 with
    | ok id =>
      rw [hd] at result
      cases result.symm.trans hr
    | error e =>
      rw [hd] at result
      cases result.symm.trans hr
      exact .inr (.inr (deliver_error hd))

/-- A config that was deployed left an entity with its own coordinate and values. -/
theorem Ran.of_ok (h : a.Ran P vars) {entity : ResolvedEntity} (hr : a.result = .ok entity) :
    ∃ payload, a.config.prepare vars a.context = .ok (payload, entity.properties) ∧
      entity.coordinate = a.config.coordinate := by
  cases h with
  | cancelled _ result => cases result.symm.trans hr
  | unprepared _ _ result => cases result.symm.trans hr
  | @delivered _ payload _ prepare result =>
    cases hd : (deliver P a.config payload (P.poll a.before).2).1 with
    | ok id =>
      rw [hd] at result
      cases result.symm.trans hr
      exact ⟨_, prepare, rfl⟩
    | error e =>
      rw [hd] at result
      cases result.symm.trans hr

theorem Ran.keeps {R : σ → σ → Prop} (h : a.Ran P vars) (hkeeps : P.Keeps R) :
    R a.before a.after := by
  cases h with
  | cancelled _ _ after => exact after ▸ hkeeps.poll _
  | unprepared _ _ _ after => exact after ▸ hkeeps.poll _
  | delivered _ _ _ after => exact after ▸ hkeeps.trans (hkeeps.poll _) (hkeeps.deliver _ _ _)

end Attempt

end Rollout
