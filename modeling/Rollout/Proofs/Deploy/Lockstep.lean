import Rollout.Proofs.Deploy.Stopping

/-! Two runs of the same configs side by side. Which config is tried next, and in which context, is
decided by the results so far alone. So it is enough to look at attempts that begin alike after
attempts that went alike. -/

namespace Rollout

variable {σ τ : Type} {P : Platform σ} {P' : Platform τ} {vars : Variables} {g : DependencyGraph}
  {configs : List Config} {S : Attempt σ → Attempt τ → Prop}

/-- The attempts are made at the same config in the same context. -/
structure Attempt.Parallels (a : Attempt σ) (b : Attempt τ) : Prop where
  config : b.config = a.config
  context : b.context = a.context

/-- And they have the same result. -/
structure Attempt.Agrees (a : Attempt σ) (b : Attempt τ) : Prop extends a.Parallels b where
  result : b.result = a.result

/-- After attempts that are related by `S`, parallel ones are related again. -/
def Advances (S : Attempt σ → Attempt τ → Prop) (attempts : List (Attempt σ))
    (attempts' : List (Attempt τ)) : Prop :=
  ∀ before a after before' b after', attempts = before ++ a :: after →
    attempts' = before' ++ b :: after' → List.Forall₂ S before before' → a.Parallels b → S a b

/-- Lists that are related are so up to each point. -/
theorem exists_of_forall₂_append {α β : Type} {R : α → β → Prop} {before after : List α} {a : α}
    {l : List β} (h : List.Forall₂ R (before ++ a :: after) l) :
    ∃ before' b after', l = before' ++ b :: after' ∧ List.Forall₂ R before before' ∧ R a b := by
  induction before generalizing l with
  | nil =>
    cases h with
    | cons hab _ => exact ⟨[], _, _, rfl, .nil, hab⟩
  | cons c before ih =>
    cases h with
    | cons hc hrest =>
      obtain ⟨before', b, after', rfl, hbefore, hab⟩ := ih hrest
      exact ⟨_ :: before', b, after', rfl, .cons hc hbefore, hab⟩

namespace Advances

variable {attempts later : List (Attempt σ)} {attempts' later' : List (Attempt τ)}

theorem left (h : Advances S (attempts ++ later) (attempts' ++ later')) :
    Advances S attempts attempts' := by
  rintro before a after before' b after' rfl rfl
  exact h before a (after ++ later) before' b (after' ++ later') (List.append_assoc ..)
    (List.append_assoc ..)

theorem right (h : Advances S (attempts ++ later) (attempts' ++ later'))
    (hattempts : List.Forall₂ S attempts attempts') : Advances S later later' := by
  rintro before a after before' b after' rfl rfl hbefore
  exact h _ a after _ b after' (List.append_assoc ..).symm (List.append_assoc ..).symm
    (List.rel_append hattempts hbefore)

end Advances

theorem forall₂_attemptAll (ctx : Context) (configs : List Config) (s : σ) (s' : τ)
    (h : Advances S (attemptAll P vars ctx configs s) (attemptAll P' vars ctx configs s')) :
    List.Forall₂ S (attemptAll P vars ctx configs s) (attemptAll P' vars ctx configs s') := by
  induction configs generalizing s s' with
  | nil => exact .nil
  | cons config rest ih =>
    have hfirst : S (attempt P vars ctx config s) (attempt P' vars ctx config s') :=
      h [] _ _ [] _ _ rfl rfl .nil ⟨rfl, rfl⟩
    have hrest : Advances S (attemptAll P vars ctx rest _) (attemptAll P' vars ctx rest _) :=
      Advances.right h (.cons hfirst .nil)
    exact .cons hfirst (ih _ _ hrest)

/-- Without the flag, only the progress decides about what is tried. -/
theorem settleWave_fst (hP : ∀ s, P.isCancelled s = false) (hP' : ∀ s, P'.isCancelled s = false)
    (p : Progress) (configs : List Config) (s : σ) (s' : τ) :
    (settleWave P g p configs s).1 = (settleWave P' g p configs s').1 := by
  induction configs generalizing p s s' with
  | nil => rfl
  | cons config rest ih =>
    have hpolled : (pollFor P config s).1 = (pollFor P' config s').1 := by
      unfold pollFor
      split
      · rfl
      · exact (hP _).trans (hP' _).symm
    rw [settleWave_cons, settleWave_cons]
    dsimp only
    rw [hpolled]
    split
    · exact ih ..
    · rw [ih _ _ (pollFor P' config s').2]

theorem foldl_recordIn_eq {attempts : List (Attempt σ)} {attempts' : List (Attempt τ)}
    (h : List.Forall₂ Attempt.Agrees attempts attempts') (p : Progress) :
    attempts.foldl (fun p a => a.recordIn p) p = attempts'.foldl (fun p b => b.recordIn p) p := by
  induction h generalizing p with
  | nil => rfl
  | cons hagrees _ ih =>
    rw [List.foldl_cons, List.foldl_cons, ih, Attempt.recordIn, Attempt.recordIn, hagrees.config,
      hagrees.result]

section

variable (hP : ∀ s, P.isCancelled s = false) (hP' : ∀ s, P'.isCancelled s = false)
  (hS : ∀ a b, S a b → a.Agrees b)

include hP hP' hS

theorem forall₂_waveAttempts (p : Progress) (wave : Wave) (s : σ) (s' : τ)
    (h : Advances S (waveAttempts P vars g p wave s) (waveAttempts P' vars g p wave s')) :
    List.Forall₂ S (waveAttempts P vars g p wave s) (waveAttempts P' vars g p wave s') ∧
      (deployWave P vars g p wave s).1 = (deployWave P' vars g p wave s').1 := by
  obtain ⟨hattempts, hrun⟩ := deployWave_run P vars g p wave s
  obtain ⟨hattempts', hrun'⟩ := deployWave_run P' vars g p wave s'
  rw [hattempts, hattempts'] at h ⊢
  rw [hrun, hrun']
  dsimp only
  rw [settleWave_fst hP hP' p _ s s'] at h ⊢
  have hall := forall₂_attemptAll _ _ _ _ h
  exact ⟨hall, foldl_recordIn_eq (hall.imp hS) _⟩

theorem forall₂_wavesAttempts (p : Progress) (waves : List Wave) (s : σ) (s' : τ)
    (h : Advances S (wavesAttempts P vars g p waves s) (wavesAttempts P' vars g p waves s')) :
    List.Forall₂ S (wavesAttempts P vars g p waves s) (wavesAttempts P' vars g p waves s') ∧
      (deployWaves P vars g p waves s).1 = (deployWaves P' vars g p waves s').1 := by
  induction waves generalizing p s s' with
  | nil => exact ⟨.nil, rfl⟩
  | cons wave rest ih =>
    rw [wavesAttempts_cons, wavesAttempts_cons] at h ⊢
    rw [deployWaves_cons, deployWaves_cons]
    obtain ⟨hwave, hprogress⟩ := forall₂_waveAttempts hP hP' hS p wave s s' h.left
    have hrest := h.right hwave
    dsimp only at hrest ⊢
    rw [← hprogress] at hrest ⊢
    obtain ⟨hall, hlast⟩ := ih _ _ _ hrest
    exact ⟨List.rel_append hwave hall, hlast⟩

end

/-- Two runs that nobody stops, and whose attempts go alike step by step. -/
theorem forall₂_history (hP : P.IsQuiet) (hP' : P'.IsQuiet) (hS : ∀ a b, S a b → a.Agrees b)
    (environment : String) {s : σ} {s' : τ}
    (hset : P.isCancelled (deployEnvironment P vars environment configs s).2 = false)
    (hset' : P'.isCancelled (deployEnvironment P' vars environment configs s').2 = false)
    (h : Advances S (history P vars configs s) (history P' vars configs s')) :
    List.Forall₂ S (history P vars configs s) (history P' vars configs s') ∧
      (deployEnvironment P vars environment configs s).1 =
        (deployEnvironment P' vars environment configs s').1 := by
  cases hbuild : DependencyGraph.build configs with
  | error errors =>
    rw [deployEnvironment_of_error hbuild, deployEnvironment_of_error hbuild, history, history,
      hbuild]
    exact ⟨.nil, rfl⟩
  | ok g =>
    obtain ⟨waves, hwaves, _⟩ :=
      DependencyGraph.exists_waves (DependencyGraph.isGraphOf_of_build hbuild)
    obtain ⟨hrun, hhistory⟩ := deployEnvironment_run P vars hbuild hwaves environment s
    obtain ⟨hrun', hhistory'⟩ := deployEnvironment_run P' vars hbuild hwaves environment s'
    rw [hrun] at hset ⊢
    rw [hrun'] at hset' ⊢
    obtain ⟨hattempts, hwaves⟩ := deployWaves_of_unset hP (.start g) waves hset
    obtain ⟨hattempts', hwaves'⟩ := deployWaves_of_unset hP' (.start g) waves hset'
    rw [hhistory, hhistory', hattempts, hattempts'] at h ⊢
    rw [hwaves, hwaves']
    obtain ⟨hall, hlast⟩ :=
      forall₂_wavesAttempts (fun _ => rfl) (fun _ => rfl) hS (.start g) waves s s' h
    refine ⟨hall, ?_⟩
    dsimp only
    rw [hlast]

/-! ### Reports that agree -/

/-- Parallel attempts that are reported alike, the first of which succeeded. -/
theorem Attempt.Parallels.agrees {a : Attempt σ} {b : Attempt τ} (h : a.Parallels b)
    (ha : a.Ran P vars) (hb : b.Ran P' vars) {entity : ResolvedEntity}
    (hresult : a.result = .ok entity)
    (hstate : ConfigState.ofResult b.result = .ofResult a.result) : a.Agrees b := by
  refine ⟨h, ?_⟩
  rw [hresult] at hstate ⊢
  cases hresult' : b.result with
  | error e =>
    rw [hresult'] at hstate
    cases hstate
  | ok other =>
    obtain ⟨_, hprepare, hcoordinate⟩ := ha.of_ok hresult
    obtain ⟨_, hprepare', hcoordinate'⟩ := hb.of_ok hresult'
    rw [h.config, h.context] at hprepare'
    rw [h.config, ← hcoordinate] at hcoordinate'
    rw [hresult'] at hstate
    have hid : other.remoteId = entity.remoteId := ConfigState.deployed.inj hstate
    have hproperties : entity.properties = other.properties :=
      congrArg Prod.snd (Except.ok.inj (hprepare.symm.trans hprepare'))
    cases other
    cases entity
    cases hid
    cases hproperties
    cases hcoordinate'
    rfl

/-- Two runs that are reported alike go alike step by step. -/
theorem Completed.advances {report report' : DeployReport} {context context' : Context}
    {attempts : List (Attempt σ)} {attempts' : List (Attempt τ)} {s : σ} {s' : τ}
    (h : Completed P vars g configs report context attempts s)
    (h' : Completed P' vars g configs report' context' attempts' s')
    (hstates : report'.states = report.states)
    (hok : ∀ a ∈ attempts, ∃ entity, a.result = .ok entity) :
    Advances Attempt.Agrees attempts attempts' := by
  rintro before a after before' b after' rfl rfl _ hparallel
  obtain ⟨entity, hresult⟩ := hok a (by simp)
  obtain ⟨_, hran, _, hstate⟩ := h.tried (a := a) (by simp)
  obtain ⟨_, hran', _, hstate'⟩ := h'.tried (a := b) (by simp)
  rw [hstates, hparallel.config, hstate] at hstate'
  exact hparallel.agrees hran hran' hresult (Option.some.inj hstate').symm

end Rollout
