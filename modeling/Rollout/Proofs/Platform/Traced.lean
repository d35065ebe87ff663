import Rollout.Platform.Traced
import Rollout.Proofs.Platform.Serving

/-! Platforms that keep a trace of their states, to speak of every point of a run. The trace makes no
difference to the run: whatever is done on such a platform mirrors what is done on the bare one. -/

namespace Rollout

variable {σ τ α β : Type} {P : Platform σ} {P' : Platform τ} {π : τ → σ} {policy : StorePolicy}
  {view : σ → Store}

/-! ### Platforms with something on the side -/

/-- One computation does what the other does, seen through `π`. -/
def Mirrors (π : τ → σ) (m : StateM τ α) (m' : StateM σ α) : Prop :=
  ∀ t, m' (π t) = ((m t).1, π (m t).2)

/-- One platform does what the other does. -/
structure Platform.Mirrors (P' : Platform τ) (P : Platform σ) (π : τ → σ) : Prop where
  handle : ∀ r, Rollout.Mirrors π (P'.handle r) (P.handle r)
  isCancelled : ∀ t, P.isCancelled (π t) = P'.isCancelled t
  elapse : ∀ t, P.elapse (π t) = π (P'.elapse t)

theorem Mirrors.pure (π : τ → σ) (a : α) : Mirrors π (pure a) (pure a) := fun _ => rfl

theorem Mirrors.bind {m : StateM τ α} {m' : StateM σ α} {f : α → StateM τ β} {f' : α → StateM σ β}
    (hm : Mirrors π m m') (hf : ∀ a, Mirrors π (f a) (f' a)) : Mirrors π (m >>= f) (m' >>= f') := by
  intro t
  rw [bind_run, bind_run, hm t]
  exact hf _ _

namespace Platform.Mirrors

variable (H : P'.Mirrors P π)

include H

theorem poll : Rollout.Mirrors π P'.poll P.poll := by
  intro t
  show (P.isCancelled (P.elapse (π t)), P.elapse (π t)) =
    (P'.isCancelled (P'.elapse t), π (P'.elapse t))
  rw [H.elapse, H.isCancelled]

theorem settleWave (g : DependencyGraph) (p : Progress) (configs : List Config) :
    Rollout.Mirrors π (settleWave P' g p configs) (settleWave P g p configs) := by
  induction configs generalizing p with
  | nil => exact .pure π _
  | cons config rest ih =>
    have hpoll : Rollout.Mirrors π (pollFor P' config) (pollFor P config) := by
      unfold pollFor
      split
      · exact .pure π false
      · exact H.poll
    apply hpoll.bind
    intro cancelled
    dsimp only
    split
    · exact ih _
    · exact (ih _).bind fun _ => .pure π _

theorem discover (type : ConfigType) (payload : Payload) :
    Rollout.Mirrors π (discover P' type payload) (discover P type payload) := by
  apply (H.handle _).bind
  intro listed
  cases listed with
  | error e => exact .pure π _
  | ok existing =>
    dsimp only
    split
    · apply (H.handle _).bind
      intro created
      cases created <;> exact .pure π _
    · apply (H.handle _).bind
      intro updated
      cases updated <;> exact .pure π _
    · exact .pure π _

theorem deliver (config : Config) (payload : Payload) :
    Rollout.Mirrors π (deliver P' config payload) (deliver P config payload) := by
  unfold Rollout.deliver
  split
  · exact H.discover _ _
  · apply (H.handle _).bind
    intro updated
    cases updated with
    | error e =>
      dsimp only
      split
      · exact H.discover _ _
      · exact .pure π _
    | ok _ => exact .pure π _

theorem deployConfig (vars : Variables) (ctx : Context) (config : Config) :
    Rollout.Mirrors π (deployConfig P' vars ctx config) (deployConfig P vars ctx config) := by
  apply H.poll.bind
  intro cancelled
  split
  · exact .pure π _
  · split
    · exact .pure π _
    · apply (H.deliver _ _).bind
      intro delivered
      cases delivered <;> exact .pure π _

theorem deployAll (vars : Variables) (ctx : Context) (configs : List Config) :
    Rollout.Mirrors π (deployAll P' vars ctx configs) (deployAll P vars ctx configs) := by
  induction configs with
  | nil => exact .pure π _
  | cons config rest ih =>
    exact (H.deployConfig vars ctx config).bind fun _ => ih.bind fun _ => .pure π _

theorem deployWaves (vars : Variables) (g : DependencyGraph) (p : Progress) (waves : List Wave) :
    Rollout.Mirrors π (deployWaves P' vars g p waves) (deployWaves P vars g p waves) := by
  induction waves generalizing p with
  | nil => exact .pure π _
  | cons wave rest ih =>
    have hwave : Rollout.Mirrors π (deployWave P' vars g p wave) (deployWave P vars g p wave) :=
      (H.settleWave g p _).bind fun _ => (H.deployAll vars _ _).bind fun _ => .pure π _
    exact hwave.bind fun p => ih p

theorem deployEnvironment (vars : Variables) (environment : String) (configs : List Config) :
    Rollout.Mirrors π (deployEnvironment P' vars environment configs)
      (deployEnvironment P vars environment configs) := by
  unfold Rollout.deployEnvironment
  split
  · exact .pure π _
  · split
    · exact .pure π _
    · exact (H.deployWaves vars _ _ _).bind fun _ => .pure π _

end Platform.Mirrors

/-! ### Traces -/

namespace Traced

/-- `R` leads from one state to the other and to all that are visited in between. -/
def Along (R : σ → σ → Prop) (s t : Traced σ) : Prop :=
  R s.now t.now ∧ ∀ u ∈ t.visited, u ∈ s.visited ∨ R s.now u

variable {R : σ → σ → Prop}

theorem along_visit {s : Traced σ} {t : σ} (h : R s.now t) : Along R s (s.visit t) := by
  refine ⟨h, fun u hu => ?_⟩
  rcases List.mem_append.1 hu with hu | hu
  · exact .inl hu
  · exact .inr (List.mem_singleton.1 hu ▸ h)

end Traced

namespace Platform

theorem traced_mirrors (P : Platform σ) : P.traced.Mirrors P Traced.now where
  handle _ _ := rfl
  isCancelled _ := rfl
  elapse _ := rfl

variable {R : σ → σ → Prop}

theorem Idles.traced (h : P.Idles R) : P.traced.Idles (Traced.Along R) where
  refl s := ⟨h.refl s.now, fun _ => .inl⟩
  trans hs ht := by
    refine ⟨h.trans hs.1 ht.1, fun u hu => ?_⟩
    rcases ht.2 u hu with hu | hu
    · exact hs.2 u hu
    · exact .inr (h.trans hs.1 hu)
  elapse s := Traced.along_visit (h.elapse s.now)

theorem Tracks.traced (h : P.Tracks view R) :
    P.traced.Tracks (view ·.now) (Traced.Along R) where
  toIdles := h.toIdles.traced
  handle r s hfits := Traced.along_visit (h.handle r s.now hfits)

theorem Serves.traced (h : P.Serves policy view) :
    P.traced.Serves policy (view ·.now) where
  handle r s := h.handle r s.now
  elapse s := h.elapse s.now

end Platform

end Rollout
