import Rollout.Proofs.Deploy.Account

/-! A run as its attempts one after another, between which nothing but time happens to the platform.
What every attempt does to the platform is what the run does. -/

namespace Rollout

variable {σ : Type} {P : Platform σ} {vars : Variables} {g : DependencyGraph}
  {attempts later : List (Attempt σ)} {s t u : σ} {R : σ → σ → Prop}

/-- Time passes, as often as the flag is looked at. -/
def Platform.Idle (P : Platform σ) : σ → σ → Prop :=
  Relation.ReflTransGen fun s t => t = P.elapse s

theorem Platform.idles_idle (P : Platform σ) : P.Idles P.Idle where
  refl _ := .refl
  trans := .trans
  elapse _ := .single rfl

theorem Platform.Idles.of_idle (h : P.Idles R) (hidle : P.Idle s t) : R s t := by
  induction hidle with
  | refl => exact h.refl s
  | tail _ heq ih => exact h.trans ih (heq ▸ h.elapse _)

/-- Attempts that lead from one state to another. -/
inductive Timeline (P : Platform σ) : σ → List (Attempt σ) → σ → Prop
  | nil {s t : σ} (idle : P.Idle s t) : Timeline P s [] t
  | cons {s t : σ} {a : Attempt σ} {attempts : List (Attempt σ)} (idle : P.Idle s a.before)
    (rest : Timeline P a.after attempts t) : Timeline P s (a :: attempts) t

namespace Timeline

theorem idle_left (h : Timeline P t attempts u) (hidle : P.Idle s t) :
    Timeline P s attempts u := by
  cases h with
  | nil idle => exact .nil (hidle.trans idle)
  | cons idle rest => exact .cons (hidle.trans idle) rest

theorem append (h : Timeline P s attempts t) (h' : Timeline P t later u) :
    Timeline P s (attempts ++ later) u := by
  induction h with
  | nil idle => exact h'.idle_left idle
  | cons idle _ ih => exact .cons idle (ih h')

/-- What every attempt does, and time too, is done from each point of the run to each later one. -/
theorem moves (h : Timeline P s attempts t) (hidles : P.Idles R)
    (hattempts : ∀ a ∈ attempts, R a.before a.after) :
    R s t ∧ ∀ a ∈ attempts, R s a.before ∧ R a.after t := by
  induction h with
  | nil idle => exact ⟨hidles.of_idle idle, fun _ ha => absurd ha List.not_mem_nil⟩
  | cons idle _ ih =>
    obtain ⟨ha, hrest⟩ := List.forall_mem_cons.1 hattempts
    obtain ⟨hlast, hothers⟩ := ih hrest
    have hfirst := hidles.of_idle idle
    refine ⟨hidles.trans hfirst (hidles.trans ha hlast), List.forall_mem_cons.2
      ⟨⟨hfirst, hlast⟩, fun b hb => ?_⟩⟩
    obtain ⟨hbefore, hafter⟩ := hothers b hb
    exact ⟨hidles.trans hfirst (hidles.trans ha hbefore), hafter⟩

/-- Before and after one of the attempts. -/
theorem split {before after : List (Attempt σ)} {a : Attempt σ}
    (h : Timeline P s (before ++ a :: after) t) :
    Timeline P s before a.before ∧ Timeline P a.after after t := by
  induction before generalizing s with
  | nil =>
    cases h with
    | cons idle rest => exact ⟨.nil idle, rest⟩
  | cons b before ih =>
    cases h with
    | cons idle rest =>
      obtain ⟨hbefore, hafter⟩ := ih rest
      exact ⟨.cons idle hbefore, hafter⟩

/-- The flag stays set from one attempt to the next. -/
theorem keeps_set (h : Timeline P s attempts t) (hran : ∀ a ∈ attempts, a.Ran P vars)
    (hset : P.isCancelled s = true) :
    P.isCancelled t = true ∧ ∀ a ∈ attempts, P.isCancelled a.before = true := by
  obtain ⟨hlast, hall⟩ := h.moves P.keeps_isCancelled.toIdles fun a ha =>
    (hran a ha).keeps P.keeps_isCancelled
  exact ⟨hlast hset, fun a ha => (hall a ha).1 hset⟩

end Timeline

/-! ### The timeline of a run -/

theorem timeline_attemptAll (ctx : Context) (configs : List Config) (s : σ) :
    Timeline P s (attemptAll P vars ctx configs s) (deployAll P vars ctx configs s).2 := by
  induction configs generalizing s with
  | nil => exact .nil .refl
  | cons config rest ih => exact .cons .refl (ih _)

theorem timeline_waveAttempts (p : Progress) (wave : Wave) (s : σ) :
    Timeline P s (waveAttempts P vars g p wave s) (deployWave P vars g p wave s).2 := by
  obtain ⟨hattempts, hrun⟩ := deployWave_run P vars g p wave s
  rw [hattempts, hrun]
  exact (timeline_attemptAll _ _ _).idle_left (P.idles_idle.settleWave g p _ s)

theorem timeline_wavesAttempts (p : Progress) (waves : List Wave) (s : σ) :
    Timeline P s (wavesAttempts P vars g p waves s) (deployWaves P vars g p waves s).2 := by
  induction waves generalizing p s with
  | nil => exact .nil .refl
  | cons wave rest ih =>
    rw [wavesAttempts_cons]
    exact (timeline_waveAttempts p wave s).append (ih _ _)

variable (P vars) in
theorem timeline_history (environment : String) (configs : List Config) (s : σ) :
    Timeline P s (history P vars configs s) (deployEnvironment P vars environment configs s).2 := by
  unfold deployEnvironment history
  cases DependencyGraph.build configs with
  | error errors => exact .nil .refl
  | ok g =>
    dsimp only
    cases g.waves with
    | error e => exact .nil .refl
    | ok waves => exact timeline_wavesAttempts (.start g) waves s

theorem mem_history {configs : List Config} {a : Attempt σ} (ha : a ∈ history P vars configs s) :
    a.config ∈ configs ∧ a.Ran P vars := by
  cases hbuild : DependencyGraph.build configs with
  | error errors =>
    rw [history, hbuild] at ha
    cases ha
  | ok g =>
    obtain ⟨report, context, _, h⟩ := deployEnvironment_completed P vars hbuild "" s
    exact ⟨h.attempted a ha, (h.tried ha).2.1⟩

end Rollout
