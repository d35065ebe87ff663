import Rollout.Platform.Unstoppable
import Rollout.Proofs.Deploy.Calls
import Rollout.Proofs.Deploy.Timeline
import Rollout.Proofs.Graph.Levels
import Rollout.Proofs.Platform.Index

/-! Runs that are told to stop. Up to the end of the attempt during which the flag is set, a run is
the one that nobody stops; from there on nothing is asked of the platform any more. -/

namespace Rollout

variable {σ : Type} {P : Platform σ} {vars : Variables} {g : DependencyGraph}
  {configs : List Config} {placed : List Coordinate} {p : Progress} {s : σ}
  {supervisor : Supervisor}

namespace Platform

/-- The flag is set during requests only. -/
def IsQuiet (P : Platform σ) : Prop := ∀ s, P.isCancelled (P.elapse s) = P.isCancelled s

namespace IsQuiet

variable (h : P.IsQuiet)

include h

theorem supervised (supervisor : Supervisor) : (P.supervised supervisor).IsQuiet :=
  fun s => congrArg (s.cancelled || ·) (h s.inner)

theorem idles : P.Idles fun s t => P.isCancelled t = P.isCancelled s where
  refl _ := rfl
  trans hs ht := ht.trans hs
  elapse := h

theorem poll_of_unset (hs : P.isCancelled s = false) : P.poll s = P.unstoppable.poll s :=
  Prod.ext ((h s).trans hs) rfl

end IsQuiet

end Platform

/-! ### Before the flag is set -/

namespace Platform.IsQuiet

variable (h : P.IsQuiet)

include h

theorem settleWave_of_unset (hs : P.isCancelled s = false) (p : Progress)
    (configs : List Config) :
    settleWave P g p configs s = settleWave P.unstoppable g p configs s := by
  induction configs generalizing p s with
  | nil => rfl
  | cons config rest ih =>
    have hpolled : pollFor P config s = pollFor P.unstoppable config s := by
      unfold pollFor
      split
      · rfl
      · exact h.poll_of_unset hs
    have hunset : P.isCancelled (pollFor P.unstoppable config s).2 = false := by
      rw [← hpolled, h.idles.pollFor config s, hs]
    simp only [settleWave_cons, hpolled, ih hunset]

theorem attempt_of_unset (hs : P.isCancelled s = false) (vars : Variables) (ctx : Context)
    (config : Config) :
    attempt P vars ctx config s = attempt P.unstoppable vars ctx config s := by
  have hrun : deployConfig P vars ctx config s = deployConfig P.unstoppable vars ctx config s := by
    rw [deployConfig_run, deployConfig_run, h.poll_of_unset hs]
    rfl
  rw [attempt, attempt, hrun]

end Platform.IsQuiet

/-- A flag that is not set in the end was not set before. -/
theorem Platform.unset_of_moves {α : Type} {m : StateM σ α}
    (hm : Moves (fun s t => P.isCancelled s → P.isCancelled t) m)
    (ht : P.isCancelled (m s).2 = false) : P.isCancelled s = false := by
  by_contra hs
  cases ht.symm.trans (hm s (by simpa using hs))

/-! ### After the flag is set -/

/-- What a config comes to that is looked at when the flag is set. -/
def stoppedState (config : Config) : ConfigState :=
  if config.skip then .skipped .explicit else .failed .cancelled

theorem settledState?_of_set (hs : P.isCancelled s = true)
    (states : SortedMap Coordinate ConfigState) (config : Config) :
    settledState? g (pollFor P config s).1 states config = some (stoppedState config) := by
  unfold settledState? stoppedState pollFor
  cases hskip : config.skip with
  | true => rfl
  | false =>
    have hpolled : (P.poll s).1 = true := P.isCancelled_elapse s hs
    simp [hpolled]

/-- Nothing is tried, whatever the dependencies have come to. -/
theorem settleWave_of_set (hs : P.isCancelled s = true) {configs : List Config}
    (hnodup : (configs.map (·.coordinate)).Nodup) (p : Progress) :
    let settled := (settleWave P g p configs s).1
    settled.2 = [] ∧
      (∀ c ∉ configs.map (·.coordinate), settled.1.states.get? c = p.states.get? c) ∧
      ∀ config ∈ configs,
        settled.1.states.get? config.coordinate = some (stoppedState config) := by
  induction configs generalizing p s with
  | nil => exact ⟨rfl, fun _ _ => rfl, nofun⟩
  | cons config rest ih =>
    obtain ⟨hnew, hrest⟩ := List.nodup_cons.1 hnodup
    have hstill : P.isCancelled (pollFor P config s).2 = true :=
      P.keeps_isCancelled.pollFor config s hs
    obtain ⟨huntried, hothers, hstopped⟩ :=
      ih hstill hrest (p.settle config.coordinate (stoppedState config))
    rw [settleWave_cons]
    dsimp only
    rw [settledState?_of_set hs]
    refine ⟨huntried, fun c hc => ?_, List.forall_mem_cons.2 ⟨?_, hstopped⟩⟩
    · rw [List.map_cons, List.mem_cons, not_or] at hc
      rw [hothers c hc.2, Progress.get?_settle_of_ne hc.1]
    · rw [hothers _ hnew]
      exact SortedMap.get?_insert_self ..

/-- An attempt that starts with the flag set comes to nothing. -/
theorem Attempt.Ran.of_set {a : Attempt σ} (h : a.Ran P vars)
    (hset : P.isCancelled a.before = true) :
    a.result = .error .cancelled ∧ a.after = (P.poll a.before).2 := by
  have hpolled : (P.poll a.before).1 = true := P.isCancelled_elapse _ hset
  have hnot : ¬ a.startsResolving P = true := by simp [startsResolving, hpolled]
  cases h with
  | cancelled _ result after => exact ⟨result, after⟩
  | unprepared flag => exact absurd flag hnot
  | delivered flag => exact absurd flag hnot

/-! ### Waves -/

section

variable (H : g.IsGraphOf configs) {wave : Wave} {waves : List Wave}

include H

variable (P vars p s) in
theorem deployWave_others (hlayered : g.Layered placed (wave :: waves)) :
    ∀ c ∉ wave, (deployWave P vars g p wave s).1.states.get? c = p.states.get? c := by
  have hran := deployWave_groupRan P vars p s H (nodup_of_pairwise_lt hlayered.pairwise_head)
    hlayered.subset_head fun c hc d hd hmem =>
      hlayered.not_mem_of_dependency hc hd (List.mem_flatten_of_mem List.mem_cons_self hmem)
  intro c hc
  exact (hran.others c (by rwa [H.map_coordinate_filterMap hlayered.subset_head])).1

theorem deployWaves_others (hlayered : g.Layered placed waves) (p : Progress) (s : σ) :
    ∀ c ∉ waves.flatten,
      (deployWaves P vars g p waves s).1.states.get? c = p.states.get? c := by
  induction waves generalizing placed p s with
  | nil => exact fun _ _ => rfl
  | cons wave rest ih =>
    intro c hc
    rw [List.flatten_cons, List.mem_append, not_or] at hc
    exact (ih hlayered.tail _ _ c hc.2).trans (deployWave_others P vars p s H hlayered c hc.1)

/-- A wave that begins with the flag set. -/
theorem deployWave_of_set (hlayered : g.Layered placed (wave :: waves))
    (hs : P.isCancelled s = true) (vars : Variables) (p : Progress) :
    waveAttempts P vars g p wave s = [] ∧
      ∀ config ∈ configs, config.coordinate ∈ wave →
        (deployWave P vars g p wave s).1.states.get? config.coordinate =
          some (stoppedState config) := by
  obtain ⟨hattempts, hrun⟩ := deployWave_run P vars g p wave s
  obtain ⟨huntried, _, hstopped⟩ := settleWave_of_set (g := g) hs
    (by rw [H.map_coordinate_filterMap hlayered.subset_head]
        exact nodup_of_pairwise_lt hlayered.pairwise_head) p
  rw [hrun, hattempts, huntried]
  exact ⟨rfl, fun config hconfig hc => hstopped config (H.mem_filterMap_config?.2 ⟨hconfig, hc⟩)⟩

theorem deployWaves_of_set (hlayered : g.Layered placed waves) (hs : P.isCancelled s = true)
    (vars : Variables) (p : Progress) :
    wavesAttempts P vars g p waves s = [] ∧
      ∀ config ∈ configs, config.coordinate ∈ waves.flatten →
        (deployWaves P vars g p waves s).1.states.get? config.coordinate =
          some (stoppedState config) := by
  induction waves generalizing placed p s with
  | nil => exact ⟨rfl, nofun⟩
  | cons wave rest ih =>
    obtain ⟨huntried, hstopped⟩ := deployWave_of_set H hlayered hs vars p
    obtain ⟨huntried', hstopped'⟩ := ih hlayered.tail
      (P.keeps_isCancelled.deployWave vars g p wave s hs) (deployWave P vars g p wave s).1
    refine ⟨by rw [wavesAttempts_cons, huntried]; exact huntried', ?_⟩
    intro config hconfig hc
    rcases List.mem_append.1 (List.flatten_cons ▸ hc) with hc | hc
    · have hout := hlayered.not_mem_later hc
      exact (deployWaves_others H hlayered.tail _ _ _ hout).trans (hstopped config hconfig hc)
    · exact hstopped' config hconfig hc

end

/-! ### While the flag is set -/

/-- The flag is set during the attempt `now`. Up to its end the attempts are ordinary ones, and the
configs that are left are the same. -/
structure Interrupted (P : Platform σ) (attempts ordinary before : List (Attempt σ))
    (now : Attempt σ) (after : List (Attempt σ)) : Prop where
  attempts : attempts = before ++ now :: after
  shared : ∃ rest, ordinary = before ++ now :: rest
  unset : P.isCancelled now.before = false
  set : P.isCancelled now.after = true

theorem interrupted_attemptAll (h : P.IsQuiet) (hs : P.isCancelled s = false) (ctx : Context)
    (configs : List Config)
    (ht : P.isCancelled (deployAll P vars ctx configs s).2 = true) :
    ∃ before now after, Interrupted P (attemptAll P vars ctx configs s)
      (attemptAll P.unstoppable vars ctx configs s) before now after := by
  induction configs generalizing s with
  | nil => cases hs.symm.trans ht
  | cons config rest ih =>
    rw [attemptAll, attemptAll, ← h.attempt_of_unset hs]
    cases hafter : P.isCancelled (attempt P vars ctx config s).after with
    | true => exact ⟨[], _, _, rfl, ⟨_, rfl⟩, hs, hafter⟩
    | false =>
      obtain ⟨before, now, after, hattempts, ⟨ordinary, hshared⟩, hunset, hset⟩ := ih hafter ht
      exact ⟨_ :: before, now, after, congrArg _ hattempts, ⟨ordinary, congrArg _ hshared⟩,
        hunset, hset⟩

/-- Attempts that end without the flag set. -/
theorem attemptAll_of_unset (h : P.IsQuiet) (ctx : Context) (configs : List Config)
    (ht : P.isCancelled (deployAll P vars ctx configs s).2 = false) :
    attemptAll P vars ctx configs s = attemptAll P.unstoppable vars ctx configs s ∧
      (deployAll P vars ctx configs s).2 = (deployAll P.unstoppable vars ctx configs s).2 := by
  induction configs generalizing s with
  | nil => exact ⟨rfl, rfl⟩
  | cons config rest ih =>
    have hs := P.unset_of_moves (P.keeps_isCancelled.deployAll vars ctx (config :: rest)) ht
    obtain ⟨hattempts, hlast⟩ := ih (s := (attempt P vars ctx config s).after) ht
    have hattempt := h.attempt_of_unset hs vars ctx config
    rw [attemptAll, attemptAll, ← hattempt]
    refine ⟨congrArg _ hattempts, hlast.trans ?_⟩
    rw [hattempt]
    rfl

theorem deployWave_of_unset (h : P.IsQuiet) (p : Progress) (wave : Wave)
    (ht : P.isCancelled (deployWave P vars g p wave s).2 = false) :
    waveAttempts P vars g p wave s = waveAttempts P.unstoppable vars g p wave s ∧
      deployWave P vars g p wave s = deployWave P.unstoppable vars g p wave s := by
  have hs := P.unset_of_moves (P.keeps_isCancelled.deployWave vars g p wave) ht
  obtain ⟨hattempts, hrun⟩ := deployWave_run P vars g p wave s
  obtain ⟨hattempts', hrun'⟩ := deployWave_run P.unstoppable vars g p wave s
  rw [← h.settleWave_of_unset hs] at hattempts' hrun'
  rw [hrun] at ht
  obtain ⟨hsame, hlast⟩ := attemptAll_of_unset h _ _ ht
  rw [hattempts, hattempts', hrun, hrun', hsame, hlast]
  exact ⟨rfl, rfl⟩

theorem deployWaves_of_unset (h : P.IsQuiet) (p : Progress) (waves : List Wave)
    (ht : P.isCancelled (deployWaves P vars g p waves s).2 = false) :
    wavesAttempts P vars g p waves s = wavesAttempts P.unstoppable vars g p waves s ∧
      deployWaves P vars g p waves s = deployWaves P.unstoppable vars g p waves s := by
  induction waves generalizing p s with
  | nil => exact ⟨rfl, rfl⟩
  | cons wave rest ih =>
    obtain ⟨hlater, hrun⟩ :=
      ih (s := (deployWave P vars g p wave s).2) (deployWave P vars g p wave s).1 ht
    obtain ⟨hattempts, hwave⟩ := deployWave_of_unset h p wave
      (P.unset_of_moves (P.keeps_isCancelled.deployWaves vars g _ rest) ht)
    rw [wavesAttempts_cons, wavesAttempts_cons, deployWaves_cons, deployWaves_cons, ← hwave,
      hattempts]
    dsimp only
    rw [hlater, hrun]
    exact ⟨rfl, rfl⟩

/-- Where a run is stopped: during the attempt `now` at a config of `wave`. -/
structure Stop (σ : Type) where
  before : List (Attempt σ)
  now : Attempt σ
  after : List (Attempt σ)
  done : List Wave
  wave : Wave
  later : List Wave

/-- How a run with a stop goes, next to the ordinary one on the platform without its flag. -/
structure Stop.Fits (stop : Stop σ) (P : Platform σ) (g : DependencyGraph) (configs : List Config)
    (waves : List Wave) (attempts ordinary : List (Attempt σ))
    (states ordinaryStates : SortedMap Coordinate ConfigState) : Prop
    extends Interrupted P attempts ordinary stop.before stop.now stop.after where
  waves : waves = stop.done ++ stop.wave :: stop.later
  mem_wave : stop.now.config.coordinate ∈ stop.wave
  /-- What was finished by then, the config at hand included, has its ordinary state. -/
  finished : ∀ c, c ∈ stop.done.flatten ∨
      c ∈ stop.wave ∧ (compare c stop.now.config.coordinate).isLE →
    states.get? c = ordinaryStates.get? c
  /-- What was settled when the wave began keeps that state. -/
  settled : ∀ config ∈ configs, config.coordinate ∈ stop.wave → ∀ state,
    settledState? g false states config = some state →
    states.get? config.coordinate = some state
  untried : ∀ config ∈ configs, config.coordinate ∈ stop.wave →
    settledState? g false states config = none →
    compare stop.now.config.coordinate config.coordinate = .lt →
    states.get? config.coordinate = some (.failed .cancelled)
  later : ∀ config ∈ configs, config.coordinate ∈ stop.later.flatten →
    states.get? config.coordinate = some (stoppedState config)

namespace Settling

variable {p₁ : Progress} {group runnable : List Config} {s₁ : σ} {config : Config}

/-- While the flag is not set, the dependencies decide. -/
theorem decided_of_unset (h : Settling P g p group p₁ runnable s₁)
    (hunset : P.isCancelled s₁ = false) (hconfig : config ∈ group) :
    match settledState? g false p.states config with
    | some state => config ∉ runnable ∧ p₁.states.get? config.coordinate = some state
    | none => config ∈ runnable := by
  cases h.decided config hconfig with
  | @settled flag state seen decision untried reported =>
    cases flag with
    | true => cases hunset.symm.trans (seen rfl)
    | false =>
      rw [decision]
      exact ⟨untried, reported⟩
  | tried decision tried =>
    rw [decision]
    exact tried

variable {p' : Progress} {attempts before after : List (Attempt σ)} {now : Attempt σ}

theorem get?_of_settled (h : Settling P g p group p₁ runnable s₁)
    (hunset : P.isCancelled s₁ = false) (hnodup : (group.map (·.coordinate)).Nodup)
    (hmap : attempts.map (·.config) = runnable) (hrec : Recorded p₁ attempts p')
    (hconfig : config ∈ group) {state : ConfigState}
    (hdecision : settledState? g false p.states config = some state) :
    p'.states.get? config.coordinate = some state := by
  have hdecided := h.decided_of_unset hunset hconfig
  rw [hdecision] at hdecided
  obtain ⟨huntried, hstate⟩ := hdecided
  rw [(hrec.others _ _).1, hstate]
  intro hmem
  obtain ⟨b, hb, heq⟩ := List.mem_map.1 hmem
  have htried : b.config ∈ runnable := hmap ▸ List.mem_map.2 ⟨b, hb, rfl⟩
  exact huntried
    (List.inj_on_of_nodup_map hnodup (h.sublist.subset htried) hconfig heq ▸ htried)

theorem get?_of_untried (h : Settling P g p group p₁ runnable s₁)
    (hunset : P.isCancelled s₁ = false) (hmap : attempts.map (·.config) = runnable)
    (hrec : Recorded p₁ attempts p')
    (hlater : ∀ b ∈ attempts, compare now.config.coordinate b.config.coordinate = .lt →
      b.result = .error .cancelled)
    (hconfig : config ∈ group) (hdecision : settledState? g false p.states config = none)
    (hlt : compare now.config.coordinate config.coordinate = .lt) :
    p'.states.get? config.coordinate = some (.failed .cancelled) := by
  have hdecided := h.decided_of_unset hunset hconfig
  rw [hdecision, ← hmap] at hdecided
  obtain ⟨b, hb, rfl⟩ := List.mem_map.1 hdecided
  rw [(hrec.recorded b hb).1, hlater b hb hlt]
  rfl

end Settling

/-- Attempts that agree at first leave the same for whatever is not attempted later. -/
theorem Recorded.get?_states_congr {p p' p'' : Progress} {shared after rest : List (Attempt σ)}
    (h : Recorded p (shared ++ after) p') (h' : Recorded p (shared ++ rest) p'') {c : Coordinate}
    (hafter : c ∉ after.map (·.config.coordinate)) (hrest : c ∉ rest.map (·.config.coordinate)) :
    p'.states.get? c = p''.states.get? c := by
  by_cases hshared : c ∈ shared.map (·.config.coordinate)
  · obtain ⟨a, ha, rfl⟩ := List.mem_map.1 hshared
    rw [(h.recorded a (List.mem_append_left _ ha)).1, (h'.recorded a (List.mem_append_left _ ha)).1]
  · rw [(h.others c (by simp_all)).1, (h'.others c (by simp_all)).1]

variable (P vars) in
theorem pairwise_attemptAll {configs : List Config}
    (hascending : (configs.map (·.coordinate)).Pairwise (compare · · = .lt)) (ctx : Context)
    (s : σ) : ((attemptAll P vars ctx configs s).map (·.config.coordinate)).Pairwise
      (compare · · = .lt) := by
  rw [← map_config_attemptAll P vars ctx configs s, List.map_map] at hascending
  exact hascending

/-- The attempts at configs in ascending order, around one of them. -/
theorem compare_of_mem_attempts {attempts before after : List (Attempt σ)} {now b : Attempt σ}
    (hascending : (attempts.map (·.config.coordinate)).Pairwise (compare · · = .lt))
    (hattempts : attempts = before ++ now :: after) :
    (b ∈ after → compare now.config.coordinate b.config.coordinate = .lt) ∧
      (b ∈ before → compare b.config.coordinate now.config.coordinate = .lt) := by
  rw [hattempts, List.pairwise_map, List.pairwise_append] at hascending
  obtain ⟨_, hlast, hcross⟩ := hascending
  exact ⟨(List.pairwise_cons.1 hlast).1 b, fun hb => hcross b hb now List.mem_cons_self⟩

namespace Interrupted

variable {attempts ordinary before after : List (Attempt σ)} {now : Attempt σ}
  (h : Interrupted P attempts ordinary before now after)

include h

/-- The attempts that come after it begin with the flag set. -/
theorem set_after {t : σ} (htimeline : Timeline P s attempts t)
    (hran : ∀ a ∈ attempts, a.Ran P vars) :
    P.isCancelled t = true ∧ ∀ b ∈ after, P.isCancelled b.before = true := by
  obtain ⟨_, hrest⟩ := (h.attempts ▸ htimeline).split
  refine hrest.keeps_set (fun b hb => hran b ?_) h.set
  rw [h.attempts]
  exact List.mem_append_right _ (List.mem_cons_of_mem _ hb)

/-- It is the only attempt during which the flag is set. -/
theorem eq_now {t : σ} (htimeline : Timeline P s attempts t) (hran : ∀ a ∈ attempts, a.Ran P vars)
    {a : Attempt σ} (ha : a ∈ attempts) (hunset : P.isCancelled a.before = false)
    (hset : P.isCancelled a.after = true) : a = now := by
  rw [h.attempts] at ha
  rcases List.mem_append.1 ha with hbefore | ha
  · -- Then the flag would be set before the attempt at hand.
    obtain ⟨earlier, later, rfl⟩ := List.append_of_mem hbefore
    obtain ⟨hleft, _⟩ := (h.attempts ▸ htimeline).split
    have hlater : ∀ b ∈ later, b.Ran P vars := fun b hb => hran b (h.attempts ▸ by simp [hb])
    obtain ⟨hset', _⟩ := hleft.split.2.keeps_set hlater hset
    cases h.unset.symm.trans hset'
  · rcases List.mem_cons.1 ha with rfl | hafter
    · rfl
    · cases hunset.symm.trans ((h.set_after htimeline hran).2 a hafter)

/-- Where configs are tried in ascending order, those behind the one at hand come to nothing. -/
theorem result_of_lt {t : σ} (htimeline : Timeline P s attempts t)
    (hran : ∀ a ∈ attempts, a.Ran P vars)
    (hascending : (attempts.map (·.config.coordinate)).Pairwise (compare · · = .lt)) :
    ∀ b ∈ attempts, compare now.config.coordinate b.config.coordinate = .lt →
      b.result = .error .cancelled := by
  intro b hb hlt
  have hcut := compare_of_mem_attempts (b := b) hascending h.attempts
  have hmem : b ∈ before ++ now :: after := h.attempts ▸ hb
  rcases List.mem_append.1 hmem with hbefore | hmem
  · cases hlt.symm.trans (Std.OrientedCmp.gt_of_lt (hcut.2 hbefore))
  · rcases List.mem_cons.1 hmem with rfl | hafter
    · simp at hlt
    · exact ((hran b hb).of_set ((h.set_after htimeline hran).2 b hafter)).1

/-- The others come to what they come to without the flag. -/
theorem get?_states {p' p'' : Progress} (hrec : Recorded p attempts p')
    (hrec' : Recorded p ordinary p'')
    (hascending : (attempts.map (·.config.coordinate)).Pairwise (compare · · = .lt))
    (hascending' : (ordinary.map (·.config.coordinate)).Pairwise (compare · · = .lt))
    {c : Coordinate} (hle : (compare c now.config.coordinate).isLE) :
    p'.states.get? c = p''.states.get? c := by
  obtain ⟨rest, hshared⟩ := h.shared
  have hnot : ∀ {all last : List (Attempt σ)}, all = before ++ now :: last →
      (all.map (·.config.coordinate)).Pairwise (compare · · = .lt) →
      c ∉ last.map (·.config.coordinate) := by
    intro all last hcut hascending hmem
    obtain ⟨b, hb, rfl⟩ := List.mem_map.1 hmem
    have hlt := (compare_of_mem_attempts hascending hcut).1 hb
    simp [Std.OrientedCmp.gt_of_lt hlt] at hle
  have hafter := hnot h.attempts hascending
  have hrest := hnot hshared hascending'
  rw [h.attempts, List.append_cons] at hrec
  rw [hshared, List.append_cons] at hrec'
  exact hrec.get?_states_congr hrec' hafter hrest

end Interrupted

section

variable (H : g.IsGraphOf configs) {wave : Wave} {waves : List Wave}

include H

theorem deployWave_stop (h : P.IsQuiet) (hlayered : g.Layered placed (wave :: waves))
    (hs : P.isCancelled s = false) (p : Progress)
    (ht : P.isCancelled (deployWave P vars g p wave s).2 = true) :
    ∃ before now after, Stop.Fits ⟨before, now, after, [], wave, []⟩ P g configs [wave]
      (waveAttempts P vars g p wave s) (waveAttempts P.unstoppable vars g p wave s)
      (deployWave P vars g p wave s).1.states
      (deployWave P.unstoppable vars g p wave s).1.states := by
  have hothers := deployWave_others P vars p s H hlayered
  have hcoords := H.map_coordinate_filterMap hlayered.subset_head
  have hascending := hlayered.pairwise_head
  rw [← hcoords] at hascending
  have hdeps : ∀ config ∈ wave.filterMap g.config?, ∀ d ∈ g.dependencies config.coordinate,
      d ∉ wave := fun config hconfig d hd hmem =>
    hlayered.not_mem_of_dependency (H.mem_filterMap_config?.1 hconfig).2 hd
      (List.mem_flatten_of_mem List.mem_cons_self hmem)
  have hsettling := settleWave_settling (P := P) (nodup_of_pairwise_lt hascending)
    (by rwa [hcoords]) p s
  have hunset := (h.idles.settleWave g p (wave.filterMap g.config?) s).trans hs
  obtain ⟨hattempts, hrun⟩ := deployWave_run P vars g p wave s
  obtain ⟨hattempts', hrun'⟩ := deployWave_run P.unstoppable vars g p wave s
  rw [← h.settleWave_of_unset hs] at hattempts' hrun'
  rw [hattempts, hattempts', hrun']
  rw [hrun] at hothers ht ⊢
  dsimp only at hsettling hothers ht ⊢
  generalize settleWave P g p (wave.filterMap g.config?) s = after at *
  obtain ⟨⟨p₁, runnable⟩, s₁⟩ := after
  dsimp only at *
  have hrunnable := hascending.sublist (hsettling.sublist.map _)
  have hmap := map_config_attemptAll P vars p.context runnable s₁
  have hran : ∀ a ∈ attemptAll P vars p.context runnable s₁, a.Ran P vars :=
    fun _ ha => (ran_of_mem_attemptAll ha).2
  have hasc := pairwise_attemptAll P vars hrunnable p.context s₁
  have hasc' := pairwise_attemptAll P.unstoppable vars hrunnable p.context s₁
  have hrec := recorded_foldl hran (nodup_of_pairwise_lt hasc) p₁
  have hrec' := recorded_foldl (fun _ ha => (ran_of_mem_attemptAll ha).2)
    (nodup_of_pairwise_lt hasc') p₁
  obtain ⟨before, now, after, hinterrupted⟩ :=
    interrupted_attemptAll h hunset p.context runnable ht
  have htimeline : Timeline P s₁ (attemptAll P vars p.context runnable s₁) _ :=
    timeline_attemptAll p.context runnable s₁
  have hmem : ∀ {config}, config ∈ configs → config.coordinate ∈ wave →
      config ∈ wave.filterMap g.config? := fun hconfig hc => H.mem_filterMap_config?.2 ⟨hconfig, hc⟩
  have hcongr : ∀ {config}, config ∈ wave.filterMap g.config? →
      settledState? g false _ config = settledState? g false p.states config := fun hconfig =>
    settledState?_congr fun d hd => hothers d (hdeps _ hconfig d hd)
  refine ⟨before, now, after, hinterrupted, rfl, ?_, ?_, ?_, ?_, nofun⟩
  · have hnow : now ∈ attemptAll P vars p.context runnable s₁ :=
      hinterrupted.attempts ▸ List.mem_append_right _ List.mem_cons_self
    have htried : now.config ∈ runnable := hmap ▸ List.mem_map.2 ⟨now, hnow, rfl⟩
    exact (H.mem_filterMap_config?.1 (hsettling.sublist.subset htried)).2
  · intro c hc
    exact hinterrupted.get?_states hrec hrec' hasc hasc' (hc.resolve_left nofun).2
  · intro config hconfig hc state hstate
    rw [hcongr (hmem hconfig hc)] at hstate
    exact hsettling.get?_of_settled hunset (nodup_of_pairwise_lt hascending) hmap hrec
      (hmem hconfig hc) hstate
  · intro config hconfig hc hstate hlt
    rw [hcongr (hmem hconfig hc)] at hstate
    exact hsettling.get?_of_untried hunset hmap hrec
      (hinterrupted.result_of_lt htimeline hran hasc) (hmem hconfig hc) hstate hlt

end

namespace Stop.Fits

variable {stop : Stop σ} {waves : List Wave} {attempts ordinary : List (Attempt σ)}
  {states ordinaryStates : SortedMap Coordinate ConfigState}

/-- A wave before, with which nobody interfered. -/
theorem cons (h : stop.Fits P g configs waves attempts ordinary states ordinaryStates)
    {wave : Wave} (hsame : ∀ c ∈ wave, states.get? c = ordinaryStates.get? c)
    (earlier : List (Attempt σ)) :
    Fits { stop with before := earlier ++ stop.before, done := wave :: stop.done } P g configs
      (wave :: waves) (earlier ++ attempts) (earlier ++ ordinary) states ordinaryStates where
  attempts := by rw [h.attempts, List.append_assoc]
  shared := by
    obtain ⟨rest, hshared⟩ := h.shared
    exact ⟨rest, by rw [hshared, List.append_assoc]⟩
  unset := h.unset
  set := h.set
  waves := congrArg _ h.waves
  mem_wave := h.mem_wave
  finished c hc := by
    rw [List.flatten_cons, List.mem_append, or_assoc] at hc
    rcases hc with hc | hc
    · exact hsame c hc
    · exact h.finished c hc
  settled := h.settled
  untried := h.untried
  later := h.later

/-- The waves behind, in which nothing is tried any more. -/
theorem stopped {before after : List (Attempt σ)} {now : Attempt σ} {wave : Wave}
    (h : Fits ⟨before, now, after, [], wave, []⟩ P g configs [wave] attempts ordinary states
      ordinaryStates)
    (hlayered : g.Layered placed (wave :: waves))
    {states' ordinaryStates' : SortedMap Coordinate ConfigState}
    (hstates : ∀ c ∉ waves.flatten, states'.get? c = states.get? c)
    (hordinary : ∀ c ∉ waves.flatten, ordinaryStates'.get? c = ordinaryStates.get? c)
    (hstopped : ∀ config ∈ configs, config.coordinate ∈ waves.flatten →
      states'.get? config.coordinate = some (stoppedState config))
    (more : List (Attempt σ)) :
    Fits ⟨before, now, after, [], wave, waves⟩ P g configs (wave :: waves) attempts
      (ordinary ++ more) states' ordinaryStates' := by
  have hout : ∀ {c}, c ∈ wave → c ∉ waves.flatten := hlayered.not_mem_later
  have hdecision : ∀ {config : Config}, config.coordinate ∈ wave →
      settledState? g false states' config = settledState? g false states config := fun hc =>
    settledState?_congr fun d hd => hstates d fun hmem =>
      hlayered.not_mem_of_dependency hc hd (List.mem_append_right _ hmem)
  obtain ⟨rest, hshared⟩ := h.shared
  refine ⟨⟨h.attempts, ⟨rest ++ more, ?_⟩, h.unset, h.set⟩, rfl, h.mem_wave, ?_, ?_, ?_, hstopped⟩
  · rw [hshared, List.append_assoc]
    rfl
  · intro c hc
    have hwave : c ∈ wave := (hc.resolve_left nofun).1
    rw [hstates c (hout hwave), hordinary c (hout hwave), h.finished c hc]
  · intro config hconfig hc state hstate
    rw [hdecision hc] at hstate
    rw [hstates _ (hout hc), h.settled config hconfig hc state hstate]
  · intro config hconfig hc hstate hlt
    rw [hdecision hc] at hstate
    rw [hstates _ (hout hc), h.untried config hconfig hc hstate hlt]

end Stop.Fits

theorem deployWaves_stop (H : g.IsGraphOf configs) (h : P.IsQuiet) {waves : List Wave}
    (hlayered : g.Layered placed waves) (hs : P.isCancelled s = false) (vars : Variables)
    (p : Progress)
    (ht : P.isCancelled (deployWaves P vars g p waves s).2 = true) :
    ∃ stop : Stop σ, stop.Fits P g configs waves (wavesAttempts P vars g p waves s)
      (wavesAttempts P.unstoppable vars g p waves s) (deployWaves P vars g p waves s).1.states
      (deployWaves P.unstoppable vars g p waves s).1.states := by
  induction waves generalizing placed p s with
  | nil => cases hs.symm.trans ht
  | cons wave rest ih =>
    rw [wavesAttempts_cons, wavesAttempts_cons, deployWaves_cons, deployWaves_cons]
    dsimp only
    cases hwave : P.isCancelled (deployWave P vars g p wave s).2 with
    | true =>
      obtain ⟨before, now, after, hstop⟩ := deployWave_stop H h hlayered hs p hwave
      obtain ⟨huntried, hstopped⟩ :=
        deployWaves_of_set H hlayered.tail hwave vars (deployWave P vars g p wave s).1
      rw [huntried, List.append_nil]
      exact ⟨_, hstop.stopped hlayered (deployWaves_others H hlayered.tail _ _)
        (deployWaves_others H hlayered.tail _ _) hstopped _⟩
    | false =>
      obtain ⟨hattempts, hrun⟩ := deployWave_of_unset h p wave hwave
      obtain ⟨stop, hstop⟩ := ih hlayered.tail hwave (deployWave P vars g p wave s).1 ht
      rw [← hattempts, ← hrun]
      refine ⟨_, hstop.cons (fun c hc => ?_) _⟩
      have hout := hlayered.not_mem_later hc
      rw [deployWaves_others H hlayered.tail _ _ c hout,
        deployWaves_others H hlayered.tail _ _ c hout]

/-! ### The whole run -/

/-- After the attempt during which the flag is set, no calls are made. -/
theorem Interrupted.calls_eq {s t : Supervised σ}
    {attempts ordinary before after : List (Attempt (Supervised σ))} {now : Attempt (Supervised σ)}
    (h : Interrupted (P.supervised supervisor) attempts ordinary before now after)
    (htimeline : Timeline (P.supervised supervisor) s attempts t)
    (hran : ∀ a ∈ attempts, a.Ran (P.supervised supervisor) vars) :
    t.calls = now.after.calls := by
  obtain ⟨_, hset⟩ := h.set_after htimeline hran
  obtain ⟨_, hrest⟩ := (h.attempts ▸ htimeline).split
  refine (hrest.moves idles_calls fun b hb => ?_).1
  rw [((hran b (h.attempts ▸ by simp [hb])).of_set (hset b hb)).2]
  rfl

/-- However the platform behaves and whenever the flag is set, a run ends in order. If the flag is
set from the start, nothing is asked of the platform. If it is set during an attempt, the run is the
one without the flag up to the end of this attempt, and makes no calls later. -/
theorem deployEnvironment_stops (hquiet : P.IsQuiet) (supervisor : Supervisor)
    (hbuild : DependencyGraph.build configs = .ok g) (vars : Variables) (environment : String)
    (s : Supervised σ) :
    let Q := P.supervised supervisor
    let run := deployEnvironment Q vars environment configs s
    let ordinary := deployEnvironment Q.unstoppable vars environment configs s
    let attempts := history Q vars configs s
    ∃ report ordinaryReport, run.1 = .ok report ∧ ordinary.1 = .ok ordinaryReport ∧
      report.states.keys.Perm (configs.map (·.coordinate)) ∧
      (∀ state ∈ report.states.values, state.isTerminal = true) ∧
      (Q.isCancelled s = true → run.2.calls = s.calls ∧ ∀ config ∈ configs,
        report.states.get? config.coordinate = some (stoppedState config)) ∧
      (Q.isCancelled run.2 = false → run = ordinary) ∧
      (Q.isCancelled s = false → Q.isCancelled run.2 = true →
        ∃ a ∈ attempts, Q.isCancelled a.before = false ∧ Q.isCancelled a.after = true) ∧
      ∀ a ∈ attempts, Q.isCancelled a.before = false → Q.isCancelled a.after = true →
        run.2.calls = a.after.calls ∧
        report.states.get? a.config.coordinate = some (.ofResult a.result) ∧
        ∃ stop : Stop (Supervised σ), stop.now = a ∧
          stop.Fits Q g configs report.waves attempts (history Q.unstoppable vars configs s)
            report.states ordinaryReport.states := by
  dsimp only
  have H := DependencyGraph.isGraphOf_of_build hbuild
  obtain ⟨waves, hwaves, hlayered⟩ := DependencyGraph.exists_waves H
  obtain ⟨report, context, hreport, hcompleted⟩ :=
    deployEnvironment_completed (P.supervised supervisor) vars hbuild environment s
  have hcalls := deployEnvironment_calls P vars supervisor environment configs s
  have htimeline := timeline_history (P.supervised supervisor) vars environment configs s
  have hran : ∀ a ∈ history (P.supervised supervisor) vars configs s,
      a.Ran (P.supervised supervisor) vars := fun _ ha => (mem_history ha).2
  obtain ⟨hrun, hhistory⟩ :=
    deployEnvironment_run (P.supervised supervisor) vars hbuild hwaves environment s
  obtain ⟨hrun', hhistory'⟩ :=
    deployEnvironment_run (P.supervised supervisor).unstoppable vars hbuild hwaves environment s
  rw [hrun] at hreport hcalls htimeline ⊢
  cases hreport
  have hexists : (P.supervised supervisor).isCancelled s = false →
      (P.supervised supervisor).isCancelled _ = true → ∃ stop : Stop (Supervised σ), _ :=
    fun hs ht => hhistory ▸ hhistory' ▸ deployWaves_stop H (hquiet.supervised supervisor) hlayered
      hs vars (.start g) ht
  refine ⟨_, _, rfl, congrArg Prod.fst hrun', hcompleted.keys ▸ H.coordinates_perm,
    hcompleted.isTerminal H, ?_, ?_, ?_, ?_⟩
  · intro hs
    obtain ⟨huntried, hstopped⟩ := deployWaves_of_set H hlayered hs vars (.start g)
    rw [hhistory, huntried, List.flatMap_nil, List.append_nil] at hcalls
    refine ⟨hcalls, fun config hconfig => hstopped config hconfig ?_⟩
    exact hlayered.mem_flatten_iff.2
      ⟨H.mem_coordinates_iff.2 ⟨config, hconfig, rfl⟩, List.not_mem_nil⟩
  · intro ht
    rw [hrun', (deployWaves_of_unset (hquiet.supervised supervisor) (.start g) waves ht).2]
  · intro hs ht
    obtain ⟨stop, hfits⟩ := hexists hs ht
    refine ⟨stop.now, ?_, hfits.unset, hfits.set⟩
    rw [hfits.attempts]
    exact List.mem_append_right _ List.mem_cons_self
  · intro a ha hunset hset
    have hs : (P.supervised supervisor).isCancelled s = false := by
      by_contra hs
      have hset' := (htimeline.keeps_set hran (by simpa using hs)).2 a ha
      cases hunset.symm.trans hset'
    obtain ⟨before, after, hsplit⟩ := List.append_of_mem ha
    have hrest : ∀ b ∈ after, b.Ran (P.supervised supervisor) vars := by
      intro b hb
      apply hran
      rw [hsplit]
      exact List.mem_append_right _ (List.mem_cons_of_mem _ hb)
    obtain ⟨ht, _⟩ := (hsplit ▸ htimeline).split.2.keeps_set hrest hset
    obtain ⟨stop, hfits⟩ := hexists hs ht
    obtain rfl := hfits.eq_now htimeline hran ha hunset hset
    exact ⟨hfits.calls_eq htimeline hran, (hcompleted.tried ha).2.2.2, stop, rfl, hfits⟩

/-! ### The flag is set while one of two configs of a wave is created -/

namespace Diamond

/-- Sets the flag when the left config is created. -/
def stopsAtLeft : Supervisor
  | _, .create _ payload => ⟨payload.coordinate = tag "left", none⟩
  | _, _ => .nothing

def stopped : Platform (Supervised Store) := (Store.platform (.numbered [])).supervised stopsAtLeft

def stoppedRun : EnvironmentResult × Supervised Store :=
  deployEnvironment stopped (fun _ => none) "dev" Diamond.configs (.start .empty)

theorem stopped_at_left :
    ∃ report, stoppedRun.1 = .ok report ∧
      report.states.get? (tag "left") = some (.deployed "object-1") ∧
      report.states.get? (tag "right") = some (.failed .cancelled) ∧
      ∃ (stop : Stop (Supervised Store)) (ordinary : DeployReport),
        stoppedRun.2.calls = stop.now.after.calls ∧
        stop.Fits stopped graph Diamond.configs report.waves
          (history stopped (fun _ => none) Diamond.configs (.start .empty))
          (history stopped.unstoppable (fun _ => none) Diamond.configs (.start .empty))
          report.states ordinary.states := by
  have hquiet : (Store.platform (.numbered [])).IsQuiet := fun _ => rfl
  have hset : stopped.isCancelled stoppedRun.2 = true := by decide +kernel
  have hstates : stoppedRun.1.toOption.map
      (fun report => (report.states.get? (tag "left"), report.states.get? (tag "right"))) =
      some (some (.deployed "object-1"), some (.failed .cancelled)) := by decide +kernel
  have hrun := deployEnvironment_stops hquiet stopsAtLeft build_configs (fun _ => none) "dev"
    (.start .empty)
  dsimp only at hrun
  rw [stoppedRun, stopped] at hset hstates ⊢
  revert hset hstates hrun
  generalize deployEnvironment ((Store.platform _).supervised stopsAtLeft) _ _ _ _ = run
  intro hset hstates hrun
  obtain ⟨report, ordinary, hreport, _, _, _, _, _, hexists, hstops⟩ := hrun
  obtain ⟨a, ha, hbefore, hafter⟩ := hexists rfl hset
  obtain ⟨hcalls, _, stop, rfl, hfits⟩ := hstops a ha hbefore hafter
  rw [hreport] at hstates
  obtain ⟨hleft, hright⟩ := Prod.mk.inj (Option.some.inj hstates)
  exact ⟨report, hreport, hleft, hright, stop, ordinary, hcalls, hfits⟩

end Diamond

end Rollout
