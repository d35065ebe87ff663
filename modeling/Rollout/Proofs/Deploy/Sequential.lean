import Rollout.Deploy.InTurn
import Rollout.Proofs.Deploy.Lockstep
import Rollout.Proofs.Deploy.Redeployment
import Rollout.Proofs.Platform.Traced

/-! Deploying without waves. A run that nobody stops is the same as one that takes the configs one
after another in the order of the waves, decides about each just before its turn and records what
came of it at once: the configs of a wave have nothing to learn from each other. -/

namespace Rollout

variable {σ α β : Type} {P : Platform σ} {vars : Variables} {g : DependencyGraph}
  {configs : List Config} {R : σ → σ → Prop}

/-! ### Runs that nobody stops -/

/-- A computation that cannot clear the flag, and does what the other one does if the flag is not
set by its end. -/
structure Unhindered (P : Platform σ) (m m' : StateM σ α) : Prop where
  keeps : Moves (fun s t => P.isCancelled s → P.isCancelled t) m
  eq_of_unset : ∀ s, P.isCancelled (m s).2 = false → m s = m' s

namespace Unhindered

theorem of_moves {m : StateM σ α} (h : Moves (fun s t => P.isCancelled s → P.isCancelled t) m) :
    Unhindered P m m := ⟨h, fun _ _ => rfl⟩

theorem pure (a : α) : Unhindered P (pure a) (pure a) := .of_moves (P.keeps_isCancelled.pure a)

theorem bind {m m' : StateM σ α} {f f' : α → StateM σ β} (hm : Unhindered P m m')
    (hf : ∀ a, Unhindered P (f a) (f' a)) : Unhindered P (m >>= f) (m' >>= f') where
  keeps := P.keeps_isCancelled.bind hm.keeps fun a => (hf a).keeps
  eq_of_unset s hs := by
    rw [bind_run] at hs ⊢
    rw [bind_run, ← hm.eq_of_unset s (Platform.unset_of_moves (hf _).keeps hs)]
    exact (hf _).eq_of_unset _ hs

theorem poll : Unhindered P P.poll P.unstoppable.poll :=
  ⟨P.keeps_isCancelled.poll, fun _ hs => Prod.ext hs rfl⟩

theorem settleWave (p : Progress) (configs : List Config) :
    Unhindered P (settleWave P g p configs) (settleWave P.unstoppable g p configs) := by
  induction configs generalizing p with
  | nil => exact .pure _
  | cons config rest ih =>
    have hpoll : Unhindered P (pollFor P config) (pollFor P.unstoppable config) := by
      unfold pollFor
      split
      · exact .pure false
      · exact .poll
    apply hpoll.bind
    intro cancelled
    dsimp only
    split
    · exact ih _
    · exact (ih _).bind fun _ => .pure _

theorem deployConfig (ctx : Context) (config : Config) :
    Unhindered P (deployConfig P vars ctx config) (deployConfig P.unstoppable vars ctx config) := by
  apply poll.bind
  intro cancelled
  split
  · exact .pure _
  · split
    · exact .pure _
    · rename_i payload _ _
      have hdeliver : Unhindered P (deliver P config payload)
          (deliver P.unstoppable config payload) := .of_moves (P.keeps_isCancelled.deliver _ _)
      apply hdeliver.bind
      intro delivered
      cases delivered <;> exact .pure _

theorem deployAll (ctx : Context) (configs : List Config) :
    Unhindered P (deployAll P vars ctx configs) (deployAll P.unstoppable vars ctx configs) := by
  induction configs with
  | nil => exact .pure _
  | cons config rest ih => exact (deployConfig ctx config).bind fun _ => ih.bind fun _ => .pure _

theorem deployWaves (p : Progress) (waves : List Wave) :
    Unhindered P (deployWaves P vars g p waves) (deployWaves P.unstoppable vars g p waves) := by
  induction waves generalizing p with
  | nil => exact .pure _
  | cons wave rest ih =>
    have hwave : Unhindered P (deployWave P vars g p wave)
        (deployWave P.unstoppable vars g p wave) :=
      (settleWave p _).bind fun _ => (deployAll _ _).bind fun _ => .pure _
    exact hwave.bind fun p => ih p

theorem deployEnvironment (environment : String) (configs : List Config) :
    Unhindered P (deployEnvironment P vars environment configs)
      (deployEnvironment P.unstoppable vars environment configs) := by
  unfold Rollout.deployEnvironment
  split
  · exact .pure _
  · split
    · exact .pure _
    · exact (deployWaves _ _).bind fun _ => .pure _

end Unhindered

/-! ### Platforms to which time does nothing -/

namespace Platform

/-- Requests cannot tell states apart that are related by `R`, such as those between which nothing
but time has passed. -/
structure Overlooks (P : Platform σ) (R : σ → σ → Prop) : Prop extends P.Idles R where
  symm : ∀ {s t}, R s t → R t s
  handle : ∀ r {s t}, R s t →
    (P.handle r s).1 = (P.handle r t).1 ∧ R (P.handle r s).2 (P.handle r t).2

theorem overlooks_eq (h : ∀ s, P.elapse s = s) : P.Overlooks Eq where
  refl _ := rfl
  trans := Eq.trans
  elapse s := (h s).symm
  symm := Eq.symm
  handle _ _ _ h := h ▸ ⟨rfl, rfl⟩

namespace Overlooks

variable (H : P.Overlooks R)

/-- Of two copies of the platform, time passes for the first one only. -/
def paired (H : P.Overlooks R) : Platform {x : σ × σ // R x.1 x.2} where
  handle r x := ((P.handle r x.1.1).1,
    ⟨((P.handle r x.1.1).2, (P.handle r x.1.2).2), (H.handle r x.2).2⟩)
  isCancelled _ := false
  elapse x := ⟨(P.elapse x.1.1, x.1.2), H.trans (H.symm (H.elapse _)) x.2⟩
  isCancelled_handle _ _ h := h

theorem paired_mirrors_unstoppable : H.paired.Mirrors P.unstoppable (·.1.1) where
  handle _ _ := rfl
  isCancelled _ := rfl
  elapse _ := rfl

theorem paired_mirrors_timeless : H.paired.Mirrors P.timeless (·.1.2) where
  handle r x := Prod.ext (H.handle r x.2).1.symm rfl
  isCancelled _ := rfl
  elapse _ := rfl

include H

theorem deployEnvironment_timeless (vars : Variables) (environment : String)
    (configs : List Config) (s : σ) :
    let run := deployEnvironment P.unstoppable vars environment configs s
    let run' := deployEnvironment P.timeless vars environment configs s
    run'.1 = run.1 ∧ R run.2 run'.2 := by
  have hrun := H.paired_mirrors_unstoppable.deployEnvironment vars environment configs
    ⟨(s, s), H.refl s⟩
  have hrun' := H.paired_mirrors_timeless.deployEnvironment vars environment configs
    ⟨(s, s), H.refl s⟩
  dsimp only at hrun hrun' ⊢
  rw [hrun, hrun']
  generalize Rollout.deployEnvironment H.paired vars environment configs _ = both
  exact ⟨rfl, both.2.property⟩

theorem supervised (supervisor : Supervisor) :
    (P.supervised supervisor).Overlooks fun s t => R s.inner t.inner ∧ s.calls = t.calls where
  refl s := ⟨H.refl s.inner, rfl⟩
  trans h h' := ⟨H.trans h.1 h'.1, h.2.trans h'.2⟩
  elapse s := ⟨H.elapse s.inner, rfl⟩
  symm h := ⟨H.symm h.1, h.2.symm⟩
  handle r s t h := by
    obtain ⟨hinner, hcalls⟩ := h
    obtain ⟨hanswer, hafter⟩ := H.handle r hinner
    dsimp only [Platform.supervised, Supervised.handle]
    rw [hcalls]
    cases (supervisor t.calls r).error with
    | some e => exact ⟨rfl, hinner, rfl⟩
    | none => exact ⟨hanswer, hafter, congrArg (fun answer => t.calls ++ [⟨r, answer⟩]) hanswer⟩

end Overlooks

end Platform

/-! ### One wave -/

namespace Progress

variable {c d : Coordinate}

theorem record_settle (p : Progress) (c : Coordinate) (state : ConfigState)
    (result : Except DeployError ResolvedEntity) :
    (p.settle c state).record c result = p.record c result := by
  cases result <;> exact congrArg (Progress.mk · _) (SortedMap.insert_insert_self ..)

theorem record_settle_of_ne (h : c ≠ d) (p : Progress) (state : ConfigState)
    (result : Except DeployError ResolvedEntity) :
    (p.settle c state).record d result = (p.record d result).settle c state := by
  cases result <;> exact congrArg (Progress.mk · _) (SortedMap.insert_comm h ..)

end Progress

theorem foldl_recordIn_settle {attempts : List (Attempt σ)} {c : Coordinate}
    (h : c ∉ attempts.map (·.config.coordinate)) (p : Progress) (state : ConfigState) :
    attempts.foldl (fun p a => a.recordIn p) (p.settle c state) =
      (attempts.foldl (fun p a => a.recordIn p) p).settle c state := by
  induction attempts generalizing p with
  | nil => rfl
  | cons a rest ih =>
    rw [List.map_cons, List.mem_cons, not_or] at h
    rw [List.foldl_cons, List.foldl_cons, Attempt.recordIn,
      Progress.record_settle_of_ne h.1, ih h.2, Attempt.recordIn]

theorem deployConfig_congr {ctx ctx' : Context} {config : Config}
    (h : ∀ r ∈ config.references, ctx.get? r.coordinate = ctx'.get? r.coordinate) :
    deployConfig P vars ctx config = deployConfig P vars ctx' config := by
  funext s
  rw [deployConfig_run, deployConfig_run, prepare_congr h]

theorem deployEach_cons (p : Progress) (config : Config) (rest : List Config) (s : σ) :
    deployEach P vars g p (config :: rest) s =
      match settledState? g false p.states config with
      | some state => deployEach P vars g (p.settle config.coordinate state) rest s
      | none =>
        let tried := deployConfig P vars p.context config s
        deployEach P vars g (p.record config.coordinate tried.1) rest tried.2 := by
  rw [deployEach]
  cases settledState? g false p.states config <;> rfl

theorem deployEach_append (p : Progress) (group rest : List Config) (s : σ) :
    deployEach P vars g p (group ++ rest) s =
      let after := deployEach P vars g p group s
      deployEach P vars g after.1 rest after.2 := by
  induction group generalizing p s with
  | nil => rfl
  | cons config group ih =>
    rw [List.cons_append, deployEach_cons, deployEach_cons]
    cases settledState? g false p.states config with
    | some state => exact ih _ _
    | none => exact ih _ _

theorem pollFor_timeless (config : Config) (s : σ) : pollFor P.timeless config s = (false, s) := by
  unfold pollFor
  split <;> rfl

variable (P vars) in
/-- The rest of a wave, after attempts at other configs of it. The configs that are left depend on
none of these and not on each other, so they may as well see what came of them. -/
theorem deployEach_rest (H : g.IsGraphOf configs) {group : List Config} (hgroup : group ⊆ configs)
    (done : List (Attempt σ)) (hran : ∀ a ∈ done, a.Ran P.timeless vars)
    (hnodup : (done.map (·.config.coordinate) ++ group.map (·.coordinate)).Nodup)
    (hindep : ∀ config ∈ group, ∀ d ∈ g.dependencies config.coordinate,
      d ∉ done.map (·.config.coordinate) ++ group.map (·.coordinate)) (p : Progress) (s : σ) :
    let settled := (settleWave P.timeless g p group s).1
    let attempts := attemptAll P.timeless vars p.context settled.2 s
    deployEach P.timeless vars g (done.foldl (fun p a => a.recordIn p) p) group s =
      ((done ++ attempts).foldl (fun p a => a.recordIn p) settled.1,
        (deployAll P.timeless vars p.context settled.2 s).2) := by
  induction group generalizing done p s with
  | nil =>
    show (done.foldl _ p, s) = ((done ++ []).foldl _ p, s)
    rw [List.append_nil]
  | cons config rest ih =>
    obtain ⟨hconfig, hrest⟩ := List.cons_subset.1 hgroup
    obtain ⟨hdeps, hindepRest⟩ := List.forall_mem_cons.1 hindep
    have hdone := recorded_foldl hran (List.nodup_append.1 hnodup).1 p
    have hsame : ∀ d ∈ g.dependencies config.coordinate,
        (done.foldl (fun p a => a.recordIn p) p).states.get? d = p.states.get? d ∧
          (done.foldl (fun p a => a.recordIn p) p).context.get? d = p.context.get? d :=
      fun d hd => hdone.others d fun h => hdeps d hd (List.mem_append_left _ h)
    have hnew : config.coordinate ∉ done.map (·.config.coordinate) := fun h =>
      (List.nodup_append.1 hnodup).2.2 _ h _ List.mem_cons_self rfl
    have hsublist : (done.map (·.config.coordinate) ++ rest.map (·.coordinate)).Sublist
        (done.map (·.config.coordinate) ++ (config :: rest).map (·.coordinate)) :=
      (List.sublist_cons_self _ _).append_left _
    rw [deployEach_cons, settleWave_cons, pollFor_timeless,
      settledState?_congr fun d hd => (hsame d hd).1]
    dsimp only
    cases settledState? g false p.states config with
    | some state =>
      dsimp only
      rw [← foldl_recordIn_settle hnew]
      have hindepRest' : ∀ other ∈ rest, ∀ d ∈ g.dependencies other.coordinate,
          d ∉ done.map (·.config.coordinate) ++ rest.map (·.coordinate) :=
        fun other hother d hd hmem => hindepRest other hother d hd (hsublist.subset hmem)
      exact ih hrest done hran (hnodup.sublist hsublist) hindepRest'
        (p.settle config.coordinate state) s
    | none =>
      dsimp only
      have htried : deployConfig P.timeless vars
          (done.foldl (fun p a => a.recordIn p) p).context config =
          deployConfig P.timeless vars p.context config :=
        deployConfig_congr fun r hr =>
          (hsame _ (H.mem_dependencies_of_reference hconfig hr)).2
      let a := attempt P.timeless vars p.context config s
      have hrecorded : (done ++ [a]).foldl (fun p a => a.recordIn p)
          (p.settle config.coordinate .resolving) =
          (done.foldl (fun p a => a.recordIn p) p).record config.coordinate a.result := by
        rw [List.foldl_append, foldl_recordIn_settle hnew]
        exact Progress.record_settle ..
      have hmoved : (done ++ [a]).map (·.config.coordinate) ++ rest.map (·.coordinate) =
          done.map (·.config.coordinate) ++ (config :: rest).map (·.coordinate) := by
        rw [List.map_append, List.append_assoc]
        rfl
      have hlater := ih hrest (done ++ [a])
        (List.forall_mem_append.2 ⟨hran, List.forall_mem_singleton.2 (attempt_ran ..)⟩)
        (hmoved ▸ hnodup) (hmoved ▸ hindepRest) (p.settle config.coordinate .resolving) a.after
      have hsettled : (settleWave P.timeless g (p.settle config.coordinate .resolving) rest
          a.after).1 = (settleWave P.timeless g (p.settle config.coordinate .resolving) rest s).1 :=
        settleWave_fst (fun _ => rfl) (fun _ => rfl) ..
      dsimp only at hlater
      rw [hrecorded, hsettled, List.append_assoc] at hlater
      rw [htried]
      exact hlater

/-- A wave taken in turn. -/
theorem deployEach_wave (H : g.IsGraphOf configs) {placed : List Coordinate} {wave : Wave}
    {waves : List Wave} (hlayered : g.Layered placed (wave :: waves)) (p : Progress) (s : σ) :
    deployEach P.timeless vars g p (wave.filterMap g.config?) s =
      deployWave P.timeless vars g p wave s := by
  have hcoordinates := H.map_coordinate_filterMap hlayered.subset_head
  have hgroup : wave.filterMap g.config? ⊆ configs := fun _ h => (H.mem_filterMap_config?.1 h).1
  have hnodup : ((wave.filterMap g.config?).map (·.coordinate)).Nodup := by
    rw [hcoordinates]
    exact nodup_of_pairwise_lt hlayered.pairwise_head
  have hindep : ∀ config ∈ wave.filterMap g.config?, ∀ d ∈ g.dependencies config.coordinate,
      d ∉ (wave.filterMap g.config?).map (·.coordinate) := by
    intro config hconfig d hd hmem
    rw [hcoordinates] at hmem
    exact hlayered.not_mem_of_dependency (H.mem_filterMap_config?.1 hconfig).2 hd
      (List.mem_append_left _ hmem)
  have hwave := deployEach_rest P vars H hgroup [] (List.forall_mem_nil _) hnodup hindep p s
  have hstill : s = (settleWave P.timeless g p (wave.filterMap g.config?) s).2 :=
    (Platform.overlooks_eq fun _ => rfl).settleWave g p _ s
  dsimp only at hwave
  rw [List.foldl_nil, List.nil_append] at hwave
  rw [hwave, (deployWave_run P.timeless vars g p wave s).2, ← hstill]

theorem deployEach_waves (H : g.IsGraphOf configs) {placed : List Coordinate} {waves : List Wave}
    (hlayered : g.Layered placed waves) (p : Progress) (s : σ) :
    deployEach P.timeless vars g p (waves.flatten.filterMap g.config?) s =
      deployWaves P.timeless vars g p waves s := by
  induction waves generalizing placed p s with
  | nil => rfl
  | cons wave rest ih =>
    rw [List.flatten_cons, List.filterMap_append, deployEach_append, deployWaves_cons,
      deployEach_wave H hlayered]
    exact ih hlayered.tail _ _

/-! ### Whole runs -/

theorem deployInTurn_timeless (environment : String) (configs : List Config) (s : σ) :
    deployInTurn P.timeless vars environment configs s =
      deployEnvironment P.timeless vars environment configs s := by
  cases hbuild : DependencyGraph.build configs with
  | error errors =>
    rw [deployEnvironment_of_error hbuild, deployInTurn, hbuild]
    rfl
  | ok g =>
    have H := DependencyGraph.isGraphOf_of_build hbuild
    obtain ⟨waves, hwaves, hlayered⟩ := DependencyGraph.exists_waves H
    rw [(deployEnvironment_run P.timeless vars hbuild hwaves environment s).1, deployInTurn, hbuild]
    dsimp only
    rw [hwaves]
    dsimp only
    rw [bind_run, deployEach_waves H hlayered]
    rfl

/-- A run that nobody stops reports what the plain run reports, makes the same calls and leaves the
platform in a state that requests cannot tell from the other one. -/
theorem deployEnvironment_eq_inTurn (H : P.Overlooks R) (supervisor : Supervisor)
    (vars : Variables) (environment : String) (configs : List Config) (s : Supervised σ) :
    let Q := P.supervised supervisor
    let run := deployEnvironment Q vars environment configs s
    let plain := deployInTurn Q.timeless vars environment configs s
    Q.isCancelled run.2 = false →
      run.1 = plain.1 ∧ run.2.calls = plain.2.calls ∧ R run.2.inner plain.2.inner := by
  intro Q run plain hunset
  have hrun : run = deployEnvironment Q.unstoppable vars environment configs s :=
    (Unhindered.deployEnvironment environment configs).eq_of_unset s hunset
  have hplain : plain = deployEnvironment Q.timeless vars environment configs s :=
    deployInTurn_timeless environment configs s
  obtain ⟨hreport, hinner, hcalls⟩ :=
    (H.supervised supervisor).deployEnvironment_timeless vars environment configs s
  rw [hrun, hplain]
  exact ⟨hreport.symm, hcalls, hinner⟩

/-! ### Four configs, one of which the platform fails to create -/

namespace Diamond

theorem faultyRun_eq_inTurn :
    let Q := (Store.platform (.numbered [])).supervised faulty
    let plain := deployInTurn Q.timeless (fun _ => none) "dev" Diamond.configs (.start .empty)
    Q.isCancelled faultyRun.2 = false ∧
      (plain.1.toOption.map fun report =>
        (report.states.get? (tag "left"), report.states.get? (tag "top"))) =
        some (some (.failed (.remote (.internal "down"))),
          some (.skipped (.dependencyFailed (tag "left")))) ∧
      faultyRun.1 = plain.1 ∧ faultyRun.2.calls = plain.2.calls ∧
      faultyRun.2.inner = plain.2.inner := by
  have hstill : (Store.platform (.numbered [])).Overlooks Eq := Platform.overlooks_eq fun _ => rfl
  have hunset : ((Store.platform (.numbered [])).supervised faulty).isCancelled faultyRun.2 =
      false := by decide +kernel
  have hstates : (faultyRun.1.toOption.map fun report =>
      (report.states.get? (tag "left"), report.states.get? (tag "top"))) =
      some (some (.failed (.remote (.internal "down"))),
        some (.skipped (.dependencyFailed (tag "left")))) := by decide +kernel
  have hplain := deployEnvironment_eq_inTurn hstill faulty (fun _ => none) "dev" Diamond.configs
    (.start .empty)
  dsimp only at hplain ⊢
  rw [faultyRun] at hunset hstates ⊢
  revert hunset hstates hplain
  generalize deployEnvironment _ _ _ _ _ = run
  generalize deployInTurn _ _ _ _ _ = plain
  intro hunset hstates hplain
  obtain ⟨hreport, hcalls, hinner⟩ := hplain hunset
  exact ⟨hunset, hreport ▸ hstates, hreport, hcalls, hinner⟩

end Diamond

end Rollout
