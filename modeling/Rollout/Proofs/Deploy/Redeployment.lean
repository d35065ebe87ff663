import Rollout.Proofs.Deploy.Discovery
import Rollout.Proofs.Deploy.Mutations
import Rollout.Proofs.Deploy.References

/-! Deploying the same configs once more. What a run has deployed is found again by the next one and
updated with the same payload, since later attempts of a run leave alone who holds a key. -/

namespace Rollout

variable {σ : Type} {P : Platform σ} {policy : StorePolicy} {view : σ → Store} {vars : Variables}
  {type : ConfigType} {payload : Payload} {id : String} {configs : List Config} {s : σ}

/-! ### What a run leaves in the store -/

/-- The store takes the payload, and has one object for it. -/
structure Store.Holds (policy : StorePolicy) (s : Store) (type : ConfigType) (payload : Payload)
    (id : String) : Prop where
  accepted : rejection? policy payload = none
  holders : s.holders type.name (payload.key type.identity) = [id]

theorem Store.Holds.of_extends {s t : Store} (h : s.Holds policy type payload id)
    (hext : s.Extends t) : t.Holds policy type payload id :=
  ⟨h.accepted, hext.holders_eq h.holders⟩

namespace Timeline

variable {attempts : List (Attempt σ)} {t : σ} (h : Timeline P s attempts t)
  (hserves : P.Serves policy view) (hran : ∀ a ∈ attempts, a.Ran P vars)
  (hmanaged : ∀ a ∈ attempts, a.config.IsManaged)

include h hserves hran hmanaged

/-- The store grows from each attempt to the next. -/
theorem grows : Grows policy view s t ∧ ∀ a ∈ attempts,
    Grows policy view s a.before ∧ Grows policy view a.after t :=
  h.moves hserves.tracks.toIdles fun a ha =>
    (hran a ha).moves (hmanaged a ha) hserves hserves.tracks

/-- What was deployed is still held at the end. -/
theorem holds (hkept : (view s).WellKept policy) {a : Attempt σ} (ha : a ∈ attempts)
    {entity : ResolvedEntity} (hresult : a.result = .ok entity) :
    ∃ payload, a.config.prepare vars a.context = .ok (payload, entity.properties) ∧
      (view t).Holds policy a.config.configType payload entity.remoteId := by
  obtain ⟨hbefore, hafter⟩ := (h.grows hserves hran hmanaged).2 a ha
  have hkept' := (hbefore hkept).1
  have hstep := (hran a ha).moves (hmanaged a ha) hserves hserves.tracks hkept'
  obtain ⟨payload, hprepare, haccepted, hholders⟩ :=
    (hran a ha).holders (hmanaged a ha) hserves hkept' hresult
  have hholds : (view a.after).Holds policy a.config.configType payload entity.remoteId :=
    ⟨haccepted, hholders⟩
  exact ⟨payload, hprepare, hholds.of_extends (hafter hstep.1).2⟩

end Timeline

section

variable (hserves : P.Serves policy view) (hconfigs : ∀ config ∈ configs, config.IsManaged)

include hserves hconfigs

theorem grows_history (vars : Variables) (environment : String) (s : σ) :
    let t := (deployEnvironment P vars environment configs s).2
    Grows policy view s t ∧ ∀ a ∈ history P vars configs s,
      Grows policy view s a.before ∧ Grows policy view a.after t :=
  (timeline_history P vars environment configs s).grows hserves (fun _ ha => (mem_history ha).2)
    fun _ ha => hconfigs _ (mem_history ha).1

theorem holds_of_history (environment : String) (hkept : (view s).WellKept policy)
    {a : Attempt σ} (ha : a ∈ history P vars configs s) {entity : ResolvedEntity}
    (hresult : a.result = .ok entity) :
    ∃ payload, a.config.prepare vars a.context = .ok (payload, entity.properties) ∧
      (view (deployEnvironment P vars environment configs s).2).Holds policy a.config.configType
        payload entity.remoteId :=
  (timeline_history P vars environment configs s).holds hserves (fun _ ha => (mem_history ha).2)
    (fun _ ha => hconfigs _ (mem_history ha).1) hkept ha hresult

end

/-! ### A store without faults -/

namespace Store

theorem logged_handle (r : Request) (s : Supervised Store) :
    (logged policy).handle r s =
      let run := handle policy r s.inner
      (run.1, ⟨run.2, s.cancelled, s.calls ++ [⟨r, run.1⟩]⟩) :=
  congrArg (fun cancelled => ((handle policy r s.inner).1,
    (⟨_, cancelled, _⟩ : Supervised Store))) (Bool.or_false _)

theorem logged_serves (policy : StorePolicy) : (logged policy).Serves policy (·.inner) :=
  (Store.serves policy).supervised _

/-- Nobody sets the flag. -/
theorem logged_keeps (policy : StorePolicy) :
    (logged policy).Keeps fun s t => t.cancelled = s.cancelled where
  refl _ := rfl
  trans h h' := h'.trans h
  elapse _ := rfl
  handle r s := by rw [logged_handle]

theorem isCancelled_logged {s : Supervised Store} (h : s.cancelled = false) :
    (logged policy).isCancelled s = false := (Bool.or_false _).trans h

end Store

/-- A payload that the store holds is delivered by an update. -/
theorem discover_of_holds (hregular : type.IsRegular) (hkey : (payload.key type.identity).isSome)
    {s : Supervised Store} (hholds : s.inner.Holds policy type payload id) :
    let run := discover (Store.logged policy) type payload s
    run.1 = .ok id ∧ ∃ existing,
      run.2.calls = s.calls ++ [⟨.list type, .ok existing⟩, ⟨.update type id payload, .ok ()⟩] := by
  dsimp only
  have hheld := hholds.holders
  have hrun := discover_discovery (Store.logged_serves policy) hregular hkey s
  generalize discover (Store.logged policy) type payload s = run at *
  cases hrun with
  | unlisted listed => cases listed
  | created _ holders => cases holders.symm.trans hheld
  | ambiguous _ holders =>
    rw [hheld] at holders
    cases Nat.lt_irrefl 1 holders
  | @updated existing object listed holders =>
    cases holders.symm.trans hheld
    have hmem : id ∈ s.inner.ids type.name := by
      have hentry := Store.mem_holders_iff.1 (holders ▸ List.mem_singleton_self id)
      exact List.mem_map.2 ⟨_, hentry, rfl⟩
    have hupdate := Store.update_eq_ok hholds.accepted hmem
    rw [Store.logged_handle, Store.logged_handle]
    dsimp only [Store.handle]
    rw [hupdate]
    exact ⟨rfl, _, List.append_assoc ..⟩

/-- The calls that bring a payload to an object that is known. -/
def IsUpdate (type : ConfigType) (id : String) (payload : Payload) (calls : List Call) : Prop :=
  ∃ existing, calls = [⟨.list type, .ok existing⟩, ⟨.update type id payload, .ok ()⟩]

theorem Attempt.Ran.isUpdate {b : Attempt (Supervised Store)}
    (h : b.Ran (Store.logged policy) vars) (hmanaged : b.config.IsManaged)
    (hflag : (Store.logged policy).isCancelled b.after = false) {values : SortedMap String Json}
    (hprepare : b.config.prepare vars b.context = .ok (payload, values))
    (hholds : b.before.inner.Holds policy b.config.configType payload id) :
    b.result = .ok ⟨b.config.coordinate, id, values⟩ ∧
      IsUpdate b.config.configType id payload b.calls := by
  cases h with
  | cancelled flag _ after =>
    have hset : ((Store.logged policy).poll b.before).1 = true := by
      simpa [startsResolving] using flag
    rw [after] at hflag
    cases hset.symm.trans hflag
  | unprepared _ prepare => cases prepare.symm.trans hprepare
  | delivered _ prepare result after =>
    cases prepare.symm.trans hprepare
    have hkey := key_of_prepare_ok prepare
    obtain ⟨hdelivered, existing, hcalls⟩ := discover_of_holds hmanaged.typed.isRegular hkey
      (s := ((Store.logged policy).poll b.before).2) hholds
    rw [deliver_run, hmanaged.origin] at result after
    rw [hdelivered] at result
    exact ⟨result, existing, calls_eq (after ▸ hcalls)⟩

/-! ### Two runs -/

/-- A run of some configs, and a second one on a store that holds what the first one deployed. -/
structure Rerun (P : Platform σ) (policy : StorePolicy) (vars : Variables) (g : DependencyGraph)
    (configs : List Config) (report : DeployReport) (context : Context)
    (attempts : List (Attempt σ)) (t : σ) (report' : DeployReport) (context' : Context)
    (attempts' : List (Attempt (Supervised Store))) (t' : Supervised Store) : Prop where
  first : Completed P vars g configs report context attempts t
  second : Completed (Store.logged policy) vars g configs report' context' attempts' t'
  uncancelled : (Store.logged policy).isCancelled t' = false
  managed : ∀ config ∈ configs, config.IsManaged
  held : ∀ a ∈ attempts, ∀ entity, a.result = .ok entity → ∃ payload,
    a.config.prepare vars a.context = .ok (payload, entity.properties) ∧
      ∀ b ∈ attempts', b.before.inner.Holds policy a.config.configType payload entity.remoteId

namespace Rerun

variable {g : DependencyGraph} {report report' : DeployReport} {context context' : Context}
  {attempts : List (Attempt σ)} {attempts' : List (Attempt (Supervised Store))} {t : σ}
  {t' : Supervised Store}
  (h : Rerun P policy vars g configs report context attempts t report' context' attempts' t')

include h

/-- A config that was deployed is tried again, and in the same context, if its dependencies were
deployed to the same objects. -/
theorem exists_tried (H : g.IsGraphOf configs) {a : Attempt σ} (ha : a ∈ attempts)
    (hdependencies : ∀ d ∈ g.dependencies a.config.coordinate, ∀ other,
      context.get? d = some other → context'.get? d = some other) :
    ∃ b ∈ attempts', b.config = a.config ∧ b.Ran (Store.logged policy) vars ∧
      (Store.logged policy).isCancelled b.after = false ∧
      ∀ d ∈ g.dependencies a.config.coordinate, b.context.get? d = a.context.get? d := by
  have hconfig := h.first.attempted a ha
  obtain ⟨htried, _, hcontext, _⟩ := h.first.tried ha
  have hknown := h.first.known_of_dependency H ha
  cases h.second.decided a.config hconfig with
  | @settled flag _ seen decision =>
    -- Neither the flag nor a dependency can have kept it from being tried.
    have hflag : flag = false := by
      by_contra hflag
      cases (seen (by simpa using hflag)).symm.trans h.uncancelled
    have hfree : settledState? g false report'.states a.config = none := by
      apply settledState?_eq_none_iff.2
      refine ⟨(settledState?_eq_none_iff.1 htried).1, fun d hd => ?_⟩
      obtain ⟨target, htarget, rfl, other, hother⟩ := hknown d hd
      have hagain := hdependencies _ hd other hother
      exact ⟨_, (h.second.get?_states_iff htarget).2 ⟨other, hagain, rfl⟩⟩
    rw [hflag, hfree] at decision
    cases decision
  | @tried b _ only same ran hcontext' _ _ cancelled =>
    refine ⟨b, List.mem_of_mem_filter (only ▸ List.mem_singleton_self b), same, ran, ?_, ?_⟩
    · by_contra hflag
      cases (cancelled (by simpa using hflag)).symm.trans h.uncancelled
    · intro d hd
      obtain ⟨_, _, _, other, hother⟩ := hknown d hd
      rw [hcontext' d hd, hcontext d hd, hother]
      exact hdependencies d hd other hother

/-- What was deployed is deployed again, if that holds of its dependencies. -/
theorem step (H : g.IsGraphOf configs) {a : Attempt σ} (ha : a ∈ attempts) {entity : ResolvedEntity}
    (hresult : a.result = .ok entity)
    (hdependencies : ∀ d ∈ g.dependencies a.config.coordinate, ∀ other,
      context.get? d = some other → context'.get? d = some other) :
    ∃ b ∈ attempts', ∃ payload, b.config = a.config ∧ b.result = .ok entity ∧
      a.config.prepare vars a.context = .ok (payload, entity.properties) ∧
      IsUpdate a.config.configType entity.remoteId payload b.calls := by
  have hconfig := h.first.attempted a ha
  obtain ⟨b, hb, hsame, hran, hflag, hcontext⟩ := h.exists_tried H ha hdependencies
  obtain ⟨payload, hprepare, hholds⟩ := h.held a ha entity hresult
  have hprepare' : b.config.prepare vars b.context = .ok (payload, entity.properties) := by
    rw [hsame, ← hprepare]
    apply prepare_congr
    intro r hr
    exact hcontext _ (H.mem_dependencies_of_reference hconfig hr)
  obtain ⟨_, _, hcoordinate⟩ := (h.first.tried ha).2.1.of_ok hresult
  have hupdate := hran.isUpdate (hsame ▸ h.managed _ hconfig) hflag hprepare' (hsame ▸ hholds b hb)
  rw [hsame, ← hcoordinate] at hupdate
  exact ⟨b, hb, payload, hsame, hupdate.1, hprepare, hupdate.2⟩

/-- What the context had after the first run, it has after the second. -/
theorem context_get? (H : g.IsGraphOf configs) {config : Config} (hconfig : config ∈ configs)
    {entity : ResolvedEntity} (hknown : context.get? config.coordinate = some entity) :
    context'.get? config.coordinate = some entity := by
  generalize hc : config.coordinate = c at *
  induction c using H.wellFounded.induction generalizing config entity with
  | _ c ih =>
    subst hc
    obtain ⟨a, ha, rfl, hresult⟩ := (h.first.get?_context_iff hconfig).1 hknown
    obtain ⟨b, hb, _, hsame, hresult', _⟩ := h.step H ha hresult fun d hd other hother => by
      obtain ⟨target, htarget, rfl⟩ := H.mem_coordinates_iff.1 (H.closed _ hd)
      exact ih _ hd htarget rfl hother
    exact (h.second.get?_context_iff hconfig).2 ⟨b, hb, hsame, hresult'⟩

/-- Every attempt that succeeded is repeated. -/
theorem exists_attempt (H : g.IsGraphOf configs) {a : Attempt σ} (ha : a ∈ attempts)
    {entity : ResolvedEntity} (hresult : a.result = .ok entity) :
    ∃ b ∈ attempts', ∃ payload, b.config = a.config ∧ b.result = .ok entity ∧
      a.config.prepare vars a.context = .ok (payload, entity.properties) ∧
      IsUpdate a.config.configType entity.remoteId payload b.calls := by
  apply h.step H ha hresult
  intro d hd other hother
  obtain ⟨target, htarget, rfl⟩ := H.mem_coordinates_iff.1 (H.closed _ hd)
  exact h.context_get? H htarget hother

end Rerun

theorem exists_rerun {g : DependencyGraph} (hserves : P.Serves policy view)
    (hconfigs : ∀ config ∈ configs, config.IsManaged) (hkept : (view s).WellKept policy)
    (hbuild : DependencyGraph.build configs = .ok g) (vars : Variables) (environment : String) :
    let first := deployEnvironment P vars environment configs s
    let start := Supervised.start (view first.2)
    let second := deployEnvironment (Store.logged policy) vars environment configs start
    ∃ report context report' context', first.1 = .ok report ∧ second.1 = .ok report' ∧
      Rerun P policy vars g configs report context (history P vars configs s) first.2 report'
        context' (history (Store.logged policy) vars configs start) second.2 := by
  intro first start second
  obtain ⟨report, context, hreport, h⟩ :=
    deployEnvironment_completed P vars hbuild environment s
  obtain ⟨report', context', hreport', h'⟩ :=
    deployEnvironment_completed (Store.logged policy) vars hbuild environment start
  have hkept' := ((grows_history hserves hconfigs vars environment s).1 hkept).1
  have hgrows := (grows_history (Store.logged_serves policy) hconfigs vars environment start).2
  refine ⟨report, context, report', context', hreport, hreport', h, h', ?_, hconfigs, ?_⟩
  · apply Store.isCancelled_logged
    exact (Store.logged_keeps policy).deployEnvironment vars environment configs start
  · intro a ha entity hresult
    obtain ⟨payload, hprepare, hholds⟩ :=
      holds_of_history hserves hconfigs environment hkept ha hresult
    refine ⟨payload, hprepare, fun b hb => ?_⟩
    exact hholds.of_extends ((hgrows b hb).1 hkept').2

/-- A config is deployed to an object and later again, by an update with the same payload. -/
structure Redeployed (config : Config) (id : String) (payload : Payload) (calls calls' : List Call)
    (report' : DeployReport) (attempts' : List (Attempt (Supervised Store))) : Prop where
  before : mutationsFor calls config.coordinate = [⟨config.configType, id, payload⟩]
  deployed : report'.states.get? config.coordinate = some (.deployed id)
  again : mutationsFor calls' config.coordinate = [⟨config.configType, id, payload⟩]
  isUpdate : IsUpdate config.configType id payload (callsFor attempts' config.coordinate)

namespace Rerun

variable {g : DependencyGraph} {report report' : DeployReport} {context context' : Context}
  {supervisor : Supervisor} {attempts : List (Attempt (Supervised σ))}
  {attempts' : List (Attempt (Supervised Store))} {t : Supervised σ} {t' : Supervised Store}
  (h : Rerun (P.supervised supervisor) policy vars g configs report context attempts t report'
    context' attempts' t') (H : g.IsGraphOf configs)

include h H

theorem redeployed {config : Config} (hconfig : config ∈ configs) {id : String}
    (hstate : report.states.get? config.coordinate = some (.deployed id)) :
    ∃ payload, Redeployed config id payload (attempts.flatMap Attempt.calls)
      (attempts'.flatMap Attempt.calls) report' attempts' := by
  obtain ⟨entity, hknown, rfl⟩ := (h.first.get?_states_iff hconfig).1 hstate
  obtain ⟨a, ha, rfl, hresult⟩ := (h.first.get?_context_iff hconfig).1 hknown
  obtain ⟨b, hb, payload, hsame, hresult', hprepare, hupdate⟩ := h.exists_attempt H ha hresult
  have hcalls := h.second.callsFor_eq hb
  rw [hsame] at hcalls
  have hbefore := (h.first.fits a ha).mutations
  rw [hresult] at hbefore
  obtain ⟨_, hprepare', hbefore⟩ := hbefore
  cases hprepare'.symm.trans hprepare
  refine ⟨payload, ?_, ?_, ?_, hcalls ▸ hupdate⟩
  · rw [mutationsFor_flatMap h.first.fits, h.first.callsFor_eq ha, hbefore]
  · exact (h.second.get?_states_iff hconfig).2 ⟨entity, h.context_get? H hconfig hknown, rfl⟩
  · obtain ⟨_, heq⟩ := hupdate
    rw [mutationsFor_flatMap h.second.fits, hcalls, heq]
    rfl

/-- After a success nothing is created. -/
theorem not_create (hsuccess : report.isSuccess = true) :
    ∀ call ∈ attempts'.flatMap Attempt.calls, call.request.kind ≠ .create := by
  intro call hcall
  obtain ⟨b, hb, hcall⟩ := List.mem_flatMap.1 hcall
  have hconfig := h.second.attempted b hb
  obtain ⟨state, hstate⟩ := (h.first.decided b.config hconfig).exists_state
  have hskip : b.config.skip = false := (settledState?_eq_none_iff.1 (h.second.tried hb).1).1
  have hdeployed : ∃ id, state = .deployed id := by
    have hgood := List.all_eq_true.1 hsuccess state (SortedMap.mem_values_iff.2 ⟨_, hstate⟩)
    cases state with
    | deployed id => exact ⟨id, rfl⟩
    | pending | resolving | failed _ => cases hgood
    | skipped reason =>
      cases reason with
      | dependencyFailed _ => cases hgood
      | explicit => cases hskip.symm.trans (h.first.skip_of_explicit hconfig hstate)
  obtain ⟨id, rfl⟩ := hdeployed
  obtain ⟨payload, hredeployed⟩ := h.redeployed H hconfig hstate
  have hupdate := hredeployed.isUpdate
  rw [h.second.callsFor_eq hb] at hupdate
  obtain ⟨_, heq⟩ := hupdate
  rw [heq] at hcall
  rcases List.mem_cons.1 hcall with rfl | hcall
  · nofun
  · rw [List.mem_singleton.1 hcall]
    nofun

end Rerun

/-- What a run has deployed, however it went on, is not created again by the next one but updated
with the same payload. -/
theorem deployEnvironment_again (hserves : P.Serves policy view) (supervisor : Supervisor)
    (vars : Variables) (environment : String) (configs : List Config)
    (hconfigs : ∀ config ∈ configs, config.IsManaged) (s : σ)
    (hkept : (view s).WellKept policy) :
    let first := deployEnvironment (P.supervised supervisor) vars environment configs (.start s)
    let start := Supervised.start (view first.2.inner)
    let second := deployEnvironment (Store.logged policy) vars environment configs start
    let attempts := history (Store.logged policy) vars configs start
    ∀ report, first.1 = .ok report → ∃ report', second.1 = .ok report' ∧
      second.2.calls = attempts.flatMap Attempt.calls ∧
      (∀ config ∈ configs, ∀ id, report.states.get? config.coordinate = some (.deployed id) →
        ∃ payload, Redeployed config id payload first.2.calls second.2.calls report' attempts) ∧
      (report.isSuccess = true → ∀ call ∈ second.2.calls, call.request.kind ≠ .create) := by
  intro first start second attempts report hreport
  cases hbuild : DependencyGraph.build configs with
  | error errors =>
    cases (congrArg Prod.fst (deployEnvironment_of_error hbuild environment _)).symm.trans hreport
  | ok g =>
    have H := DependencyGraph.isGraphOf_of_build hbuild
    obtain ⟨_, _, report', _, hreport₁, hreport', h⟩ := exists_rerun (hserves.supervised supervisor)
      hconfigs (s := .start s) hkept hbuild vars environment
    cases hreport₁.symm.trans hreport
    have hcalls : first.2.calls = (history (P.supervised supervisor) vars configs
        (.start s)).flatMap Attempt.calls := deployEnvironment_calls P vars supervisor ..
    have hcalls' : second.2.calls = attempts.flatMap Attempt.calls :=
      deployEnvironment_calls (Store.platform policy) vars (fun _ _ => .nothing) ..
    refine ⟨report', hreport', hcalls', ?_, ?_⟩
    · intro config hconfig id hstate
      rw [hcalls, hcalls']
      exact h.redeployed H hconfig hstate
    · rw [hcalls']
      exact h.not_create H

/-! ### Four configs, one of which the platform fails to create at first -/

namespace Diamond

def faulty : Supervisor := fun _ =>
  FaultRule.combine [⟨.create, some "shop:auto-tag:left", ⟨false, some (.internal "down")⟩⟩]

def faultyRun : EnvironmentResult × Supervised Store :=
  deployEnvironment ((Store.platform (.numbered [])).supervised faulty) (fun _ => none) "dev"
    Diamond.configs (.start .empty)

theorem isManaged : ∀ config ∈ Diamond.configs, config.IsManaged := by
  have hconfig : ∀ id parameters, (config id parameters).IsManaged := fun _ _ =>
    ⟨⟨.classicApi "auto-tag", none, rfl, rfl⟩, rfl⟩
  simp only [Diamond.configs, List.forall_mem_cons]
  exact ⟨hconfig .., hconfig .., hconfig .., hconfig .., fun _ h => absurd h List.not_mem_nil⟩

theorem updated_after_fault :
    let start := Supervised.start faultyRun.2.inner
    let again := deployEnvironment (Store.logged (.numbered [])) (fun _ => none) "dev"
      Diamond.configs start
    Store.empty.WellKept (.numbered []) ∧ (∀ config ∈ Diamond.configs, config.IsManaged) ∧
      ∃ report report' payload, faultyRun.1 = .ok report ∧ again.1 = .ok report' ∧
      report.states.get? (tag "left") = some (.failed (.remote (.internal "down"))) ∧
      Redeployed right "object-1" payload faultyRun.2.calls again.2.calls report'
        (history (Store.logged (.numbered [])) (fun _ => none) Diamond.configs start) := by
  have hstates : faultyRun.1.toOption.map
      (fun r => (r.states.get? (tag "left"), r.states.get? (tag "right"))) =
      some (some (.failed (.remote (.internal "down"))), some (.deployed "object-1")) := by
    decide +kernel
  have hkept := Store.wellKept_empty (StorePolicy.injective_newId_numbered [])
  have hagain := deployEnvironment_again (Store.serves (.numbered [])) faulty (fun _ => none) "dev"
    Diamond.configs isManaged .empty hkept
  dsimp only [id] at hagain
  rw [faultyRun] at hstates ⊢
  revert hstates hagain
  generalize deployEnvironment ((Store.platform (.numbered [])).supervised faulty) _ _ _ _ = run
  intro hstates hagain
  cases hrun : run.1 with
  | error _ =>
    rw [hrun] at hstates
    cases hstates
  | ok report =>
    rw [hrun] at hstates
    obtain ⟨hleft, hright⟩ := Prod.mk.inj (Option.some.inj hstates)
    obtain ⟨report', hreport', _, hredeployed, _⟩ := hagain report hrun
    obtain ⟨payload, hpayload⟩ :=
      hredeployed right (by simp [Diamond.configs]) "object-1" hright
    exact ⟨hkept, isManaged, report, report', payload, rfl, hreport', hleft, hpayload⟩

end Diamond

end Rollout
