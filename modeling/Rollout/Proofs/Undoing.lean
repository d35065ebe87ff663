import Rollout.Proofs.Delete.Removal
import Rollout.Proofs.Deploy.Sparing
import Rollout.Proofs.Manifest.Coordinates

/-! A delete run takes back a deployment. The entry of a config finds the object that the config was
deployed to, although it is matched in another way: the config looks for its payload, the entry for
what it is told. Every new object belongs to some config that was deployed, so nothing is left. -/

namespace Rollout

variable {σ : Type} {P : Platform σ} {policy : StorePolicy} {view : σ → Store} {vars : Variables}
  {configs : List Config} {s : σ}

/-! ### The entry of a config -/

theorem ConfigType.kind_withSchemaVersion (type : ConfigType) (version : Option String) :
    (type.withSchemaVersion version).kind = type.kind := by cases type <;> rfl

/-- For a classic API the name under which the config was deployed, for other types its id and its
project. -/
def Config.deleteEntry (config : Config) (values : SortedMap String Json) : DeleteEntry :=
  let c := config.coordinate
  match config.configType.kind with
  | .classicApi => ⟨c.configType, (parameterText values Config.nameParameter).getD "", none⟩
  | _ => ⟨c.configType, c.configId, some c.project⟩

namespace Config

variable {config : Config} {ctx : Context} {payload : Payload} {values : SortedMap String Json}

theorem configType_deleteEntry (config : Config) (values : SortedMap String Json) :
    (config.deleteEntry values).configType = config.coordinate.configType := by
  unfold deleteEntry
  split <;> rfl

/-- An entry finds what has the key of the payload. -/
theorem deleteEntry_finds (hprepare : config.prepare vars ctx = .ok (payload, values))
    {type : ConfigType} (hkind : type.kind = config.configType.kind) {object : RemoteObject}
    (hkey : object.key config.configType.identity = payload.key config.configType.identity) :
    (config.deleteEntry values).Finds type object := by
  have hsome := key_of_prepare_ok hprepare
  unfold deleteEntry
  cases hconfig : config.configType.kind with
  | classicApi =>
    rw [ConfigType.identity_of_classicApi hconfig] at hkey hsome
    obtain ⟨name, hname⟩ := Option.isSome_iff_exists.1 hsome
    have htext := (texts_of_prepare_ok hprepare).1
    refine .name (hkind.trans hconfig) (hkey.trans ?_)
    rw [← htext, Payload.key] at *
    rw [hname, Option.getD_some]
  | settings | automation | bucket =>
    have hother : config.configType.kind ≠ .classicApi := by simp [hconfig]
    rw [ConfigType.identity_of_kind hother] at hkey
    refine .externalId (hkind ▸ hother) rfl (hkey.trans ?_)
    rw [Payload.key, (prepare_ok hprepare).2.1]

end Config

/-! ### How many objects there are -/

/-- There are more objects by as many as were created. -/
def Swells (view : σ → Store) (s t : σ) : Prop :=
  (view t).size + (view s).creates = (view s).size + (view t).creates

theorem Swells.of_view_eq {s t : σ} (h : view t = view s) : Swells view s t := by
  rw [Swells, h]

theorem Platform.Serves.tracks_swells (h : P.Serves policy view) : P.Tracks view (Swells view) where
  refl _ := rfl
  trans h h' := by
    unfold Swells at *
    omega
  elapse s := .of_view_eq (h.elapse s)
  handle r s hfits := by
    rcases h.handle r s with ⟨_, hview⟩ | ⟨_, hview⟩
    · rw [Swells, hview]
      cases r with
      | list type => rfl
      | create type payload => exact Store.size_create policy type payload (view s)
      | update type id payload =>
        rw [Store.handle, Store.size_update, Store.creates_update]
      | delete type id => cases hfits
    · exact .of_view_eq hview

/-! ### What a deployment leaves behind -/

/-- The entries of the configs that are reported as deployed, under the values of the attempts at
them. -/
def entriesOf (result : EnvironmentResult) (attempts : List (Attempt σ)) : List DeleteEntry :=
  match result with
  | .error _ => []
  | .ok report =>
    attempts.filterMap fun a =>
      if isSatisfied report.states a.config.coordinate then
        a.result.toOption.map fun entity => a.config.deleteEntry entity.properties
      else none

namespace Completed

variable {g : DependencyGraph} {report : DeployReport} {context : Context}
  {attempts : List (Attempt σ)} (h : Completed P vars g configs report context attempts s)

include h

theorem isSatisfied_iff {a : Attempt σ} (ha : a ∈ attempts) :
    isSatisfied report.states a.config.coordinate = a.result.isOk := by
  rw [isSatisfied, (h.tried ha).2.2.2]
  cases a.result <;> rfl

theorem mem_entriesOf {a : Attempt σ} (ha : a ∈ attempts) {entity : ResolvedEntity}
    (hresult : a.result = .ok entity) :
    a.config.deleteEntry entity.properties ∈ entriesOf (.ok report) attempts := by
  refine List.mem_filterMap.2 ⟨a, ha, ?_⟩
  rw [h.isSatisfied_iff ha, hresult]
  rfl

theorem length_entriesOf (H : g.IsGraphOf configs) :
    (entriesOf (.ok report) attempts).length = report.deployedCount := by
  rw [entriesOf, List.length_filterMap_eq_countP, ← h.countP_deployed H]
  apply List.countP_congr
  intro a ha
  rw [h.isSatisfied_iff ha]
  cases a.result <;> exact .rfl

end Completed

section

variable (hserves : P.Serves policy view) (hconfigs : ∀ config ∈ configs, config.IsManaged)

include hserves hconfigs

variable (vars) in
theorem swells_deployEnvironment (environment : String) (s : σ) :
    Swells view s (deployEnvironment P vars environment configs s).2 :=
  ((timeline_history P vars environment configs s).moves hserves.tracks_swells.toIdles
    fun _ ha => (mem_history ha).2.moves (hconfigs _ (mem_history ha).1) hserves
      hserves.tracks_swells).1

/-- What a config was deployed to is found by its entry. -/
theorem matches_deleteEntry (environment : String) (hkept : (view s).WellKept policy)
    {a : Attempt σ} (ha : a ∈ history P vars configs s) {entity : ResolvedEntity}
    (hresult : a.result = .ok entity) :
    (a.config.deleteEntry entity.properties).Matches
      (view (deployEnvironment P vars environment configs s).2) entity.remoteId := by
  have htyped := (hconfigs _ (mem_history ha).1).typed
  obtain ⟨payload, hprepare, hholds⟩ :=
    holds_of_history hserves hconfigs environment hkept ha hresult
  have hindex := Store.mem_holders_iff.1 (hholds.holders ▸ List.mem_singleton_self _)
  obtain ⟨o, ho, hentry⟩ := List.mem_map.1 hindex
  obtain ⟨hid, hkey⟩ := Prod.mk.inj hentry
  rw [← htyped.isRegular] at hkey
  obtain ⟨type, version, htype, heq⟩ := id htyped
  refine ⟨type, ?_, o, ?_, hid, ?_⟩
  · rw [Config.configType_deleteEntry, htype]
  · rw [Store.objectsOf_eq, (ConfigType.ofName?_eq_some htype).1, ← htyped.name_configType]
    exact ho
  · exact Config.deleteEntry_finds hprepare (heq ▸ (type.kind_withSchemaVersion version).symm) hkey

/-- If there were no objects before, each one is now found by one of the entries. -/
theorem exists_entry (environment : String) (hkept : (view s).WellKept policy)
    (hnone : ∀ name, (view s).objectsUnder name = []) {name : String} {o : StoredObject}
    (ho : o ∈ (view (deployEnvironment P vars environment configs s).2).objectsUnder name) :
    let run := deployEnvironment P vars environment configs s
    ∃ e ∈ entriesOf run.1 (history P vars configs s), e.configType = name ∧
      e.Matches (view run.2) o.remote.id := by
  have hid : o.remote.id ∈ (view (deployEnvironment P vars environment configs s).2).ids name := by
    rw [Store.ids_eq]
    exact List.mem_map_of_mem ho
  have hnew : o.remote.id ∉ (view s).ids name := by
    rw [Store.ids_eq, hnone]
    exact List.not_mem_nil
  -- The object is new, so one of the attempts has come to it.
  obtain ⟨a, ha, rfl, entity, hresult, hsame⟩ :=
    (hserves.spares_history vars environment configs hkept).2.new hid hnew
  cases hbuild : DependencyGraph.build configs with
  | error errors =>
    rw [deployEnvironment_of_error hbuild, hnone] at ho
    cases ho
  | ok g =>
    obtain ⟨report, _, hreport, h⟩ := deployEnvironment_completed P vars hbuild environment s
    refine ⟨a.config.deleteEntry entity.properties, ?_, ?_, ?_⟩
    · rw [hreport]
      exact h.mem_entriesOf ha hresult
    · rw [Config.configType_deleteEntry, (hconfigs _ (mem_history ha).1).typed.name_configType]
    · rw [← hsame]
      exact matches_deleteEntry hserves hconfigs environment hkept ha hresult

end

/-- What was deployed to a platform without objects, whatever failed there and whenever it was
stopped, is taken back by a delete run that is given one entry for each deployed config. -/
theorem deleteEntries_undoes {text environment : String} {m : Manifest}
    (h : Manifest.ofText text = .ok m)
    (horigin : ∀ config ∈ m.configsFor environment, config.originObjectId = none)
    (hserves : P.Serves policy view) (vars : Variables) (hkept : (view s).WellKept policy)
    (hnone : ∀ name, (view s).objectsUnder name = []) :
    let configs := m.configsFor environment
    let deployed := deployEnvironment P vars environment configs s
    let undoing := entriesOf deployed.1 (history P vars configs s)
    (∀ report, deployed.1 = .ok report → undoing.length = report.deployedCount) ∧
      ∀ entries : List DeleteEntry, (∀ e, e ∈ entries ↔ e ∈ undoing) →
        let deleted := deleteEntries (Store.platform policy) entries (view deployed.2)
        (∀ name, deleted.2.objectsUnder name = []) ∧
          (∀ result ∈ deleted.1.results, ∀ error, result.outcome ≠ .failed error) ∧
          (view s).creates + deleted.1.deletedCount = (view deployed.2).creates := by
  intro configs deployed undoing
  obtain ⟨_, _, hdocument⟩ := Manifest.ofText_eq_ok_iff.1 h
  have hconfigs : ∀ config ∈ configs, config.IsManaged := by
    intro config hconfig
    obtain ⟨_, _, hdeclared⟩ := Manifest.exists_isDeclared hdocument hconfig
    exact ⟨hdeclared.isTyped, horigin config hconfig⟩
  constructor
  · intro report hreport
    obtain ⟨_, _, H, hcompleted⟩ := completed_of_report hreport
    show (entriesOf deployed.1 _).length = _
    rw [hreport]
    exact hcompleted.length_entriesOf H
  · intro entries hentries deleted
    have hkept' : (view deployed.2).WellKept policy :=
      (hserves.spares_history vars environment configs hkept).1
    obtain ⟨hresults, hloses, _⟩ := deleteEntries_store policy entries (view deployed.2)
    have hleft : ∀ name, deleted.2.objectsUnder name = [] := by
      intro name
      rw [hloses.objectsUnder]
      apply List.filter_eq_nil_iff.2
      intro o ho
      obtain ⟨e, he, hname, hmatches⟩ := exists_entry hserves hconfigs environment hkept hnone ho
      have hgone := Store.mem_flatMap_named.2 ⟨e, (hentries e).2 he, hname, hmatches⟩
      rwa [decide_eq_true_eq, not_not]
    refine ⟨hleft, ?_, ?_⟩
    · intro result hresult error hfailed
      obtain ⟨gone, houtcome⟩ := exists_outcome_of_mem_results (hresults ▸ hresult)
      exact Store.outcome_ne_failed (houtcome.symm.trans hfailed)
    · have hswells : Swells view s deployed.2 :=
        swells_deployEnvironment vars hserves hconfigs environment s
      have hsize : (view deployed.2).size = deleted.2.size + deleted.1.deletedCount :=
        (removal_deleteEntries policy hkept'.nodup entries).size
      rw [Store.size_eq_zero hleft] at hsize
      rw [Swells, Store.size_eq_zero hnone] at hswells
      omega

/-! ### A deployment that is stopped, and two configs with one object -/

namespace Leftovers

def text : String :=
  "environment dev
project p \x7b
  config slo a \x7b template x; param name zone \x7d
  config slo b \x7b template y; param name zone \x7d
  config bucket c \x7b template x \x7d
  config workflow d \x7b template x \x7d
\x7d"

/-- The flag is set when the object of `a` is updated for `b`. -/
def disturbance : Supervisor := fun _ => FaultRule.combine
  [⟨.update, some "p:slo:b", ⟨true, none⟩⟩]

def disturbed : Platform (Supervised Store) :=
  (Store.platform (.numbered [])).supervised disturbance

def undoing : List DeleteEntry :=
  [⟨"bucket", "c", some "p"⟩, ⟨"slo", "zone", none⟩, ⟨"slo", "zone", none⟩]

theorem undone : ∃ m, Manifest.ofText text = .ok m ∧
    let deployed := deployEnvironment disturbed (fun _ => none) "dev" (m.configsFor "dev")
      (.start .empty)
    let deleted := deleteEntries (Store.platform (.numbered [])) undoing deployed.2.inner
    (∀ name, deleted.2.objectsUnder name = []) ∧ deployed.2.inner.creates = 2 ∧
      deleted.1.deletedCount = 2 := by
  have haccepted : (Manifest.ofText text).toOption.map (fun m =>
      let configs := m.configsFor "dev"
      let deployed := deployEnvironment disturbed (fun _ => none) "dev" configs (.start .empty)
      (configs.all fun config => config.originObjectId.isNone,
        entriesOf deployed.1 (history disturbed (fun _ => none) configs (.start .empty)),
        deployed.2.inner.creates)) = some (true, undoing, 2) := by decide +kernel
  cases hm : Manifest.ofText text with
  | error e =>
    rw [hm] at haccepted
    cases haccepted
  | ok m =>
    rw [hm] at haccepted
    obtain ⟨horigin, hrest⟩ := Prod.mk.inj (Option.some.inj haccepted)
    obtain ⟨hentries, hcreates⟩ := Prod.mk.inj hrest
    have hplain : ∀ config ∈ m.configsFor "dev", config.originObjectId = none :=
      fun config hconfig => Option.isNone_iff_eq_none.1 (List.all_eq_true.1 horigin config hconfig)
    have hserves : disturbed.Serves (.numbered []) Supervised.inner :=
      (Store.serves (.numbered [])).supervised disturbance
    have hundoes := deleteEntries_undoes (s := Supervised.start Store.empty) hm hplain hserves
      (fun _ => none) (Store.wellKept_empty (StorePolicy.injective_newId_numbered [])) fun _ => rfl
    obtain ⟨hleft, _, hcount⟩ := hundoes.2 undoing fun e => by rw [hentries]
    rw [hcreates] at hcount
    exact ⟨m, rfl, hleft, hcreates, (Nat.zero_add _).symm.trans hcount⟩

end Leftovers

end Rollout
