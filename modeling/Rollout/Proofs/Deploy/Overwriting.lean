import Rollout.Proofs.Deploy.Redeployment
import Rollout.Proofs.Deploy.Rounds
import Rollout.Proofs.Deploy.Sparing

/-! What the environments of one deployment do to each other. They write to one platform, where an
object is known by the name of its type and by its key; neither tells the environments apart. So a
config keeps what it was deployed as only until a later environment brings something else to the
same key. -/

namespace Rollout

variable {σ : Type} {P : Platform σ} {policy : StorePolicy} {view : σ → Store} {vars : Variables}
  {projects : List Project} {name id : String} {payload payload' : Payload} {s t : σ}

/-- The one object of a type with an id is as it was brought there. Without a name in the payload it
may have any. -/
def Store.Carries (s : Store) (name : String) (payload : Payload) (id : String) : Prop :=
  ∃ objectName, (payload.name.isSome → objectName = payload.name) ∧
    (s.objectsUnder name).filter (·.remote.id = id) =
      [⟨⟨id, objectName, some payload.externalId⟩, payload.scope, payload.content⟩]

/-- The attempt ended well, and brought a payload to an object of the type with that name. -/
structure Attempt.Reaches (vars : Variables) (a : Attempt σ) (name : String) (payload : Payload)
    (id : String) : Prop where
  name_eq : a.config.configType.name = name
  prepare_result : ∃ values, a.config.prepare vars a.context = .ok (payload, values) ∧
    a.result = .ok ⟨a.config.coordinate, id, values⟩

theorem Attempt.Ran.reaches {a : Attempt σ} (h : a.Ran P vars) {entity : ResolvedEntity}
    (hresult : a.result = .ok entity) :
    ∃ payload, a.Reaches vars a.config.configType.name payload entity.remoteId := by
  obtain ⟨payload, hprepare, hcoordinate⟩ := h.of_ok hresult
  exact ⟨payload, rfl, entity.properties, hprepare, hcoordinate ▸ hresult⟩

theorem exists_reaches_of_touches {attempts : List (Attempt σ)}
    (hran : ∀ a ∈ attempts, a.Ran P vars)
    (h : Touches attempts name id) : ∃ a ∈ attempts, ∃ payload, a.Reaches vars name payload id := by
  obtain ⟨a, ha, rfl, entity, hresult, rfl⟩ := h
  exact ⟨a, ha, (hran a ha).reaches hresult⟩

theorem Attempt.Reaches.touches {attempts : List (Attempt σ)} {a : Attempt σ}
    (h : a.Reaches vars name payload id) (ha : a ∈ attempts) : Touches attempts name id := by
  obtain ⟨hname, _, _, hresult⟩ := h
  exact ⟨a, ha, hname, _, hresult, rfl⟩

/-! ### Last writers -/

theorem Store.filter_id_eq_singleton {s : Store} (h : (s.ids name).Nodup) {o : StoredObject}
    (ho : o ∈ s.objectsUnder name) (hid : o.remote.id = id) :
    (s.objectsUnder name).filter (·.remote.id = id) = [o] := by
  subst hid
  rw [ids_eq] at h
  have hnodup := (List.Nodup.of_map _ h).filter fun p => decide (p.remote.id = o.remote.id)
  rw [← List.perm_singleton, List.perm_ext_iff_of_nodup hnodup (List.nodup_singleton o)]
  intro p
  rw [List.mem_filter, List.mem_singleton, decide_eq_true_eq]
  constructor
  · rintro ⟨hp, hid⟩
    exact List.inj_on_of_nodup_map h hp ho hid
  · rintro rfl
    exact ⟨ho, rfl⟩

theorem Store.Spares.carries {s t : Store} {touched : String → String → Prop}
    (h : s.Spares touched t) (hids : (t.ids name).Nodup) (huntouched : ¬ touched name id)
    (hcarries : s.Carries name payload id) : t.Carries name payload id := by
  obtain ⟨objectName, hname, hfilter⟩ := hcarries
  have hmem := List.mem_of_mem_filter (hfilter ▸ List.mem_singleton_self _)
  exact ⟨objectName, hname, filter_id_eq_singleton hids ((h.others huntouched).2 hmem) rfl⟩

namespace Timeline

variable {attempts : List (Attempt σ)} (h : Timeline P s attempts t)
  (hserves : P.Serves policy view) (hran : ∀ a ∈ attempts, a.Ran P vars)
  (hkept : (view s).WellKept policy)

include h hserves hran hkept

/-- What was brought to an object last is in it at the end. -/
theorem carries_of_last {before after : List (Attempt σ)} {b : Attempt σ}
    (hsplit : attempts = before ++ b :: after) (hreaches : b.Reaches vars name payload id)
    (hlast : ¬ Touches after name id) : (view t).Carries name payload id := by
  have hkeptT := (hserves.spares_timeline h hran hkept).1
  subst hsplit
  obtain ⟨rfl, values, hprepare, hresult⟩ := hreaches
  obtain ⟨_, objectName, hprepare', hname, hobject⟩ :=
    h.stays_of_untouched hserves hran hkept hresult hlast
  cases hprepare'.symm.trans hprepare
  exact ⟨objectName, hname, Store.filter_id_eq_singleton (hkeptT.nodup _) hobject rfl⟩

/-- An object that some attempt came to has what was brought there last. -/
theorem exists_last_writer (htouches : Touches attempts name id) :
    ∃ b ∈ attempts, ∃ payload, b.Reaches vars name payload id ∧
      (view t).Carries name payload id := by
  obtain ⟨before, b, after, hsplit, ⟨payload, hreaches⟩, hlast⟩ :=
    exists_last (p := fun b : Attempt σ => ∃ payload, b.Reaches vars name payload id)
      (exists_reaches_of_touches hran htouches)
  have hmem : ∀ c ∈ b :: after, c ∈ attempts :=
    fun c hc => hsplit ▸ List.mem_append_right _ hc
  refine ⟨b, hmem b List.mem_cons_self, payload, hreaches,
    h.carries_of_last hserves hran hkept hsplit hreaches fun htouched => ?_⟩
  obtain ⟨c, hc, hother⟩ := exists_reaches_of_touches
    (fun c hc => hran c (hmem c (List.mem_cons_of_mem _ hc))) htouched
  exact hlast c hc hother

/-- Where objects are looked for by their keys, these alone decide what comes to one object. -/
theorem id_eq_iff (hmanaged : ∀ a ∈ attempts, a.config.IsManaged) {a b : Attempt σ}
    (ha : a ∈ attempts) (hb : b ∈ attempts) {id' : String}
    (hreaches : a.Reaches vars name payload id)
    (hreaches' : b.Reaches vars name payload' id') :
    id' = id ↔ payload'.key (.ofTypeName name) = payload.key (.ofTypeName name) := by
  have hkeptT := ((h.grows hserves hran hmanaged).1 hkept).1
  have hholders : ∀ c ∈ attempts, ∀ {q i}, c.Reaches vars name q i →
      (view t).holders name (q.key (.ofTypeName name)) = [i] := by
    rintro c hc q i ⟨rfl, values, hprepare, hresult⟩
    obtain ⟨_, hprepare', hholds⟩ := h.holds hserves hran hmanaged hkept hc hresult
    cases hprepare'.symm.trans hprepare
    rw [← (hmanaged c hc).typed.isRegular]
    exact hholds.holders
  have hheld := hholders a ha hreaches
  have hheld' := hholders b hb hreaches'
  constructor
  · rintro rfl
    have hentry := Store.mem_holders_iff.1 (hheld ▸ List.mem_singleton_self _)
    have hentry' := Store.mem_holders_iff.1 (hheld' ▸ List.mem_singleton_self _)
    exact Store.key_eq_of_mem_index (hkeptT.nodup name) hentry' hentry
  · intro hkey
    rw [hkey] at hheld'
    exact (List.singleton_inj.1 (hheld.symm.trans hheld')).symm

end Timeline

/-! ### Deployments -/

/-- What became of the object that an attempt came to, in its own round and in later ones. -/
structure Attempt.Fares (vars : Variables) (own later : List (Attempt σ)) (t : Store)
    (a : Attempt σ) (name : String) (payload : Payload) (id : String) : Prop where
  reaches : a.Reaches vars name payload id
  /-- If a later round came to it too, then it has what such a round brought. -/
  overwritten : Touches later name id → ∃ b ∈ later, ∃ payload', b.Reaches vars name payload' id ∧
    t.Carries name payload' id
  /-- If neither a later round did nor another config of its own round, then it is as it was. -/
  kept : ¬ Touches later name id → (∀ b ∈ own, ∀ payload', b.Reaches vars name payload' id →
    b.config.coordinate = a.config.coordinate) → t.Carries name payload id
  /-- Who came to it had the same key, and who had the same key came to it. -/
  id_eq_iff : (∀ b ∈ own ++ later, b.config.IsManaged) → ∀ b ∈ own ++ later, ∀ payload' id',
    b.Reaches vars name payload' id' →
      (id' = id ↔ payload'.key (.ofTypeName name) = payload.key (.ofTypeName name))

/-- A config that has just one attempt in its round. -/
theorem Attempt.Reaches.fares {own later : List (Attempt σ)} {a : Attempt σ} {u : σ}
    (hreaches : a.Reaches vars name payload id) (ha : a ∈ own)
    (honly : ∀ b ∈ own, b.config.coordinate = a.config.coordinate → b = a)
    (hserves : P.Serves policy view) (hown : Timeline P s own u) (hlater : Timeline P u later t)
    (hran : ∀ b ∈ own ++ later, b.Ran P vars) (hkept : (view s).WellKept policy) :
    a.Fares vars own later (view t) name payload id := by
  obtain ⟨hranOwn, hranLater⟩ := List.forall_mem_append.1 hran
  have hkeptU := (hserves.spares_timeline hown hranOwn hkept).1
  refine ⟨hreaches, hlater.exists_last_writer hserves hranLater hkeptU, ?_, ?_⟩
  · intro huntouched halone
    obtain ⟨b, hb, payload', hreaches', hcarries⟩ :=
      hown.exists_last_writer hserves hranOwn hkept (hreaches.touches ha)
    obtain rfl := honly b hb (halone b hb payload' hreaches')
    obtain ⟨_, _, hprepare, _⟩ := hreaches
    obtain ⟨_, _, hprepare', _⟩ := hreaches'
    cases hprepare'.symm.trans hprepare
    obtain ⟨hkeptT, hspares⟩ := hserves.spares_timeline hlater hranLater hkeptU
    exact hspares.carries (hkeptT.nodup _) huntouched hcarries
  · intro hmanaged b hb payload' id' hreaches'
    exact (hown.append hlater).id_eq_iff hserves hran hkept hmanaged (List.mem_append_left _ ha) hb
      hreaches hreaches'

/-- In whatever environments a deployment consists, and whatever fails: the object of a config that
is reported as deployed is at the end as it was rendered for this config and environment, unless
another config of the environment or a config of a later environment was deployed to it; then it has
what was brought there last. To be deployed to one object it takes no more than one type and key. -/
theorem deployProjects_overwrites (hserves : P.Serves policy view) (vars : Variables)
    (projects : List Project) (names : List String) (s : σ) (hkept : (view s).WellKept policy) :
    let run := deployProjects P vars projects names s
    let rs := rounds P vars projects (selectedNames projects names) s
    ∀ environment report, run.1.get? environment = some (.ok report) →
      ∀ config ∈ configsFor projects environment, ∀ id,
      report.states.get? config.coordinate = some (.deployed id) →
      ∃ before r after, rs = before ++ r :: after ∧ r.environment = environment ∧
        environment ∉ after.map (·.environment) ∧
        ∃ a ∈ r.attempts P vars, ∃ payload values, a.config = config ∧
          config.prepare vars a.context = .ok (payload, values) ∧
          config.template.render values = .ok payload.content ∧
          a.Fares vars (r.attempts P vars) (after.flatMap (Round.attempts P vars)) (view run.2)
            config.configType.name payload id := by
  intro run rs environment report hreport config hconfig id hstate
  have hrun : run = _ := deployProjects_run P vars projects names s
  rw [hrun, get?_collect, SortedMap.get?_empty, Option.or_none] at hreport
  obtain ⟨r, hlast, hresult⟩ := Option.map_eq_some_iff.1 hreport
  obtain ⟨rfl, before, after, hsplit, hnone⟩ := exists_split_of_lastRound? hlast
  obtain ⟨hr, hbefore, hafter⟩ := timeline_rounds_split hsplit
  refine ⟨before, r, after, hsplit, rfl, hnone, ?_⟩
  have hconfigs : r.configs = configsFor projects r.environment := by rw [hr]; rfl
  have hround :
      deployEnvironment P vars r.environment r.configs r.before = (.ok report, r.after) := by
    rw [← hresult, hr]
    rfl
  have hown := timeline_history P vars r.environment r.configs r.before
  rw [hround] at hown
  obtain ⟨_, _, _, hcompleted⟩ := completed_of_report (congrArg Prod.fst hround)
  obtain ⟨a, ha, entity, rfl, hran, hresultA, rfl, _⟩ :=
    hcompleted.exists_attempt (hconfigs ▸ hconfig) hstate
  obtain ⟨payload, hreaches⟩ := hran.reaches hresultA
  obtain ⟨values, hprepare, _⟩ := hreaches.prepare_result
  refine ⟨a, ha, payload, values, rfl, hprepare, (prepare_ok hprepare).2.2.1, ?_⟩
  have hkeptR := (hserves.spares_timeline hbefore (fun _ => ran_of_mem_attempts) hkept).1
  rw [hrun]
  refine hreaches.fares ha ?_ hserves hown hafter ?_ hkeptR
  · intro b hb hsame
    have hfilter := hcompleted.filter_eq hb
    rw [hsame] at hfilter
    cases hfilter.symm.trans (hcompleted.filter_eq ha)
    rfl
  · exact List.forall_mem_append.2 ⟨fun _ hb => (mem_history hb).2, fun _ => ran_of_mem_attempts⟩

/-! ### One config in two environments -/

namespace Staged

def flag (environment : String) : Config where
  coordinate := ⟨"shop", "workflow", "flag"⟩
  configType := .automation "workflow"
  environment := environment
  parameters := ∅
  template := ⟨"flag.json", environment⟩
  skip := false
  originObjectId := none

def shop : List Project := [((Project.new "shop").push (flag "dev")).push (flag "prod")]

def store : Platform Store := Store.platform (.numbered [])

def deployed : SortedMap String EnvironmentResult × Store :=
  deployProjects store (fun _ => none) shop ["dev", "prod"] .empty

def stateOf (environment : String) : Option ConfigState :=
  (deployed.1.get? environment).bind fun result =>
    result.toOption.bind (·.states.get? ⟨"shop", "workflow", "flag"⟩)

/-- Both environments report the one object, which has what the second one says. -/
theorem dev_overwritten :
    ["dev", "prod"].Nodup ∧ configsFor shop "dev" = [flag "dev"] ∧
      configsFor shop "prod" = [flag "prod"] ∧ stateOf "dev" = some (.deployed "object-0") ∧
      stateOf "prod" = some (.deployed "object-0") ∧
      (flag "dev").template.render ∅ = .ok "dev" ∧
      (deployed.2.objectsUnder "workflow").map (fun o => (o.remote.id, o.content)) =
        [("object-0", "prod")] := by
  have hrun : (stateOf "dev", stateOf "prod",
      (deployed.2.objectsUnder "workflow").map fun o => (o.remote.id, o.content)) =
      (some (.deployed "object-0"), some (.deployed "object-0"), [("object-0", "prod")]) := by
    decide +kernel
  obtain ⟨hdev, hrest⟩ := Prod.mk.inj hrun
  obtain ⟨hprod, hobjects⟩ := Prod.mk.inj hrest
  exact ⟨by decide, rfl, rfl, hdev, hprod, rfl, hobjects⟩

/-- What became of the object of the first environment. -/
theorem dev_fares : Store.empty.WellKept (.numbered []) ∧
    ∃ before r after, rounds store (fun _ => none) shop ["dev", "prod"] .empty =
        before ++ r :: after ∧ r.environment = "dev" ∧
      ∃ (a : Attempt Store) (payload : Payload), a.config = flag "dev" ∧ payload.content = "dev" ∧
        a.Fares (fun _ => none) (r.attempts store (fun _ => none))
          (after.flatMap (Round.attempts store (fun _ => none))) deployed.2 "workflow" payload
          "object-0" := by
  have hkept := Store.wellKept_empty (StorePolicy.injective_newId_numbered [])
  have hstate : stateOf "dev" = some (.deployed "object-0") := by decide +kernel
  have hoverwrites := deployProjects_overwrites (Store.serves (.numbered [])) (fun _ => none) shop
    ["dev", "prod"] .empty hkept
  obtain ⟨result, hresult, hreported⟩ := Option.bind_eq_some_iff.1 hstate
  obtain ⟨report, hreport, hdeployed⟩ := Option.bind_eq_some_iff.1 hreported
  obtain rfl : result = .ok report := by
    cases result with
    | error _ => cases hreport
    | ok _ => exact congrArg _ (Option.some.inj hreport)
  obtain ⟨before, r, after, hsplit, hr, _, a, _, payload, values, ha, _, hrender, hfares⟩ :=
    hoverwrites "dev" report hresult (flag "dev") (List.mem_singleton_self _) "object-0" hdeployed
  have hcontent : (flag "dev").template.render values = .ok "dev" := rfl
  have hsame := Except.ok.inj (hrender.symm.trans hcontent)
  exact ⟨hkept, before, r, after, hsplit, hr, a, payload, ha, hsame, hfares⟩

end Staged

end Rollout
