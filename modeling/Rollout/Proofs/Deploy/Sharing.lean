import Rollout.Proofs.Deploy.Sparing

/-! Which configs of a classic API share an object. The objects of an API are found again by their
names alone, so two configs are deployed to one object just if their names came out the same; the
object then holds what was brought to it last. -/

namespace Rollout

variable {σ : Type} {P : Platform σ} {policy : StorePolicy} {view : σ → Store} {vars : Variables}
  {type : ConfigType} {api : String} {payload payload' : Payload} {name name' : Option String}
  {id id' : String} {configs : List Config} {s : σ}

/-! ### Names of objects -/

namespace Store

variable {s t : Store}

/-- Of the objects of an API, just the one with the id has the name. -/
def Reserves (s : Store) (api : String) (name : Option String) (id : String) : Prop :=
  ∀ o ∈ s.objectsUnder api, o.remote.name = name ↔ o.remote.id = id

/-- The object with the id is the one of the API with the name. -/
structure Bears (s : Store) (api : String) (name : Option String) (id : String) : Prop where
  mem : id ∈ s.ids api
  reserves : s.Reserves api name id

theorem Bears.id_eq_iff (h : s.Bears api name id) (h' : s.Bears api name' id') :
    id' = id ↔ name' = name := by
  obtain ⟨o, ho, rfl⟩ := List.mem_map.1 (ids_eq s api ▸ h'.mem)
  rw [← h.reserves o ho, (h'.reserves o ho).2 rfl]

/-- The object with the id is as it was brought to the API. -/
def Contains (s : Store) (api : String) (payload : Payload) (id : String) : Prop :=
  ⟨⟨id, payload.name, some payload.externalId⟩, payload.scope, payload.content⟩ ∈
    s.objectsUnder api

namespace Writes

variable (h : Writes policy type payload id s t)

include h

/-- The object that is written has the name that was reserved for it. -/
theorem bears (hname : payload.name.isSome) (hreserves : s.Reserves type.name payload.name id) :
    t.Bears type.name payload.name id := by
  refine ⟨h.mem_ids_iff.2 (.inl ⟨rfl, rfl⟩), fun o ho => ?_⟩
  by_cases hown : o.remote.id = id
  · obtain ⟨_, heq, hmem⟩ := h.own
    refine iff_of_true ?_ hown
    rw [(hmem hown).1 ho]
    exact heq hname
  · exact hreserves o ((h.others fun hsame => hown hsame.2).1 ho)

/-- Another object of the API keeps its name for itself. -/
theorem keeps_bears (hname : type.name = api → payload.name.isSome)
    (hreserves : type.name = api → s.Reserves api payload.name id)
    (hbears : s.Bears api name id') : t.Bears api name id' := by
  refine ⟨h.mem_ids_iff.2 (.inr hbears.mem), fun o ho => ?_⟩
  by_cases hown : api = type.name ∧ o.remote.id = id
  · obtain ⟨rfl, hid⟩ := hown
    have hwritten := h.bears (hname rfl) (hreserves rfl)
    obtain ⟨old, hold, hid'⟩ := List.mem_map.1 (ids_eq s _ ▸ hbears.mem)
    have hsame := hreserves rfl old hold
    rw [(hbears.reserves old hold).2 hid', hid'] at hsame
    rw [(hwritten.reserves o ho).2 hid, hid]
    exact ⟨fun h => (hsame.1 h.symm).symm, fun h => (hsame.2 h.symm).symm⟩
  · exact hbears.reserves o ((h.others hown).1 ho)

end Writes

/-- What a search by name finds among the objects of an API. -/
def found (s : Store) (api : String) (payload : Payload) : List RemoteObject :=
  ((s.objectsOf (.classicApi api)).map (·.remote)).filter (payload.isFor .name)

theorem mem_found_iff (hname : payload.name.isSome) {object : RemoteObject} :
    object ∈ s.found api payload ↔
      ∃ o ∈ s.objectsUnder api, o.remote = object ∧ o.remote.name = payload.name := by
  have hfor : payload.isFor .name object = true ↔ object.name = payload.name :=
    Payload.isFor_iff hname
  rw [found, List.mem_filter, List.mem_map, hfor, objectsOf_eq]
  constructor
  · rintro ⟨⟨o, ho, rfl⟩, hsame⟩
    exact ⟨o, ho, rfl, hsame⟩
  · rintro ⟨o, ho, rfl, hsame⟩
    exact ⟨⟨o, ho, rfl⟩, hsame⟩

theorem reserves_of_found_nil (hname : payload.name.isSome) (h : s.found api payload = [])
    (hnew : id ∉ s.ids api) : s.Reserves api payload.name id := by
  intro o ho
  apply iff_of_false
  · intro hsame
    exact List.not_mem_nil (h ▸ (mem_found_iff hname).2 ⟨o, ho, rfl, hsame⟩)
  · rintro rfl
    exact hnew (ids_eq s api ▸ List.mem_map.2 ⟨o, ho, rfl⟩)

theorem reserves_of_found_singleton (hname : payload.name.isSome) {object : RemoteObject}
    (h : s.found api payload = [object]) (hids : (s.ids api).Nodup) :
    s.Reserves api payload.name object.id := by
  obtain ⟨old, hold, rfl, hsame⟩ := (mem_found_iff hname).1 (h ▸ List.mem_singleton_self object)
  intro o ho
  constructor
  · intro hsame'
    have hmem := (mem_found_iff hname).2 ⟨o, ho, rfl, hsame'⟩
    rw [h, List.mem_singleton] at hmem
    rw [hmem]
  · intro hid
    rw [ids_eq] at hids
    rwa [List.inj_on_of_nodup_map hids ho hold hid]

end Store

/-- What is looked for by its name is written into the one object that has it, or into a new one. -/
theorem Platform.Serves.reserves_of_discover (hserves : P.Serves policy view)
    (hkept : (view s).WellKept policy) (hname : payload.name.isSome)
    (hok : (discover P (.classicApi api) payload s).1 = .ok id) :
    (view s).Reserves api payload.name id := by
  have hview := hserves.view_list (.classicApi api) s
  rw [discover_run] at hok
  dsimp only at hok
  cases hlisted : (P.handle (.list (.classicApi api)) s).1 with
  | error e =>
    rw [hlisted] at hok
    cases hok
  | ok existing =>
    rw [hlisted] at hok
    cases (hserves.of_ok hlisted).1
    dsimp only [ConfigType.identity] at hok
    split at hok
    · rename_i hfound
      cases hcreated : (P.handle (.create (.classicApi api) payload)
          (P.handle (.list (.classicApi api)) s).2).1 with
      | error e =>
        rw [hcreated] at hok
        cases hok
      | ok new =>
        rw [hcreated] at hok
        cases hok
        obtain ⟨_, rfl⟩ := Store.create_eq_ok (hserves.of_ok hcreated).1
        rw [hview]
        exact Store.reserves_of_found_nil hname hfound (hkept.unused _ (Nat.le_refl _) api)
    · rename_i object hfound
      cases hupdated : (P.handle (.update (.classicApi api) object.id payload)
          (P.handle (.list (.classicApi api)) s).2).1 with
      | error e =>
        rw [hupdated] at hok
        cases hok
      | ok _ =>
        rw [hupdated] at hok
        cases hok
        exact Store.reserves_of_found_singleton hname hfound (hkept.nodup api)
    · cases hok

/-! ### Attempts -/

/-- The config does not know its object, and its type has the name of the API only if it is one of
the API's configs. -/
structure Config.Respects (config : Config) (api : String) : Prop where
  origin : config.originObjectId = none
  type : config.configType.name = api → config.configType = .classicApi api

/-- An attempt at a config of an API that ended well, with what it brought to which object. -/
structure Attempt.Brings (vars : Variables) (a : Attempt σ) (api : String) (payload : Payload)
    (id : String) : Prop where
  type : a.config.configType = .classicApi api
  prepare_result : ∃ values, a.config.prepare vars a.context = .ok (payload, values) ∧
    a.result = .ok ⟨a.config.coordinate, id, values⟩

/-- The store stays well kept, and the objects of an API keep the names that they have alone. -/
def Retains (policy : StorePolicy) (view : σ → Store) (api : String) (s t : σ) : Prop :=
  (view s).WellKept policy → (view t).WellKept policy ∧
    ∀ {name id}, (view s).Bears api name id → (view t).Bears api name id

theorem Platform.Serves.idles_retains (hserves : P.Serves policy view) (api : String) :
    P.Idles (Retains policy view api) where
  refl _ h := ⟨h, id⟩
  trans h h' := fun hkept =>
    have ⟨hkept, hbears⟩ := h hkept
    have ⟨hkept', hbears'⟩ := h' hkept
    ⟨hkept', fun h => hbears' (hbears h)⟩
  elapse s h := (hserves.elapse s).symm ▸ ⟨h, id⟩

theorem Attempt.Brings.of_ok {a : Attempt σ} (h : a.Ran P vars)
    (htype : a.config.configType = .classicApi api) {entity : ResolvedEntity}
    (hresult : a.result = .ok entity) : ∃ payload, a.Brings vars api payload entity.remoteId := by
  obtain ⟨payload, hprepare, hcoordinate⟩ := h.of_ok hresult
  exact ⟨payload, htype, entity.properties, hprepare, hcoordinate ▸ hresult⟩

theorem Attempt.Brings.isSome_name {a : Attempt σ} (h : a.Brings vars api payload id) :
    payload.name.isSome := by
  obtain ⟨_, hprepare, _⟩ := h.prepare_result
  have hkey := key_of_prepare_ok hprepare
  rw [h.type] at hkey
  exact hkey

namespace Attempt.Ran

variable {a : Attempt σ} (h : a.Ran P vars) (hserves : P.Serves policy view)
  (hkept : (view a.before).WellKept policy)

include h hserves hkept

theorem writes_of_brings (hbrings : a.Brings vars api payload id) :
    Store.Writes policy (.classicApi api) payload id (view a.before) (view a.after) := by
  obtain ⟨htype, values, hprepare, hresult⟩ := hbrings
  have htakes := h.takes hserves hkept
  rw [hresult] at htakes
  obtain ⟨_, hprepare', hwrites⟩ := htakes
  cases hprepare'.symm.trans hprepare
  exact htype ▸ hwrites

theorem reserves (horigin : a.config.originObjectId = none)
    (hbrings : a.Brings vars api payload id) :
    (view a.before).Reserves api payload.name id := by
  obtain ⟨values, hprepare, hresult⟩ := hbrings.prepare_result
  cases h with
  | cancelled _ result => cases result.symm.trans hresult
  | unprepared _ _ result => cases result.symm.trans hresult
  | @delivered _ payload' _ prepare result _ =>
    cases prepare.symm.trans hprepare
    have hpolled : view (P.poll a.before).2 = view a.before := hserves.elapse _
    rw [← hpolled] at hkept ⊢
    rw [deliver_run, horigin, hbrings.type] at result
    cases hrun : (discover P (.classicApi api) payload (P.poll a.before).2).1 with
    | error e =>
      rw [hrun] at result
      cases result.symm.trans hresult
    | ok new =>
      rw [hrun] at result
      cases result.symm.trans hresult
      exact hserves.reserves_of_discover hkept hbrings.isSome_name hrun

/-- What is brought to an object gives it its name. -/
theorem bears (horigin : a.config.originObjectId = none)
    (hbrings : a.Brings vars api payload id) : (view a.after).Bears api payload.name id :=
  (h.writes_of_brings hserves hkept hbrings).bears hbrings.isSome_name
    (h.reserves hserves hkept horigin hbrings)

omit hkept in
theorem retains (hrespects : a.config.Respects api) :
    Retains policy view api a.before a.after := by
  intro hkept
  refine ⟨h.keeps hserves.keeps_wellKept hkept, fun {name id} hbears => ?_⟩
  have htakes := h.takes hserves hkept
  cases hresult : a.result with
  | error e =>
    rw [hresult] at htakes
    exact htakes.symm ▸ hbears
  | ok entity =>
    rw [hresult] at htakes
    obtain ⟨payload, hprepare, hwrites⟩ := htakes
    obtain ⟨_, _, hcoordinate⟩ := h.of_ok hresult
    have hbrings : a.config.configType.name = api → a.Brings vars api payload entity.remoteId :=
      fun hname => ⟨hrespects.type hname, _, hprepare, hcoordinate ▸ hresult⟩
    exact hwrites.keeps_bears (fun hname => (hbrings hname).isSome_name)
      (fun hname => h.reserves hserves hkept hrespects.origin (hbrings hname)) hbears

end Attempt.Ran

/-! ### Runs -/

section

variable (hserves : P.Serves policy view) (hconfigs : ∀ config ∈ configs, config.Respects api)

include hserves hconfigs

theorem retains_history (vars : Variables) (environment : String) (s : σ) :
    let t := (deployEnvironment P vars environment configs s).2
    Retains policy view api s t ∧ ∀ a ∈ history P vars configs s,
      Retains policy view api s a.before ∧ Retains policy view api a.after t := by
  apply (timeline_history P vars environment configs s).moves (hserves.idles_retains api)
  intro a ha
  obtain ⟨hconfig, hran⟩ := mem_history ha
  exact hran.retains hserves (hconfigs _ hconfig)

/-- What was brought to an object still gives it its name at the end. -/
theorem bears_of_history (environment : String) (hkept : (view s).WellKept policy)
    {a : Attempt σ} (ha : a ∈ history P vars configs s) (hbrings : a.Brings vars api payload id) :
    (view (deployEnvironment P vars environment configs s).2).Bears api payload.name id := by
  obtain ⟨hconfig, hran⟩ := mem_history ha
  obtain ⟨hbefore, hafter⟩ := (retains_history hserves hconfigs vars environment s).2 a ha
  have hkept' := (hbefore hkept).1
  have hrespects := hconfigs _ hconfig
  exact (hafter (hran.retains hserves hrespects hkept').1).2
    (hran.bears hserves hkept' hrespects.origin hbrings)

/-- What was brought to an object last is in it at the end. -/
theorem contains_of_last (environment : String) (hkept : (view s).WellKept policy)
    {before after : List (Attempt σ)} {a : Attempt σ}
    (hsplit : history P vars configs s = before ++ a :: after)
    (hbrings : a.Brings vars api payload id)
    (hlast : ∀ b ∈ after, ∀ payload', ¬ b.Brings vars api payload' id) :
    (view (deployEnvironment P vars environment configs s).2).Contains api payload id := by
  have htimeline := timeline_history P vars environment configs s
  rw [hsplit] at htimeline
  have hhistory : ∀ b ∈ before ++ a :: after, b.config ∈ configs ∧ b.Ran P vars :=
    fun b hb => mem_history (hsplit ▸ hb)
  have hnamed := hbrings.isSome_name
  obtain ⟨htype, _, hprepare, hresult⟩ := hbrings
  have huntouched : ¬ Touches after a.config.configType.name id := by
    rintro ⟨b, hb, hname, entity, hentity, rfl⟩
    obtain ⟨hconfig, hran⟩ := hhistory b (List.mem_append_right _ (List.mem_cons_of_mem _ hb))
    rw [htype] at hname
    obtain ⟨payload', hbrings'⟩ :=
      Attempt.Brings.of_ok hran ((hconfigs _ hconfig).type hname) hentity
    exact hlast b hb payload' hbrings'
  obtain ⟨_, name, hprepare', hname, hobject⟩ :=
    htimeline.stays_of_untouched hserves (fun b hb => (hhistory b hb).2) hkept hresult huntouched
  cases hprepare.symm.trans hprepare'
  rw [htype, hname hnamed] at hobject
  exact hobject

end

/-- What became of the object of an API that an attempt brought a payload to. -/
structure Attempt.Stands (vars : Variables) (api : String) (attempts : List (Attempt σ))
    (t : Store) (a : Attempt σ) (payload : Payload) (id : String) : Prop where
  brings : a.Brings vars api payload id
  /-- What had the same name, and nothing else, was brought to it too. -/
  id_eq_iff : ∀ b ∈ attempts, ∀ {payload' id'}, b.Brings vars api payload' id' →
    (id' = id ↔ payload'.name = payload.name)
  /-- It is as it was brought there last. -/
  last : ∃ before b after payload', attempts = before ++ b :: after ∧
    b.Brings vars api payload' id ∧ (∀ c ∈ after, ∀ other, ¬ c.Brings vars api other id) ∧
    t.Contains api payload' id
  /-- What nothing else shares its name with is still there. -/
  own : (∀ b ∈ attempts, ∀ {payload' id'}, b.Brings vars api payload' id' →
    payload'.name = payload.name → b.config.coordinate = a.config.coordinate) →
    t.Contains api payload id

theorem stands_of_history {g : DependencyGraph} (hserves : P.Serves policy view)
    (hconfigs : ∀ config ∈ configs, config.Respects api)
    (hbuild : DependencyGraph.build configs = .ok g) (environment : String)
    (hkept : (view s).WellKept policy) {a : Attempt σ} (ha : a ∈ history P vars configs s)
    (hbrings : a.Brings vars api payload id) :
    a.Stands vars api (history P vars configs s)
      (view (deployEnvironment P vars environment configs s).2) payload id := by
  obtain ⟨_, _, _, hcompleted⟩ := deployEnvironment_completed P vars hbuild environment s
  have hbears := bears_of_history hserves hconfigs environment hkept ha hbrings
  have hiff : ∀ b ∈ history P vars configs s, ∀ {payload' id'}, b.Brings vars api payload' id' →
      (id' = id ↔ payload'.name = payload.name) := fun b hb _ _ hbrings' =>
    hbears.id_eq_iff (bears_of_history hserves hconfigs environment hkept hb hbrings')
  obtain ⟨before, b, after, hsplit, ⟨payload', hbrings'⟩, hlast⟩ :=
    exists_last (p := fun b => ∃ payload', b.Brings vars api payload' id) ⟨a, ha, payload, hbrings⟩
  have hb : b ∈ history P vars configs s := by rw [hsplit]; simp
  have hcontains := contains_of_last hserves hconfigs environment hkept hsplit hbrings'
    fun c hc other hother => hlast c hc ⟨other, hother⟩
  refine ⟨hbrings, hiff, ⟨before, b, after, payload', hsplit, hbrings',
    fun c hc other hother => hlast c hc ⟨other, hother⟩, hcontains⟩, fun halone => ?_⟩
  have hsame := halone b hb hbrings' ((hiff b hb hbrings').1 rfl)
  have hfilter := hcompleted.filter_eq hb
  rw [hsame] at hfilter
  cases hfilter.symm.trans (hcompleted.filter_eq ha)
  obtain ⟨_, hprepare, _⟩ := hbrings.prepare_result
  obtain ⟨_, hprepare', _⟩ := hbrings'.prepare_result
  cases hprepare.symm.trans hprepare'
  exact hcontains

/-- Of the configs of an API, those are deployed to one object that came to have the same name. A
config that shares its name with no other one finds its object at the end as it was rendered. -/
theorem deployEnvironment_shares (hserves : P.Serves policy view)
    (hconfigs : ∀ config ∈ configs, config.Respects api) (vars : Variables) (environment : String)
    (s : σ) (hkept : (view s).WellKept policy) :
    let run := deployEnvironment P vars environment configs s
    let attempts := history P vars configs s
    ∀ report, run.1 = .ok report → ∀ c ∈ configs, ∀ d ∈ configs,
      c.configType = .classicApi api → d.configType = .classicApi api → ∀ id id',
      report.states.get? c.coordinate = some (.deployed id) →
      report.states.get? d.coordinate = some (.deployed id') →
      ∃ a ∈ attempts, ∃ b ∈ attempts, ∃ payload payload', a.config = c ∧ b.config = d ∧
        a.Stands vars api attempts (view run.2) payload id ∧
        b.Stands vars api attempts (view run.2) payload' id' ∧
        (id ≠ id' ↔ payload.name ≠ payload'.name) := by
  intro run attempts report hreport c hc d hd hctype hdtype id id' hcstate hdstate
  cases hbuild : DependencyGraph.build configs with
  | error errors =>
    cases (congrArg Prod.fst (deployEnvironment_of_error hbuild environment s)).symm.trans hreport
  | ok g =>
    obtain ⟨_, _, hreport', hcompleted⟩ := deployEnvironment_completed P vars hbuild environment s
    cases hreport'.symm.trans hreport
    obtain ⟨a, ha, entity, rfl, hran, hresult, rfl, _⟩ := hcompleted.exists_attempt hc hcstate
    obtain ⟨b, hb, other, rfl, hran', hresult', rfl, _⟩ := hcompleted.exists_attempt hd hdstate
    obtain ⟨payload, hbrings⟩ := Attempt.Brings.of_ok hran hctype hresult
    obtain ⟨payload', hbrings'⟩ := Attempt.Brings.of_ok hran' hdtype hresult'
    have hstands := stands_of_history hserves hconfigs hbuild environment hkept ha hbrings
    have hstands' := stands_of_history hserves hconfigs hbuild environment hkept hb hbrings'
    exact ⟨a, ha, b, hb, payload, payload', rfl, rfl, hstands, hstands',
      not_congr (hstands'.id_eq_iff a ha hbrings)⟩

/-! ### Configs that meet on an object -/

namespace Namesakes

def named (type : ConfigType) (coordinate : Coordinate) (name content : String) : Config where
  coordinate := coordinate
  configType := type
  environment := "dev"
  parameters := .ofList [("name", .literal (.string name))]
  template := ⟨"tag.json", content⟩
  skip := false
  originObjectId := none

def tag (coordinate : Coordinate) : String → String → Config :=
  named (.classicApi "auto-tag") coordinate

def run (configs : List Config) : EnvironmentResult × Store :=
  deployEnvironment (Store.platform (.numbered [])) (fun _ => none) "dev" configs .empty

/-- Two different configs of one API are deployed to one object, which has what the second one
says. -/
def Meet (configs : List Config) (c d : Config) : Prop :=
  (∀ config ∈ configs, config.originObjectId = none) ∧ c.coordinate ≠ d.coordinate ∧
    c.configType = .classicApi "auto-tag" ∧ d.configType = .classicApi "auto-tag" ∧
    (run configs).1.toOption.map (fun report =>
      (report.states.get? c.coordinate, report.states.get? d.coordinate)) =
      some (some (.deployed "object-0"), some (.deployed "object-0")) ∧
    ((run configs).2.objectsUnder "auto-tag").map (·.content) = [d.template.content]

instance (configs : List Config) (c d : Config) : Decidable (Meet configs c d) :=
  inferInstanceAs (Decidable (_ ∧ _))

def left : Config := tag ⟨"shop", "auto-tag", "left"⟩ "owner" "left"

def right : Config := tag ⟨"shop", "auto-tag", "right"⟩ "owner" "right"

def other : Config := tag ⟨"shop", "auto-tag", "other"⟩ "team" "other"

def first : Config := tag ⟨"shop", "auto-tag", "a:auto-tag:b"⟩ "owner" "first"

/-- It has the API's name as its type without being one of its configs, and the display, so the
external id, of `first`. -/
def impostor : Config :=
  named (.automation "auto-tag") ⟨"shop:auto-tag:a", "auto-tag", "b"⟩ "team" "impostor"

def second : Config := tag ⟨"store", "auto-tag", "c"⟩ "team" "second"

/-- Configs that have one name meet; and with a config of another kind between them, which gives an
object a new name, so do configs that have different names. -/
theorem namesakes_meet : Store.empty.WellKept (.numbered []) ∧ Meet [left, right] left right ∧
    Meet [first, impostor, second] first second := by
  refine ⟨Store.wellKept_empty (StorePolicy.injective_newId_numbered []), ?_, ?_⟩
  · decide +kernel
  · decide +kernel

def tags : List Config := [left, right, other]

theorem left_and_other_stand :
    let attempts := history (Store.platform (.numbered [])) (fun _ => none) tags .empty
    Store.empty.WellKept (.numbered []) ∧ (∀ config ∈ tags, config.Respects "auto-tag") ∧
      ∃ (a b : Attempt Store) (payload payload' : Payload), a.config = left ∧ b.config = other ∧
        a.Stands (fun _ => none) "auto-tag" attempts (run tags).2 payload "object-0" ∧
        b.Stands (fun _ => none) "auto-tag" attempts (run tags).2 payload' "object-1" ∧
        payload.name ≠ payload'.name := by
  have hkept := Store.wellKept_empty (StorePolicy.injective_newId_numbered [])
  have htag : ∀ coordinate name content, (tag coordinate name content).Respects "auto-tag" :=
    fun _ _ _ => ⟨rfl, fun _ => rfl⟩
  have hrespects : ∀ config ∈ tags, config.Respects "auto-tag" := by
    simp only [tags, List.forall_mem_cons]
    exact ⟨htag .., htag .., htag .., fun _ h => absurd h List.not_mem_nil⟩
  have hstates : (run tags).1.toOption.map (fun report =>
      (report.states.get? left.coordinate, report.states.get? other.coordinate)) =
      some (some (.deployed "object-0"), some (.deployed "object-1")) := by decide +kernel
  have hshares := deployEnvironment_shares (Store.serves (.numbered [])) hrespects (fun _ => none)
    "dev" .empty hkept
  dsimp only [id] at hshares
  refine ⟨hkept, hrespects, ?_⟩
  rw [run] at hstates ⊢
  revert hstates hshares
  generalize deployEnvironment _ _ _ _ _ = run
  intro hstates hshares
  cases hrun : run.1 with
  | error _ =>
    rw [hrun] at hstates
    cases hstates
  | ok report =>
    rw [hrun] at hstates
    obtain ⟨hleft, hother⟩ := Prod.mk.inj (Option.some.inj hstates)
    obtain ⟨a, _, b, _, payload, payload', ha, hb, hstands, hstands', hdiffer⟩ :=
      hshares report hrun left (by simp [tags]) other (by simp [tags]) rfl rfl _ _ hleft hother
    exact ⟨a, b, payload, payload', ha, hb, hstands, hstands', hdiffer.1 (by decide)⟩

end Namesakes

end Rollout
