import Rollout.Proofs.Coordinate
import Rollout.Proofs.Deploy.Sparing

/-! A run brings the store to what the configs declare. What is deployed under an external id is
found there at the end as it was rendered: no other config of the run writes to the same object,
since the external ids of different configs differ. -/

namespace Rollout

variable {σ : Type} {P : Platform σ} {policy : StorePolicy} {view : σ → Store} {vars : Variables}
  {g : DependencyGraph} {configs : List Config} {s : σ}

/-- The digest tells the displays of the configs' coordinates apart. -/
def HaveOwnDigests (configs : List Config) : Prop :=
  ∀ c ∈ configs, ∀ d ∈ configs, c.coordinate.digest = d.coordinate.digest →
    c.coordinate.display = d.coordinate.display

theorem ConfigType.identity_of_kind {type : ConfigType} (h : type.kind ≠ .classicApi) :
    type.identity = .externalId := by
  cases type with
  | classicApi _ => exact absurd rfl h
  | settings _ _ | automation _ | bucket => rfl

theorem ConfigType.identity_of_classicApi {type : ConfigType} (h : type.kind = .classicApi) :
    type.identity = .name := by
  cases type with
  | classicApi _ => rfl
  | settings _ _ | automation _ | bucket => cases h

/-- The store has one object for a config, with what the config says under some values of its
parameters. -/
structure Store.Shows (s : Store) (config : Config) (id : String)
    (values : SortedMap String Json) : Prop where
  exists_object : ∃ object,
    (s.objectsOf config.configType).filter
      (·.remote.externalId = some config.coordinate.externalId) = [object] ∧
    object.remote.id = id ∧
    object.scope = parameterText values Config.scopeParameter ∧
    config.template.render values = .ok object.content

/-- Where external ids identify, the holders of one are the objects with it. -/
theorem Store.holders_externalId {type : ConfigType} (hregular : type.IsRegular)
    (hidentity : type.identity = .externalId) (s : Store) (externalId : String) :
    s.holders type.name (some externalId) =
      ((s.objectsOf type).filter (·.remote.externalId = some externalId)).map (·.remote.id) := by
  rw [holders, index, List.filter_map, List.map_map, ← hregular, hidentity, objectsOf_eq]
  exact congrArg _ (List.filter_congr fun o _ => beq_eq_decide _ _)

/-! ### Different configs write to different objects -/

section

variable (hserves : P.Serves policy view) (hconfigs : ∀ config ∈ configs, config.IsManaged)
  (hplain : ∀ config ∈ configs, config.coordinate.IsPlain) (hdigests : HaveOwnDigests configs)

include hserves hconfigs hplain hdigests

theorem objects_differ (environment : String) (hkept : (view s).WellKept policy)
    {a b : Attempt σ} (ha : a ∈ history P vars configs s) (hb : b ∈ history P vars configs s)
    {entity other : ResolvedEntity} (hresult : a.result = .ok entity)
    (hresult' : b.result = .ok other) (hidentity : a.config.configType.identity = .externalId)
    (hne : a.config.coordinate ≠ b.config.coordinate) :
    ¬ (a.config.configType.name = b.config.configType.name ∧
      entity.remoteId = other.remoteId) := by
  rintro ⟨hname, hid⟩
  obtain ⟨haconfig, _⟩ := mem_history ha
  obtain ⟨hbconfig, _⟩ := mem_history hb
  obtain ⟨payload, hprepare, hholds⟩ :=
    holds_of_history hserves hconfigs environment hkept ha hresult
  obtain ⟨payload', hprepare', hholds'⟩ :=
    holds_of_history hserves hconfigs environment hkept hb hresult'
  have hkept' := ((grows_history hserves hconfigs vars environment s).1 hkept).1
  have hidentity' : b.config.configType.identity = .externalId := by
    rw [(hconfigs _ hbconfig).typed.isRegular, ← hname, ← (hconfigs _ haconfig).typed.isRegular,
      hidentity]
  -- Under one id there would be two external ids.
  have hentry := Store.mem_holders_iff.1 (hholds.holders ▸ List.mem_singleton_self _)
  have hentry' := Store.mem_holders_iff.1 (hholds'.holders ▸ List.mem_singleton_self _)
  rw [hidentity] at hentry
  rw [hidentity', ← hname, ← hid] at hentry'
  have hexternal := Option.some.inj (Store.key_eq_of_mem_index (hkept'.nodup _) hentry hentry')
  rw [(prepare_ok hprepare).2.1, (prepare_ok hprepare').2.1] at hexternal
  have hdisplay := hdigests _ haconfig _ hbconfig (Coordinate.digest_eq_of_externalId_eq hexternal)
  exact hne ((hplain _ haconfig).eq_of_display_eq (hplain _ hbconfig) hdisplay)

/-- What a config wrote is still there at the end. -/
theorem object_stays (hbuild : DependencyGraph.build configs = .ok g) (environment : String)
    (hkept : (view s).WellKept policy) {a : Attempt σ} (ha : a ∈ history P vars configs s)
    {entity : ResolvedEntity} (hresult : a.result = .ok entity)
    (hidentity : a.config.configType.identity = .externalId) :
    ∃ payload name, a.config.prepare vars a.context = .ok (payload, entity.properties) ∧
      ⟨⟨entity.remoteId, name, some payload.externalId⟩, payload.scope, payload.content⟩ ∈
        (view (deployEnvironment P vars environment configs s).2).objectsUnder
          a.config.configType.name := by
  obtain ⟨_, _, _, hcompleted⟩ := deployEnvironment_completed P vars hbuild environment s
  have hnodup := hcompleted.nodup_attempts
  have htimeline := timeline_history P vars environment configs s
  have hran : ∀ b ∈ history P vars configs s, b.Ran P vars := fun _ hb => (mem_history hb).2
  obtain ⟨before, after, hsplit⟩ := List.append_of_mem ha
  -- The attempts that follow write to other objects.
  have huntouched : ¬ Touches after a.config.configType.name entity.remoteId := by
    rintro ⟨b, hb, hname, other, hother, hid⟩
    have hbhistory : b ∈ history P vars configs s :=
      hsplit ▸ List.mem_append_right _ (List.mem_cons_of_mem _ hb)
    rw [hsplit, List.map_append, List.map_cons] at hnodup
    have hnew := (List.nodup_cons.1 (List.nodup_append.1 hnodup).2.1).1
    exact objects_differ hserves hconfigs hplain hdigests environment hkept ha hbhistory hresult
      hother hidentity (fun heq => hnew (List.mem_map.2 ⟨b, hb, heq.symm⟩)) ⟨hname.symm, hid.symm⟩
  rw [hsplit] at htimeline hran
  obtain ⟨payload, name, hprepare, _, hobject⟩ :=
    htimeline.stays_of_untouched hserves hran hkept hresult huntouched
  exact ⟨payload, name, hprepare, hobject⟩

theorem shows_of_history (hbuild : DependencyGraph.build configs = .ok g) (environment : String)
    (hkept : (view s).WellKept policy) {a : Attempt σ} (ha : a ∈ history P vars configs s)
    {entity : ResolvedEntity} (hresult : a.result = .ok entity)
    (hidentity : a.config.configType.identity = .externalId) :
    (view (deployEnvironment P vars environment configs s).2).Shows a.config entity.remoteId
      entity.properties := by
  obtain ⟨payload, name, hprepare, hobject⟩ :=
    object_stays hserves hconfigs hplain hdigests hbuild environment hkept ha hresult hidentity
  obtain ⟨payload', hprepare', hholds⟩ :=
    holds_of_history hserves hconfigs environment hkept ha hresult
  cases hprepare.symm.trans hprepare'
  obtain ⟨_, hexternal, hrender, _⟩ := prepare_ok hprepare
  have hholders := hholds.holders
  rw [hidentity, Payload.key, Store.holders_externalId
    (hconfigs _ (mem_history ha).1).typed.isRegular hidentity] at hholders
  obtain ⟨object, hfilter, hid⟩ := List.map_eq_singleton_iff.1 hholders
  have hmem : _ ∈ [object] := hfilter ▸ List.mem_filter.2 ⟨hobject, by simp⟩
  obtain rfl := List.mem_singleton.1 hmem
  refine ⟨_, hexternal ▸ hfilter, rfl, (texts_of_prepare_ok hprepare).2, hrender⟩

end

/-- However a run goes, what it reports as deployed under an external id stands in the store once, at
the reported id, with the scope and the content that were rendered for it. -/
theorem deployEnvironment_converges (hserves : P.Serves policy view)
    (hconfigs : ∀ config ∈ configs, config.IsManaged)
    (hplain : ∀ config ∈ configs, config.coordinate.IsPlain) (hdigests : HaveOwnDigests configs)
    (vars : Variables) (environment : String) (s : σ) (hkept : (view s).WellKept policy) :
    let run := deployEnvironment P vars environment configs s
    ∀ report, run.1 = .ok report → ∀ config ∈ configs, config.configType.kind ≠ .classicApi →
      ∀ id, report.states.get? config.coordinate = some (.deployed id) →
      ∃ a ∈ history P vars configs s, ∃ payload values, a.config = config ∧
        config.prepare vars a.context = .ok (payload, values) ∧
        a.result = .ok ⟨config.coordinate, id, values⟩ ∧
        (view run.2).Shows config id values := by
  intro run report hreport config hconfig hkind id hstate
  cases hbuild : DependencyGraph.build configs with
  | error errors =>
    cases (congrArg Prod.fst (deployEnvironment_of_error hbuild environment s)).symm.trans hreport
  | ok g =>
    obtain ⟨_, _, hreport', hcompleted⟩ := deployEnvironment_completed P vars hbuild environment s
    cases hreport'.symm.trans hreport
    obtain ⟨a, ha, entity, rfl, hran, hresult, rfl, _⟩ :=
      hcompleted.exists_attempt hconfig hstate
    obtain ⟨payload, hprepare, hcoordinate⟩ := hran.of_ok hresult
    refine ⟨a, ha, payload, entity.properties, rfl, hprepare, hcoordinate ▸ hresult, ?_⟩
    exact shows_of_history hserves hconfigs hplain hdigests hbuild environment hkept ha hresult
      (ConfigType.identity_of_kind hkind)

/-! ### Two workflows -/

namespace Workflows

def workflow (id : String) : Config where
  coordinate := ⟨"shop", "workflow", id⟩
  configType := .automation "workflow"
  environment := "dev"
  parameters := .ofList [("title", .literal (.string id))]
  template := ⟨"workflow.json", "\x7b\x7b .title \x7d\x7d"⟩
  skip := false
  originObjectId := none

def workflows : List Config := [workflow "nightly", workflow "weekly"]

theorem forall_workflows {q : Config → Prop} (h : ∀ id ∈ ["nightly", "weekly"], q (workflow id)) :
    ∀ config ∈ workflows, q config := by
  simpa [workflows] using h

theorem haveOwnDigests : HaveOwnDigests workflows := by
  unfold HaveOwnDigests
  decide +kernel

theorem nightly_shown :
    Store.empty.WellKept (.numbered []) ∧ HaveOwnDigests workflows ∧
      ∃ values, (deployEnvironment (Store.platform (.numbered [])) (fun _ => none) "dev" workflows
        .empty).2.Shows (workflow "nightly") "object-0" values := by
  have hkept := Store.wellKept_empty (StorePolicy.injective_newId_numbered [])
  have hstate : (deployEnvironment (Store.platform (.numbered [])) (fun _ => none) "dev" workflows
      .empty).1.toOption.bind (·.states.get? ⟨"shop", "workflow", "nightly"⟩) =
      some (.deployed "object-0") := by decide +kernel
  have hproject : Coordinate.separator ∉ "shop".toList := by decide +kernel
  have hids : ∀ id ∈ ["nightly", "weekly"], Coordinate.separator ∉ id.toList := by decide +kernel
  have hconverges := deployEnvironment_converges (Store.serves (.numbered []))
    (forall_workflows fun _ _ => ⟨⟨.automation "workflow", none, rfl, rfl⟩, rfl⟩)
    (forall_workflows fun id hid => ⟨hproject, hids id hid⟩) haveOwnDigests (fun _ => none) "dev" .empty hkept
  dsimp only [id] at hconverges
  refine ⟨hkept, haveOwnDigests, ?_⟩
  revert hstate hconverges
  generalize deployEnvironment _ _ _ _ _ = run
  intro hstate hconverges
  obtain ⟨report, hreport, hdeployed⟩ := Option.bind_eq_some_iff.1 hstate
  cases hrun : run.1 with
  | error _ =>
    rw [hrun] at hreport
    cases hreport
  | ok other =>
    rw [hrun] at hreport
    cases hreport
    obtain ⟨_, _, _, values, _, _, _, hshows⟩ := hconverges report hrun (workflow "nightly")
      (by simp [workflows]) nofun "object-0" hdeployed
    exact ⟨values, hshows⟩

end Workflows

end Rollout
