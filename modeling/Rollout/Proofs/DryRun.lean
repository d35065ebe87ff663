import Rollout.Cli.Command
import Rollout.Proofs.Deploy.Addressing
import Rollout.Proofs.Manifest.Coordinates
import Rollout.Proofs.Platform.Deletion

/-! Deployments from the command line. Their platform starts out empty, fails nothing and has only
objects of its own making, so that every key stays unique and whatever is found can be updated. What
can fail is to put a payload together. -/

namespace Rollout

variable {policy : StorePolicy} {vars : Variables} {config : Config} {payload : Payload}
  {configs : List Config} {bound : Nat} {s t u : Store}

/-! ### Failures -/

/-- The error tells of the config or of those it depends on, and not of the platform or the end of
the run. -/
def DeployError.isOfManifest : DeployError → Bool
  | .ambiguous _ _ | .remote _ | .cancelled => false
  | _ => true

theorem DeployError.isOfManifest_of_isOfPreparation {e : DeployError} (h : e.isOfPreparation) :
    e.isOfManifest = true := by
  cases e with
  | ambiguous _ _ | remote _ | cancelled => cases h
  | _ => rfl

theorem isOfManifest_of_settledState? {g : DependencyGraph}
    {states : SortedMap Coordinate ConfigState} {e : DeployError}
    (h : settledState? g false states config = some (.failed e)) : e.isOfManifest = true := by
  unfold settledState? blockedState? at h
  split at h
  · cases h
  · rw [if_neg Bool.false_ne_true] at h
    split at h
    · cases h
    · obtain ⟨_, _, heq⟩ := Option.map_eq_some_iff.1 h
      cases heq
      rfl

/-- Whatever failed in the environment, failed for the manifest. -/
def FailsForManifest (result : EnvironmentResult) : Prop :=
  ∀ report, result = .ok report → ∀ c e, report.states.get? c = some (.failed e) →
    e.isOfManifest = true

/-! ### Stores that only their platform has filled -/

namespace Store

/-- Ids and keys are unique, and the ids are those that the platform has given out. -/
structure IsHomegrown (policy : StorePolicy) (s : Store) : Prop where
  nodup : ∀ name, (s.ids name).Nodup
  keys : ∀ name, (s.keys name).Nodup
  given : ∀ {name id}, id ∈ s.ids name → ∃ n < s.creates, id = policy.newId n

theorem isHomegrown_empty (policy : StorePolicy) : empty.IsHomegrown policy where
  nodup _ := List.nodup_nil
  keys _ := List.nodup_nil
  given h := absurd h List.not_mem_nil

theorem IsHomegrown.of_index_eq (h : s.IsHomegrown policy)
    (hindex : ∀ name, t.index name = s.index name) (hcreates : t.creates = s.creates) :
    t.IsHomegrown policy := by
  have hids : ∀ name, t.ids name = s.ids name := fun name => congrArg _ (hindex name)
  have hkeys : ∀ name, t.keys name = s.keys name := fun name => congrArg _ (hindex name)
  refine ⟨fun name => hids name ▸ h.nodup name, fun name => hkeys name ▸ h.keys name, ?_⟩
  intro name id hid
  rw [hcreates]
  exact h.given (hids name ▸ hid)

theorem IsHomegrown.create (h : s.IsHomegrown policy) (haccepted : rejection? policy payload = none)
    {type : ConfigType} (hnew : ∀ n < s.creates, policy.newId n ≠ policy.newId s.creates)
    (hkey : payload.key (.ofTypeName type.name) ∉ s.keys type.name) :
    (create policy type payload s).2.IsHomegrown policy := by
  have hcreates : (Store.create policy type payload s).2.creates = s.creates + 1 := by
    rw [Store.create, haccepted]
  have hids : ∀ name, (Store.create policy type payload s).2.ids name = _ := ids_create haccepted
  refine ⟨fun name => ?_, fun name => ?_, fun {name id} hid => ?_⟩
  · rw [hids]
    split
    · refine List.nodup_append.2 ⟨h.nodup name, List.nodup_singleton _, ?_⟩
      rintro id hid _ hlast rfl
      obtain ⟨n, hn, heq⟩ := h.given hid
      exact hnew n hn (heq.symm.trans (List.mem_singleton.1 hlast))
    · exact h.nodup name
  · rw [Store.keys, index_create haccepted]
    split
    · rename_i hname
      subst hname
      rw [List.map_append, List.map_singleton]
      refine List.nodup_append.2 ⟨h.keys _, List.nodup_singleton _, ?_⟩
      rintro key hold _ hlast rfl
      obtain rfl : key = payload.key _ := List.mem_singleton.1 hlast
      exact hkey hold
    · exact h.keys name
  · rw [hcreates]
    rw [hids] at hid
    have hold : id ∈ s.ids name → ∃ n < s.creates + 1, id = policy.newId n := by
      intro hid
      obtain ⟨n, hn, heq⟩ := h.given hid
      exact ⟨n, Nat.lt_succ_of_lt hn, heq⟩
    split at hid
    · rcases List.mem_append.1 hid with hid | hid
      · exact hold hid
      · exact ⟨_, Nat.lt_succ_self _, List.mem_singleton.1 hid⟩
    · exact hold hid

end Store

/-- The first ids to be given out differ. -/
def StorePolicy.DistinctBelow (policy : StorePolicy) (bound : Nat) : Prop :=
  ∀ i j, i < j → j < bound → policy.newId i ≠ policy.newId j

/-- The origin object id of the config is none of the first to be given out. -/
def StorePolicy.AvoidsBelow (policy : StorePolicy) (bound : Nat) (config : Config) : Prop :=
  ∀ n < bound, config.originObjectId ≠ some (policy.newId n)

/-- The store stays homegrown, as long as no more objects are created than there are good ids. -/
structure StaysHomegrown (policy : StorePolicy) (bound : Nat) (s t : Store) : Prop where
  creates_le : s.creates ≤ t.creates
  grown : t.creates ≤ bound → s.IsHomegrown policy → t.IsHomegrown policy

theorem idles_staysHomegrown (policy : StorePolicy) (bound : Nat) :
    (Store.platform policy).Idles (StaysHomegrown policy bound) where
  refl _ := ⟨Nat.le_refl _, fun _ => id⟩
  trans h h' := ⟨h.creates_le.trans h'.creates_le, fun hbound =>
    h'.grown hbound ∘ h.grown (h'.creates_le.trans hbound)⟩
  elapse _ := ⟨Nat.le_refl _, fun _ => id⟩

theorem keeps_creates_le (policy : StorePolicy) :
    (Store.platform policy).Keeps fun s t => s.creates ≤ t.creates where
  refl _ := Nat.le_refl _
  trans := Nat.le_trans
  elapse _ := Nat.le_refl _
  handle r s := by
    cases r with
    | list type => exact Nat.le_refl _
    | create type payload =>
      show s.creates ≤ (Store.create policy type payload s).2.creates
      unfold Store.create
      split
      · exact Nat.le_refl _
      · exact Nat.le_succ _
    | update type id payload => exact (Store.creates_update policy type id payload s).ge
    | delete type id => exact ((Store.delete_deletion type id s).loses.creates).ge

theorem tracks_staysHomegrown (hdistinct : policy.DistinctBelow bound) :
    (Store.platform policy).Tracks id (StaysHomegrown policy bound) where
  toIdles := idles_staysHomegrown policy bound
  handle r s hfits := by
    refine ⟨(keeps_creates_le policy).handle r s, fun hbound hgrown => ?_⟩
    cases r with
    | list type => exact hgrown
    | create type payload =>
      change (Store.create policy type payload s).2.creates ≤ bound at hbound
      show (Store.create policy type payload s).2.IsHomegrown policy
      cases haccepted : Store.rejection? policy payload with
      | some e =>
        rw [Store.create, haccepted]
        exact hgrown
      | none =>
        rw [Store.create, haccepted] at hbound
        exact hgrown.create haccepted (fun n hn => hdistinct n _ hn hbound) hfits
    | update type id payload =>
      exact hgrown.of_index_eq (Store.index_update (hgrown.nodup _) hfits)
        (Store.creates_update policy type id payload s)
    | delete type id => cases hfits

/-! ### One attempt -/

namespace Store

/-- Nobody finds an object by an id from elsewhere. -/
theorem IsHomegrown.lacksOrigin (h : s.IsHomegrown policy) (hbound : s.creates ≤ bound)
    (havoids : policy.AvoidsBelow bound config) : s.LacksOrigin config := by
  intro id horigin hmem
  obtain ⟨n, hn, rfl⟩ := h.given hmem
  exact havoids n (Nat.lt_of_lt_of_le hn hbound) horigin

theorem rejection?_eq_none (hnames : policy.rejectedNames = []) (payload : Payload) :
    rejection? policy payload = none := by
  unfold rejection?
  rw [hnames]
  cases payload.name <;> rfl

section

variable (haccepted : rejection? policy payload = none)

include haccepted

/-- Without its origin object, a config is looked for as if it had none. -/
theorem deliver_of_lacksOrigin (hlacks : s.LacksOrigin config) :
    deliver (platform policy) config payload s =
      discover (platform policy) config.configType payload s := by
  rw [deliver_run]
  cases horigin : config.originObjectId with
  | none => rfl
  | some id =>
    have hupdate : (platform policy).handle (.update config.configType id payload) s = _ :=
      update_eq_unknown haccepted (hlacks id horigin)
    dsimp only
    rw [hupdate]
    rfl

/-- Where keys are unique, the object is updated or created. -/
theorem exists_id_of_discover {type : ConfigType} (hregular : type.IsRegular)
    (hkey : (payload.key type.identity).isSome) (hkeys : (s.keys type.name).Nodup) :
    ∃ id, (discover (platform policy) type payload s).1 = .ok id := by
  have hrun := discover_discovery (serves policy) hregular hkey s
  generalize discover (platform policy) type payload s = run at *
  cases hrun with
  | unlisted listed => cases listed
  | created _ _ =>
    have hcreate : ((platform policy).handle (.create type payload) s).1 =
        .ok (policy.newId s.creates) := by
      show (create policy type payload s).1 = _
      rw [create, haccepted]
    exact ⟨_, congrArg (Except.mapError DeployError.remote) hcreate⟩
  | @updated _ id _ holders =>
    have hentry := mem_holders_iff.1 (holders ▸ List.mem_singleton_self id)
    have hupdate : ((platform policy).handle (.update type id payload) s).1 = .ok () :=
      update_eq_ok haccepted (mem_ids_iff.2 ⟨_, hentry⟩)
    refine ⟨id, ?_⟩
    show (((platform policy).handle (.update type id payload) s).1.map _).mapError _ = _
    rw [hupdate]
    rfl
  | ambiguous _ holders => exact absurd holders (Nat.not_lt.2 (length_holders_le hkeys _))

end

end Store

/-- An attempt that fails has failed for the manifest. -/
theorem Attempt.Ran.homegrown {a : Attempt Store} (h : a.Ran (Store.platform policy) vars)
    (hnames : policy.rejectedNames = []) (hdistinct : policy.DistinctBelow bound)
    (htyped : a.config.IsTyped) (havoids : policy.AvoidsBelow bound a.config) :
    StaysHomegrown policy bound a.before a.after ∧
      (a.after.creates ≤ bound → a.before.IsHomegrown policy →
        ∀ e, a.result = .error e → e.isOfManifest = true) := by
  have hle : a.before.creates ≤ a.after.creates := h.keeps (keeps_creates_le policy)
  cases h with
  | cancelled flag => cases flag
  | unprepared _ prepare result after =>
    rw [after]
    refine ⟨(idles_staysHomegrown policy bound).refl _, fun _ _ e he => ?_⟩
    cases result.symm.trans he
    exact DeployError.isOfManifest_of_isOfPreparation (prepare_error prepare)
  | @delivered _ payload _ prepare result after =>
    have haccepted := Store.rejection?_eq_none hnames payload
    have hkey := key_of_prepare_ok prepare
    have hpoll : ((Store.platform policy).poll a.before).2 = a.before := rfl
    have hdeliver : a.after.creates ≤ bound → a.before.IsHomegrown policy →
        deliver (Store.platform policy) a.config payload a.before =
          discover (Store.platform policy) a.config.configType payload a.before :=
      fun hbound hgrown => Store.deliver_of_lacksOrigin haccepted
        (hgrown.lacksOrigin (hle.trans hbound) havoids)
    rw [hpoll] at result after
    refine ⟨⟨hle, fun hbound hgrown => ?_⟩, fun hbound hgrown e he => ?_⟩
    · have hmoves := (tracks_staysHomegrown hdistinct).discover (Store.serves policy)
        htyped.isRegular hkey a.before
      rw [hdeliver hbound hgrown] at after
      rw [after] at hbound ⊢
      exact hmoves.grown hbound hgrown
    · obtain ⟨id, hid⟩ := Store.exists_id_of_discover haccepted htyped.isRegular hkey
        (hgrown.keys a.config.configType.name)
      rw [hdeliver hbound hgrown, hid] at result
      cases result.symm.trans he

/-! ### Runs -/

section

variable (hnames : policy.rejectedNames = []) (hdistinct : policy.DistinctBelow bound)

include hnames hdistinct

theorem deployEnvironment_homegrown
    (hconfigs : ∀ config ∈ configs, config.IsTyped ∧ policy.AvoidsBelow bound config)
    (environment : String)
    (hbound :
      (deployEnvironment (Store.platform policy) vars environment configs s).2.creates ≤ bound)
    (hgrown : s.IsHomegrown policy) :
    let run := deployEnvironment (Store.platform policy) vars environment configs s
    run.2.IsHomegrown policy ∧ FailsForManifest run.1 := by
  have hran : ∀ a ∈ history (Store.platform policy) vars configs s, _ := fun a ha =>
    have ⟨hconfig, hran⟩ := mem_history ha
    have ⟨htyped, havoids⟩ := hconfigs _ hconfig
    hran.homegrown hnames hdistinct htyped havoids
  obtain ⟨hlast, hall⟩ :=
    (timeline_history (Store.platform policy) vars environment configs s).moves
      (idles_staysHomegrown policy bound) fun a ha => (hran a ha).1
  refine ⟨hlast.grown hbound hgrown, fun report hreport c e hstate => ?_⟩
  obtain ⟨g, context, H, h⟩ := completed_of_report hreport
  rcases h.settled_or_attempted_of_failed H hstate with
    ⟨_, _, flag, seen, decision⟩ | ⟨a, ha, hresult⟩
  · cases flag with
    | true => cases seen rfl
    | false => exact isOfManifest_of_settledState? decision
  · obtain ⟨hbefore, hafter⟩ := hall a ha
    have hbound' := hafter.creates_le.trans hbound
    have hgrown' := hbefore.grown ((hran a ha).1.creates_le.trans hbound') hgrown
    exact (hran a ha).2 hbound' hgrown' e hresult

/-- One environment after another leaves the store as it should be for the next one. -/
theorem deployNamed_homegrown {projects : List Project} {names : List String}
    (hprojects : ∀ environment ∈ names, ∀ config ∈ configsFor projects environment,
      config.IsTyped ∧ policy.AvoidsBelow bound config)
    {results : SortedMap String EnvironmentResult}
    (hbound : (deployNamed (Store.platform policy) vars projects names results s).2.creates ≤ bound)
    (hgrown : s.IsHomegrown policy)
    (hresults : ∀ environment result, results.get? environment = some result →
      FailsForManifest result) :
    ∀ environment result,
      (deployNamed (Store.platform policy) vars projects names results s).1.get? environment =
        some result → FailsForManifest result := by
  induction names generalizing results s with
  | nil => exact hresults
  | cons name rest ih =>
    -- The first environment gets no more ids than all of them together.
    have hle := (keeps_creates_le policy).deployNamed vars projects rest
      (results.insert name (deployEnvironment (Store.platform policy) vars name
        (configsFor projects name) s).1)
      (deployEnvironment (Store.platform policy) vars name (configsFor projects name) s).2
    obtain ⟨hfirst, hrest⟩ := List.forall_mem_cons.1 hprojects
    obtain ⟨hgrown', hfailed⟩ := deployEnvironment_homegrown hnames hdistinct hfirst name
      (hle.trans hbound) hgrown
    apply ih hrest hbound hgrown'
    intro environment result hresult
    rw [SortedMap.get?_insert] at hresult
    split at hresult
    · cases hresult
      exact hfailed
    · exact hresults environment result hresult

end

/-- There is a result for every environment that is named. -/
theorem exists_get?_deployNamed_iff {σ : Type} {P : Platform σ} {projects : List Project}
    {names : List String} {results : SortedMap String EnvironmentResult} {t : σ}
    {environment : String} :
    (∃ result, (deployNamed P vars projects names results t).1.get? environment = some result) ↔
      environment ∈ names ∨ ∃ result, results.get? environment = some result := by
  induction names generalizing results t with
  | nil => exact (or_iff_right List.not_mem_nil).symm
  | cons name rest ih =>
    refine ih.trans ?_
    rw [SortedMap.get?_insert, List.mem_cons]
    by_cases heq : environment = name
    · simp [heq]
    · have hne : compare environment name ≠ .eq := fun h => heq (Std.LawfulEqCmp.eq_of_compare h)
      simp [heq, hne]

/-! ### The command line -/

namespace Cli

theorem selectEnvironments_ne_nil {declared requested environments : List String}
    (hdeclared : declared ≠ []) (h : selectEnvironments declared requested = .ok environments) :
    environments ≠ [] := by
  unfold selectEnvironments at h
  split at h
  · cases h
    exact hdeclared
  · split at h
    · cases h
    · cases h
      rename_i hrequested _ _
      exact fun hnil => hrequested (hnil ▸ rfl)

/-- Whichever environments are selected, and however often: nothing fails because of the platform,
if the ids that it gives out differ from each other and from the origin object ids. -/
theorem deployment_failsForManifest {ambient : Ambient} {text : String} {m : Manifest}
    {requested environments : List String} (h : Manifest.ofText text = .ok m)
    (hselected : selectEnvironments m.environments requested = .ok environments)
    (hdistinct : ambient.policy.DistinctBelow (deployment ambient m environments).2.creates)
    (horigin : ∀ environment ∈ environments, ∀ config ∈ m.configsFor environment,
      ambient.policy.AvoidsBelow (deployment ambient m environments).2.creates config) :
    let results := (deployment ambient m environments).1
    (∀ environment, (∃ result, results.get? environment = some result) ↔
      environment ∈ environments) ∧
      ∀ environment result, results.get? environment = some result → FailsForManifest result := by
  obtain ⟨_, _, hdocument⟩ := Manifest.ofText_eq_ok_iff.1 h
  obtain ⟨_, hproblems, hm⟩ := Manifest.ofDocument_eq_ok_iff.1 hdocument
  have hdeclared : m.environments ≠ [] := hm ▸ (Manifest.Outline.problems_eq_nil_iff.1 hproblems).1
  have hrun : deployment ambient m environments = deployNamed (Store.platform ambient.policy)
      ambient.vars m.projects environments ∅ Store.empty := by
    rw [deployment, deployProjects, if_neg]
    simpa using selectEnvironments_ne_nil hdeclared hselected
  have hconfigs : ∀ environment ∈ environments, ∀ config ∈ m.configsFor environment,
      config.IsTyped ∧
        ambient.policy.AvoidsBelow (deployment ambient m environments).2.creates config := by
    intro environment henvironment config hconfig
    obtain ⟨_, _, hdeclares⟩ := Manifest.exists_isDeclared hdocument hconfig
    exact ⟨hdeclares.isTyped, horigin environment henvironment config hconfig⟩
  constructor
  · intro environment
    rw [hrun, exists_get?_deployNamed_iff]
    simp
  · intro environment result hresult
    rw [hrun] at hdistinct hconfigs hresult
    exact deployNamed_homegrown rfl hdistinct hconfigs (Nat.le_refl _)
      (Store.isHomegrown_empty _) (fun _ _ hnone => by simp at hnone) environment result hresult

/-! ### An environment twice, with an object from elsewhere and a config without a name -/

namespace Rehearsal

def text : String :=
  "environment dev
environment prod
project p \x7b
  config slo a \x7b template x; param name zone; origin-object-id elsewhere \x7d
  config slo b \x7b template x \x7d
  config bucket c \x7b template x \x7d
\x7d"

def ambient : Ambient where
  vars _ := none
  stamp n := ⟨⟨n⟩, "", ""⟩
  objectId n := ⟨n⟩

def requested : List String := ["prod", "dev", "prod"]

def nameless : Coordinate := ⟨"p", "slo", "b"⟩

theorem rehearsed : ∃ m, Manifest.ofText text = .ok m ∧
    selectEnvironments m.environments requested = .ok requested ∧
    (deployment ambient m requested).2.creates = 2 ∧
    ∃ report, (deployment ambient m requested).1.get? "dev" = some (.ok report) ∧
      report.states.get? nameless = some (.failed .missingName) ∧ FailsForManifest (.ok report) := by
  have haccepted : (Manifest.ofText text).toOption.map (fun m =>
      ((deployment ambient m requested).2.creates, m.environments,
        (requested.flatMap m.configsFor).map (·.originObjectId),
        ((deployment ambient m requested).1.get? "dev").bind fun result =>
          result.toOption.bind (·.states.get? nameless))) =
      some (2, ["dev", "prod"], [none, some "elsewhere", none, none, some "elsewhere", none,
        none, some "elsewhere", none], some (.failed .missingName)) := by
    decide +kernel
  cases hm : Manifest.ofText text with
  | error e =>
    rw [hm] at haccepted
    cases haccepted
  | ok m =>
    rw [hm] at haccepted
    obtain ⟨hcreates, hrest⟩ := Prod.mk.inj (Option.some.inj haccepted)
    obtain ⟨henvironments, hrest⟩ := Prod.mk.inj hrest
    obtain ⟨horigins, hstate⟩ := Prod.mk.inj hrest
    have hselected : selectEnvironments m.environments requested = .ok requested := by
      rw [henvironments]
      rfl
    have hdistinct : ambient.policy.DistinctBelow 2 := by
      intro i j hij hj
      obtain ⟨rfl, rfl⟩ : i = 0 ∧ j = 1 := by omega
      decide +kernel
    have hforeign : ∀ n < 2, ambient.policy.newId n ≠ "elsewhere" := by decide +kernel
    have hfails := deployment_failsForManifest hm hselected (hcreates ▸ hdistinct) <| by
      intro environment henvironment config hconfig n hn horigin
      rw [hcreates] at hn
      have hmem := List.mem_map_of_mem (f := (·.originObjectId))
        (List.mem_flatMap.2 ⟨environment, henvironment, hconfig⟩)
      rw [horigins, horigin] at hmem
      exact hforeign n hn (by simpa using hmem)
    obtain ⟨result, hresult, hstate⟩ := Option.bind_eq_some_iff.1 hstate
    cases result with
    | error _ => cases hstate
    | ok report => exact ⟨m, rfl, hselected, hcreates, report, hresult, hstate, hfails.2 _ _ hresult⟩

end Rehearsal

end Cli

end Rollout
