import Rollout.Proofs.Deploy.Addressing
import Rollout.Proofs.Deploy.Lockstep

/-! Deploying once more where origin object ids are in use. A config that is led to its object by the
origin id may rename it, and so make others lose theirs or find two. The second run repeats the first
one just when this does not happen: as long as it does so, the objects it has written to are as they
were then, and the others as the first run left them. -/

namespace Rollout

variable {σ τ : Type} {P : Platform σ} {P' : Platform τ} {policy : StorePolicy} {view : σ → Store}
  {view' : τ → Store} {vars : Variables} {config : Config} {payload : Payload} {id : String}
  {configs : List Config}

/-! ### Finding an object again -/

/-- In what a run left, a config finds its object again: by its origin object id, or because its
object alone has the key of the payload. What was written to since does not count. -/
def Store.FindsAgain (t : Store) (written : List (String × String)) (config : Config)
    (payload : Payload) (id : String) : Prop :=
  config.originObjectId = some id ∨ ∀ i, (config.configType.name, i) ∉ written →
    ((i, payload.key config.configType.identity) ∈ t.index config.configType.name ↔ i = id)

/-- The ids that will be given out are no origin object ids. -/
def HaveOldOrigins (policy : StorePolicy) (s : Store) (configs : List Config) : Prop :=
  ∀ config ∈ configs, ∀ n, s.creates ≤ n → config.originObjectId ≠ some (policy.newId n)

section

variable {written : List (String × String)} {s t u v : Store}

theorem Store.Gains.lacksOrigin (hgains : Gains policy u t) (hlacks : u.LacksOrigin config)
    (horigin : ∀ n, u.creates ≤ n → config.originObjectId ≠ some (policy.newId n)) :
    t.LacksOrigin config := by
  intro origin heq hmem
  rcases hgains.new hmem with hmem | ⟨n, hle, rfl⟩
  · exact hlacks origin heq hmem
  · exact horigin n hle heq

/-- Of the objects that were written to, the one that came out has the key, if any. -/
theorem Store.Retraces.mem_index_of_written (h : Retraces written t u v)
    (hkept : u.WellKept policy)
    (hfirst : u.Leads config payload id ∨ u.Grants policy config payload id)
    (horigin : config.originObjectId ≠ some id) {i : String}
    (hwritten : (config.configType.name, i) ∈ written) :
    (i, payload.key config.configType.identity) ∈ u.index config.configType.name ↔ i = id := by
  rcases hfirst with hleads | hgrants
  · cases hleads with
    | byOrigin heq _ => exact absurd heq horigin
    | byKey _ hholders => exact (holders_eq_singleton_iff (hkept.nodup _)).1 hholders i
  · have hnone : (i, payload.key config.configType.identity) ∉ u.index config.configType.name := by
      rw [← mem_holders_iff, hgrants.holders]
      exact List.not_mem_nil
    refine iff_of_false hnone fun heq => ?_
    subst heq
    exact hkept.unused _ (Nat.le_refl _) _ (hgrants.new ▸ h.known hwritten)

/-- Where a config came to an object in the first run, it is led to it in the second one just if it
finds it again. -/
theorem Store.Retraces.leads_iff (h : Retraces written t u v) (hkept : u.WellKept policy)
    (hkept' : v.WellKept policy) (hgains : Gains policy u t)
    (horigin : ∀ n, u.creates ≤ n → config.originObjectId ≠ some (policy.newId n))
    (hfirst : u.Leads config payload id ∨ u.Grants policy config payload id)
    (hmem : id ∈ t.ids config.configType.name) :
    v.Leads config payload id ↔ t.FindsAgain written config payload id := by
  have hids : ∀ {i}, i ∈ v.ids config.configType.name ↔ i ∈ t.ids config.configType.name :=
    h.mem_ids_iff (hgains.subset _)
  by_cases hown : config.originObjectId = some id
  · exact iff_of_true (.byOrigin hown (hids.2 hmem)) (.inl hown)
  · have hlacks : u.LacksOrigin config := by
      rcases hfirst with hleads | hgrants
      · cases hleads with
        | byOrigin heq _ => exact absurd heq hown
        | byKey hlacks _ => exact hlacks
      · exact hgrants.lacks
    have hlacks' : v.LacksOrigin config := by
      intro origin heq hmem
      exact hgains.lacksOrigin hlacks horigin origin heq (hids.1 hmem)
    have hwritten := fun i => h.mem_index_of_written hkept hfirst hown (i := i)
    have hholders : v.holders config.configType.name (payload.key config.configType.identity) =
        [id] ↔ ∀ i, _ ↔ i = id := holders_eq_singleton_iff (hkept'.nodup _)
    simp only [h.mem_index_iff] at hholders
    constructor
    · intro hleads
      refine .inr fun i hi => ?_
      cases hleads with
      | byOrigin heq _ => exact absurd heq hown
      | byKey _ hheld =>
        have hiff := hholders.1 hheld i
        rwa [if_neg hi] at hiff
    · intro hfinds
      rcases hfinds with heq | hothers
      · exact absurd heq hown
      · refine .byKey hlacks' (hholders.2 fun i => ?_)
        split
        · rename_i hi
          exact hwritten i hi
        · rename_i hi
          exact hothers i hi

end

/-! ### What has been written so far -/

/-- The objects that attempts wrote to, under the names of their types. -/
def writtenBy (attempts : List (Attempt σ)) : List (String × String) :=
  attempts.filterMap fun a => a.result.toOption.map fun entity =>
    (a.config.configType.name, entity.remoteId)

theorem writtenBy_cons (a : Attempt σ) (attempts : List (Attempt σ)) :
    writtenBy (a :: attempts) = writtenBy [a] ++ writtenBy attempts :=
  List.filterMap_append (l := [a])

section

variable {written : List (String × String)} {t : Store}
  (hserves : P.Serves policy view) (hserves' : P'.Serves policy view')

include hserves hserves'

/-- Attempts that agree make the same write. -/
theorem Attempt.Agrees.retraces {a : Attempt σ} {b : Attempt τ} (hagrees : a.Agrees b)
    (ha : a.Ran P vars) (hb : b.Ran P' vars) (htyped : a.config.IsTyped)
    (hkept : (view a.before).WellKept policy) (hkept' : (view' b.before).WellKept policy)
    (h : Store.Retraces written t (view a.before) (view' b.before)) :
    Store.Retraces (written ++ writtenBy [a]) t (view a.after) (view' b.after) := by
  have htakes := ha.takes hserves hkept
  have htakes' := hb.takes hserves' hkept'
  rw [hagrees.config, hagrees.context, hagrees.result] at htakes'
  cases hresult : a.result with
  | ok entity =>
    rw [hresult] at htakes htakes'
    obtain ⟨payload, hprepare, hwrites⟩ := htakes
    obtain ⟨_, hprepare', hwrites'⟩ := htakes'
    cases hprepare.symm.trans hprepare'
    have hwritten : writtenBy [a] = [(a.config.configType.name, entity.remoteId)] := by
      simp [writtenBy, hresult, Except.toOption]
    rw [hwritten]
    exact h.write hwrites hwrites' (htyped.isRegular ▸ key_of_prepare_ok hprepare)
  | error e =>
    rw [hresult] at htakes htakes'
    have hwritten : writtenBy [a] = [] := by simp [writtenBy, hresult, Except.toOption]
    rw [hwritten, List.append_nil]
    exact htakes.symm ▸ htakes'.symm ▸ h

theorem retraces_of_agrees {before : List (Attempt σ)} {before' : List (Attempt τ)}
    (hagree : List.Forall₂ Attempt.Agrees before before') {s u : σ} {s' v : τ}
    (htimeline : Timeline P s before u) (htimeline' : Timeline P' s' before' v)
    (hran : ∀ a ∈ before, a.config.IsTyped ∧ a.Ran P vars) (hran' : ∀ b ∈ before', b.Ran P' vars)
    (hkept : (view s).WellKept policy) (hkept' : (view' s').WellKept policy)
    (h : Store.Retraces written t (view s) (view' s')) :
    Store.Retraces (written ++ writtenBy before) t (view u) (view' v) := by
  induction hagree generalizing s s' written with
  | nil =>
    cases htimeline with
    | nil idle =>
      cases htimeline' with
      | nil idle' =>
        rw [hserves.view_of_idle idle, hserves'.view_of_idle idle']
        exact (List.append_nil written).symm ▸ h
  | @cons a b before before' hfirst _ ih =>
    obtain ⟨⟨htyped, ha⟩, hran⟩ := List.forall_mem_cons.1 hran
    obtain ⟨hb, hran'⟩ := List.forall_mem_cons.1 hran'
    cases htimeline with
    | cons idle rest =>
      cases htimeline' with
      | cons idle' rest' =>
        rw [← hserves.view_of_idle idle] at hkept h
        rw [← hserves'.view_of_idle idle'] at hkept' h
        rw [writtenBy_cons, ← List.append_assoc]
        exact ih rest rest' hran hran' (hserves.accrues_attempt ha hkept).1
          (hserves'.accrues_attempt hb hkept').1
          (hfirst.retraces hserves hserves' ha hb htyped hkept hkept' h)

end

/-! ### The second run beside the first -/

/-- A config that was deployed finds its object again in a store, after what was written before. -/
def Attempt.FoundAgain (vars : Variables) (t : Store) (before : List (Attempt σ))
    (a : Attempt σ) : Prop :=
  ∀ payload entity, a.config.prepare vars a.context = .ok (payload, entity.properties) →
    a.result = .ok entity → t.FindsAgain (writtenBy before) a.config payload entity.remoteId

theorem Attempt.foundAgain_iff {a : Attempt σ} {before : List (Attempt σ)} {t : Store}
    {entity : ResolvedEntity}
    (hprepare : a.config.prepare vars a.context = .ok (payload, entity.properties))
    (hresult : a.result = .ok entity) : a.FoundAgain vars t before ↔
      t.FindsAgain (writtenBy before) a.config payload entity.remoteId := by
  constructor
  · intro h
    exact h payload entity hprepare hresult
  · intro h payload' entity' hprepare' hresult'
    cases hresult.symm.trans hresult'
    cases hprepare.symm.trans hprepare'
    exact h

section

variable {s t : Store} {environment : String} (htyped : ∀ config ∈ configs, config.IsTyped)
  (horigins : HaveOldOrigins policy s configs) (hkept : s.WellKept policy)
  (ht : (deployEnvironment (Store.logged policy) vars environment configs (.start s)).2.inner = t)
  {before after before' after' : List (Attempt (Supervised Store))}
  {a b : Attempt (Supervised Store)}
  (hfirst : history (Store.logged policy) vars configs (.start s) = before ++ a :: after)
  (hsecond : history (Store.logged policy) vars configs (.start t) = before' ++ b :: after')
  (hagree : List.Forall₂ Attempt.Agrees before before') {entity : ResolvedEntity}
  (hresult : a.result = .ok entity)

include htyped horigins hkept ht hfirst hsecond hagree hresult

/-- What the second run meets at the point to which both runs went alike. -/
theorem leads_again_iff :
    ∃ payload, a.config.prepare vars a.context = .ok (payload, entity.properties) ∧
      Store.rejection? policy payload = none ∧ b.before.inner.WellKept policy ∧
      entity.remoteId ∈ b.before.inner.ids a.config.configType.name ∧
      (b.before.inner.Leads a.config payload entity.remoteId ↔ a.FoundAgain vars t before) := by
  have hserves := Store.logged_serves policy
  have ha : a ∈ history (Store.logged policy) vars configs (.start s) := by simp [hfirst]
  have hb : b ∈ history (Store.logged policy) vars configs (.start t) := by simp [hsecond]
  obtain ⟨hconfig, hran⟩ := mem_history ha
  obtain ⟨hkeptA, hgains, hgains', hids⟩ := hserves.gains_around environment hkept ha
  have hkeptT : t.WellKept policy :=
    ht ▸ hserves.keeps_wellKept.deployEnvironment vars environment configs (.start s) hkept
  rw [ht] at hgains' hids
  obtain ⟨hkeptB, _⟩ := hserves.gains_around environment (s := .start t) hkeptT hb
  have hran₁ : ∀ a' ∈ before, a'.config.IsTyped ∧ a'.Ran (Store.logged policy) vars := by
    intro a' ha'
    obtain ⟨hconfig', hran'⟩ := mem_history (hfirst ▸ List.mem_append_left _ ha')
    exact ⟨htyped _ hconfig', hran'⟩
  have hran₂ : ∀ b' ∈ before', b'.Ran (Store.logged policy) vars := by
    intro b' hb'
    exact (mem_history (hsecond ▸ List.mem_append_left _ hb')).2
  have htimeline := timeline_history (Store.logged policy) vars environment configs (.start s)
  have htimeline' := timeline_history (Store.logged policy) vars environment configs (.start t)
  rw [hfirst] at htimeline
  rw [hsecond] at htimeline'
  have hretraces : Store.Retraces (writtenBy before) t a.before.inner b.before.inner :=
    retraces_of_agrees hserves hserves hagree htimeline.split.1 htimeline'.split.1 hran₁ hran₂
      hkept hkeptT (.start s t)
  obtain ⟨payload, hprepare, haccepted, hpoint⟩ :=
    hran.leads_or_grants (htyped _ hconfig) hkeptA hresult
  have hid := hids entity hresult
  refine ⟨payload, hprepare, haccepted, hkeptB,
    (hretraces.mem_ids_iff (hgains'.subset _)).2 hid, ?_⟩
  rw [Attempt.foundAgain_iff hprepare hresult]
  refine hretraces.leads_iff hkeptA hkeptB hgains' (fun n hle => ?_) hpoint hid
  exact horigins _ hconfig n (hgains.creates_le.trans hle)

variable (hparallel : a.Parallels b)

include hparallel

/-- Where the config finds its object again, the second run does as the first one did. -/
theorem agrees_of_foundAgain (hfound : a.FoundAgain vars t before) :
    a.Agrees b ∧ ∀ call ∈ b.calls, call.request.kind ≠ .create := by
  obtain ⟨payload, hprepare, haccepted, _, _, hleads⟩ :=
    leads_again_iff htyped horigins hkept ht hfirst hsecond hagree hresult
  have ha : a ∈ history (Store.logged policy) vars configs (.start s) := by simp [hfirst]
  have hb : b ∈ history (Store.logged policy) vars configs (.start t) := by simp [hsecond]
  obtain ⟨_, _, hcoordinate⟩ := (mem_history ha).2.of_ok hresult
  have hkeeps := Store.logged_keeps policy
  have hflag : b.before.cancelled = false :=
    ((timeline_history (Store.logged policy) vars environment configs (.start t)).moves
      hkeeps.toIdles fun _ hb => (mem_history hb).2.keeps hkeeps).2 b hb |>.1
  rw [← hparallel.config, ← hparallel.context] at hprepare
  have hagain := (mem_history hb).2.of_leads (htyped _ (mem_history hb).1) hflag hprepare haccepted
    (hparallel.config ▸ hleads.2 hfound)
  refine ⟨⟨hparallel, ?_⟩, hagain.2⟩
  rw [hagain.1, hresult, hparallel.config, ← hcoordinate]

/-- And only there. -/
theorem foundAgain_of_result (hresult' : b.result = a.result) : a.FoundAgain vars t before := by
  obtain ⟨payload, hprepare, _, hkeptB, hid, hleads⟩ :=
    leads_again_iff htyped horigins hkept ht hfirst hsecond hagree hresult
  have hb : b ∈ history (Store.logged policy) vars configs (.start t) := by simp [hsecond]
  obtain ⟨payload', hprepare', _, hpoint⟩ := (mem_history hb).2.leads_or_grants
    (htyped _ (mem_history hb).1) hkeptB (hresult'.trans hresult)
  rw [hparallel.config, hparallel.context] at hprepare'
  rw [hparallel.config] at hpoint
  cases hprepare'.symm.trans hprepare
  apply hleads.1
  rcases hpoint with hled | hgranted
  · exact hled
  · exact absurd (hgranted.new ▸ hid) (hkeptB.unused _ (Nat.le_refl _) _)

end

/-- Two runs on stores without faults. -/
theorem forall₂_history_logged
    {S : Attempt (Supervised Store) → Attempt (Supervised Store) → Prop}
    (hS : ∀ a b, S a b → a.Agrees b) (environment : String) {s t : Store}
    (h : Advances S (history (Store.logged policy) vars configs (.start s))
      (history (Store.logged policy) vars configs (.start t))) :
    List.Forall₂ S (history (Store.logged policy) vars configs (.start s))
        (history (Store.logged policy) vars configs (.start t)) ∧
      (deployEnvironment (Store.logged policy) vars environment configs (.start s)).1 =
        (deployEnvironment (Store.logged policy) vars environment configs (.start t)).1 := by
  have hquiet : (Store.logged policy).IsQuiet :=
    Platform.IsQuiet.supervised (P := Store.platform policy) (fun _ => rfl) _
  have hkeeps := (Store.logged_keeps policy).deployEnvironment vars environment configs
  exact forall₂_history hquiet hquiet hS environment (Store.isCancelled_logged (hkeeps (.start s)))
    (Store.isCancelled_logged (hkeeps (.start t))) h

/-- A run creates nothing if its attempts are related to others in a way that rules it out. -/
theorem not_create_of_forall₂ {attempts : List (Attempt σ)}
    {S : Attempt σ → Attempt (Supervised Store) → Prop} {t : Store}
    (h : List.Forall₂ S attempts (history (Store.logged policy) vars configs (.start t)))
    (hS : ∀ a b, S a b → ∀ call ∈ b.calls, call.request.kind ≠ .create) (environment : String) :
    let run := deployEnvironment (Store.logged policy) vars environment configs (.start t)
    ∀ call ∈ run.2.calls, call.request.kind ≠ .create := by
  intro run call hcall
  have hcalls : run.2.calls =
      (history (Store.logged policy) vars configs (.start t)).flatMap Attempt.calls :=
    deployEnvironment_calls (Store.platform policy) vars (fun _ _ => .nothing) ..
  rw [hcalls] at hcall
  obtain ⟨b, hb, hcall⟩ := List.mem_flatMap.1 hcall
  obtain ⟨before, after, hsplit⟩ := List.append_of_mem hb
  obtain ⟨_, a, _, _, _, hab⟩ := exists_of_forall₂_append (hsplit ▸ h.flip)
  exact hS a b hab call hcall

/-- After a run without faults in which all went well, the next one creates nothing and reports the
same just if every config finds its object again. -/
theorem deployEnvironment_again_iff (policy : StorePolicy) (vars : Variables)
    (environment : String) (configs : List Config) (htyped : ∀ config ∈ configs, config.IsTyped)
    (s : Store) (hkept : s.WellKept policy) (horigins : HaveOldOrigins policy s configs) :
    let P := Store.logged policy
    let first := deployEnvironment P vars environment configs (.start s)
    let second := deployEnvironment P vars environment configs (.start first.2.inner)
    ∀ report, first.1 = .ok report → report.isSuccess = true →
      ((second.1 = first.1 ∧ ∀ call ∈ second.2.calls, call.request.kind ≠ .create) ↔
        ∀ before a after, history P vars configs (.start s) = before ++ a :: after →
          a.FoundAgain vars first.2.inner before) := by
  intro P first second report hreport hsuccess
  cases hbuild : DependencyGraph.build configs with
  | error errors =>
    cases (congrArg Prod.fst (deployEnvironment_of_error hbuild environment _)).symm.trans hreport
  | ok g =>
    obtain ⟨_, context, hreport₁, hcompleted⟩ :=
      deployEnvironment_completed P vars hbuild environment (.start s)
    obtain ⟨report', context', hreport', hcompleted'⟩ :=
      deployEnvironment_completed P vars hbuild environment (.start first.2.inner)
    cases hreport₁.symm.trans hreport
    have hok : ∀ a ∈ history P vars configs (.start s), ∃ entity, a.result = .ok entity :=
      fun _ ha => hcompleted.exists_ok hsuccess ha
    constructor
    · intro ⟨hsame, _⟩ before a after hfirst
      have hstates : report'.states = report.states :=
        congrArg DeployReport.states (Except.ok.inj (hreport'.symm.trans (hsame.trans hreport)))
      obtain ⟨hagree, _⟩ := forall₂_history_logged (fun _ _ h => h) environment
        (hcompleted.advances hcompleted' hstates hok)
      obtain ⟨entity, hresult⟩ := hok a (by simp [hfirst])
      obtain ⟨before', b, after', hsecond, hbefore, hagrees⟩ :=
        exists_of_forall₂_append (hfirst ▸ hagree)
      exact foundAgain_of_result htyped horigins hkept rfl hfirst hsecond hbefore hresult
        hagrees.toParallels hagrees.result
    · intro hfound
      have hadvances : Advances
          (fun a b => a.Agrees b ∧ ∀ call ∈ b.calls, call.request.kind ≠ .create)
          (history P vars configs (.start s)) (history P vars configs (.start first.2.inner)) := by
        intro before a after before' b after' hfirst hsecond hbefore hparallel
        obtain ⟨entity, hresult⟩ := hok a (by simp [hfirst])
        exact agrees_of_foundAgain htyped horigins hkept rfl hfirst hsecond
          (hbefore.imp fun _ _ h => h.1) hresult hparallel (hfound before a after hfirst)
      obtain ⟨hall, hsame⟩ := forall₂_history_logged (fun _ _ h => h.1) environment hadvances
      exact ⟨hsame.symm, not_create_of_forall₂ hall (fun _ _ h => h.2) environment⟩

/-! ### Two tags, one of which takes over an object that may be named as the other -/

namespace Takeover

def tag (id : String) (origin : Option String) : Config where
  coordinate := ⟨"shop", "auto-tag", id⟩
  configType := .classicApi "auto-tag"
  environment := "dev"
  parameters := .ofList [("name", .literal (.string id))]
  template := ⟨"tag.json", "\x7b\x7b .name \x7d\x7d"⟩
  skip := false
  originObjectId := origin

def tags : List Config := [tag "draft" none, tag "final" (some "x")]

/-- The object that is taken over, under its old name. -/
def store (name : String) : Store := Store.empty.seed (.classicApi "auto-tag") ⟨"x", some name, none⟩

def run (s : Store) : EnvironmentResult × Supervised Store :=
  deployEnvironment (Store.logged (.numbered [])) (fun _ => none) "dev" tags (.start s)

def twice (name : String) : EnvironmentResult × Supervised Store := run (run (store name)).2.inner

theorem forall_tags {q : Config → Prop} (h : ∀ id origin, (origin = none ∨ origin = some "x") →
    q (tag id origin)) : ∀ config ∈ tags, q config :=
  List.forall_mem_cons.2 ⟨h _ _ (.inl rfl), List.forall_mem_singleton.2 (h _ _ (.inr rfl))⟩

theorem isTyped : ∀ config ∈ tags, config.IsTyped :=
  forall_tags fun _ _ _ => ⟨.classicApi "auto-tag", none, rfl, rfl⟩

theorem newId_ne (n : Nat) : (StorePolicy.numbered []).newId n ≠ "x" :=
  StorePolicy.newId_numbered_ne (by decide) [] n

theorem wellKept (name : String) : (store name).WellKept (.numbered []) :=
  (Store.wellKept_empty (StorePolicy.injective_newId_numbered [])).seed List.not_mem_nil
    fun n _ => newId_ne n

theorem haveOldOrigins (name : String) : HaveOldOrigins (.numbered []) (store name) tags := by
  apply forall_tags
  intro id origin horigin n _ heq
  rcases horigin with rfl | rfl
  · cases heq
  · exact newId_ne n (Option.some.inj heq).symm

/-- The object had another name, so the second run finds the objects of both tags. -/
theorem found_again :
    (store "old").WellKept (.numbered []) ∧ HaveOldOrigins (.numbered []) (store "old") tags ∧
      (run (store "old")).1.toOption.any DeployReport.isSuccess ∧
      (twice "old").1 = (run (store "old")).1 ∧
      ∀ before a after, history (Store.logged (.numbered [])) (fun _ => none) tags
          (.start (store "old")) = before ++ a :: after →
        a.FoundAgain (fun _ => none) (run (store "old")).2.inner before := by
  have hsuccess : (run (store "old")).1.toOption.any DeployReport.isSuccess := by decide +kernel
  have hsame : (twice "old").1 = (run (store "old")).1 := by decide +kernel
  have hnone : ∀ call ∈ (twice "old").2.calls, call.request.kind ≠ .create := by decide +kernel
  refine ⟨wellKept "old", haveOldOrigins "old", hsuccess, hsame, ?_⟩
  cases hrun : (run (store "old")).1 with
  | error _ =>
    rw [hrun] at hsuccess
    cases hsuccess
  | ok report =>
    rw [hrun] at hsuccess
    exact (deployEnvironment_again_iff (.numbered []) (fun _ => none) "dev" tags isTyped
      (store "old") (wellKept "old") (haveOldOrigins "old") report hrun hsuccess).1 ⟨hsame, hnone⟩

/-- Here the object of the first tag is renamed by the second one, and the next run creates another.
-/
theorem created_after_takeover :
    (∀ config ∈ tags, config.IsTyped) ∧ (store "draft").WellKept (.numbered []) ∧
      HaveOldOrigins (.numbered []) (store "draft") tags ∧
      (run (store "draft")).1.toOption.map (fun report =>
        (report.isSuccess, report.states.get? (tag "draft" none).coordinate)) =
        some (true, some (.deployed "x")) ∧
      (twice "draft").1.toOption.map (·.states.get? (tag "draft" none).coordinate) =
        some (some (.deployed "object-0")) ∧
      ∃ call ∈ (twice "draft").2.calls, call.request.kind = .create :=
  ⟨isTyped, wellKept "draft", haveOldOrigins "draft", by decide +kernel, by decide +kernel,
    by decide +kernel⟩

end Takeover

end Rollout
