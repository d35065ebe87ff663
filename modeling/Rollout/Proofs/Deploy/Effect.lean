import Rollout.Proofs.Deploy.Timeline
import Rollout.Proofs.Platform.Serving
import Rollout.Proofs.Platform.Writing

/-! What a delivery does to the store behind a platform: a success writes the payload into the object
that comes out, a failure leaves the store as it is. This holds of every config, however its object
is found. -/

namespace Rollout

variable {σ : Type} {P : Platform σ} {policy : StorePolicy} {view : σ → Store} {vars : Variables}
  {type : ConfigType} {payload : Payload} {s : σ}

/-- The store before and after a payload was brought to it. -/
def Store.Takes (policy : StorePolicy) (type : ConfigType) (payload : Payload) (s : Store)
    (result : Except DeployError String) (t : Store) : Prop :=
  match result with
  | .ok id => Writes policy type payload id s t
  | .error _ => t = s

namespace Platform.Serves

variable (hserves : P.Serves policy view)

include hserves

theorem view_of_idle {t : σ} (h : P.Idle s t) : view t = view s :=
  Platform.Idles.of_idle (R := fun s t => view t = view s)
    ⟨fun _ => rfl, fun h h' => h'.trans h, hserves.elapse⟩ h

theorem keeps_wellKept :
    P.Keeps fun s t => (view s).WellKept policy → (view t).WellKept policy where
  refl _ h := h
  trans hs ht := fun h => ht (hs h)
  elapse s h := (hserves.elapse s).symm ▸ h
  handle r s h := by
    rcases hserves.handle r s with ⟨_, hview⟩ | ⟨_, hview⟩
    · rw [hview]
      exact h.handled r
    · exact hview.symm ▸ h

theorem takes_create (hkept : (view s).WellKept policy) :
    let created := P.handle (.create type payload) s
    Store.Takes policy type payload (view s) (created.1.mapError .remote) (view created.2) := by
  dsimp only
  cases hcreated : (P.handle (.create type payload) s).1 with
  | ok id =>
    obtain ⟨hcreate, hview⟩ := hserves.of_ok hcreated
    obtain ⟨haccepted, rfl⟩ := Store.create_eq_ok hcreate
    rw [hview]
    exact Store.writes_create haccepted (hkept.unused _ (Nat.le_refl _) _)
  | error e =>
    rcases hserves.handle (.create type payload) s with ⟨hanswer, hview⟩ | ⟨_, hview⟩
    · exact hview.trans (Store.create_eq_error (hanswer.symm.trans hcreated))
    · exact hview

variable (type payload) in
theorem takes_update (hkept : (view s).WellKept policy) (id : String) :
    let updated := P.handle (.update type id payload) s
    Store.Takes policy type payload (view s) ((updated.1.map fun _ => id).mapError .remote)
      (view updated.2) := by
  dsimp only
  cases hupdated : (P.handle (.update type id payload) s).1 with
  | ok _ =>
    obtain ⟨hupdate, hview⟩ := hserves.of_ok hupdated
    rw [hview]
    exact Store.writes_update (hkept.nodup _) hupdate
  | error e =>
    rcases hserves.handle (.update type id payload) s with ⟨hanswer, hview⟩ | ⟨_, hview⟩
    · exact hview.trans (Store.update_eq_error (hanswer.symm.trans hupdated))
    · exact hview

theorem takes_discover (hkept : (view s).WellKept policy) :
    let run := discover P type payload s
    Store.Takes policy type payload (view s) run.1 (view run.2) := by
  have hview := hserves.view_list type s
  rw [discover_run]
  dsimp only
  rw [← hview] at hkept ⊢
  cases (P.handle (.list type) s).1 with
  | error e => rfl
  | ok existing =>
    dsimp only
    rcases existing.filter (payload.isFor type.identity) with _ | ⟨object, _ | ⟨_, _⟩⟩
    · exact hserves.takes_create hkept
    · exact hserves.takes_update type payload hkept object.id
    · rfl

variable (payload) in
theorem takes_deliver (hkept : (view s).WellKept policy) (config : Config) :
    let run := deliver P config payload s
    Store.Takes policy config.configType payload (view s) run.1 (view run.2) := by
  rw [deliver_run]
  cases config.originObjectId with
  | none => exact hserves.takes_discover hkept
  | some id =>
    have hupdate := hserves.takes_update config.configType payload hkept id
    dsimp only at hupdate ⊢
    cases hupdated : (P.handle (.update config.configType id payload) s).1 with
    | ok _ =>
      rw [hupdated] at hupdate
      exact hupdate
    | error e =>
      -- The update changed nothing, so the search starts from the same store.
      rw [hupdated] at hupdate
      change view _ = view s at hupdate
      dsimp only
      split
      · rw [← hupdate] at hkept ⊢
        exact hserves.takes_discover hkept
      · exact hupdate

end Platform.Serves

/-- What an attempt does to the store. -/
theorem Attempt.Ran.takes {a : Attempt σ} (h : a.Ran P vars) (hserves : P.Serves policy view)
    (hkept : (view a.before).WellKept policy) :
    match a.result with
    | .ok entity => ∃ payload, a.config.prepare vars a.context = .ok (payload, entity.properties) ∧
      Store.Writes policy a.config.configType payload entity.remoteId (view a.before)
        (view a.after)
    | .error _ => view a.after = view a.before := by
  cases h with
  | cancelled _ result after =>
    rw [result, after]
    exact hserves.elapse _
  | unprepared _ _ result after =>
    rw [result, after]
    exact hserves.elapse _
  | @delivered _ payload _ prepare result after =>
    have hpolled : view (P.poll a.before).2 = view a.before := hserves.elapse _
    rw [← hpolled] at hkept ⊢
    have htakes := hserves.takes_deliver payload hkept a.config
    dsimp only at htakes
    rw [result, after]
    cases hrun : (deliver P a.config payload (P.poll a.before).2).1 with
    | ok id =>
      rw [hrun] at htakes
      exact ⟨payload, prepare, htakes⟩
    | error e =>
      rw [hrun] at htakes
      exact htakes

/-! ### Ids during a run -/

/-- The store of one state is well kept and has the ids of another one, and maybe new ones. -/
def Accrues (policy : StorePolicy) (view : σ → Store) (s t : σ) : Prop :=
  (view s).WellKept policy → (view t).WellKept policy ∧ (view s).Gains policy (view t)

namespace Platform.Serves

variable (hserves : P.Serves policy view)

include hserves

theorem accrues : P.Idles (Accrues policy view) where
  refl s h := ⟨h, .refl policy (view s)⟩
  trans h h' := fun hkept =>
    have ⟨hkept, hgains⟩ := h hkept
    have ⟨hkept', hgains'⟩ := h' hkept
    ⟨hkept', hgains.trans hgains'⟩
  elapse s h := (hserves.elapse s).symm ▸ ⟨h, .refl policy (view s)⟩

theorem accrues_attempt {a : Attempt σ} (h : a.Ran P vars) :
    Accrues policy view a.before a.after := by
  intro hkept
  refine ⟨h.keeps hserves.keeps_wellKept hkept, ?_⟩
  have htakes := h.takes hserves hkept
  cases hresult : a.result with
  | ok entity =>
    rw [hresult] at htakes
    obtain ⟨_, _, hwrites⟩ := htakes
    exact hwrites.gains
  | error e =>
    rw [hresult] at htakes
    exact htakes.symm ▸ .refl policy _

/-- Around an attempt, from the start of the run to its end. -/
theorem gains_around {configs : List Config} (environment : String) (hkept : (view s).WellKept policy)
    {a : Attempt σ} (ha : a ∈ history P vars configs s) :
    let t := (deployEnvironment P vars environment configs s).2
    (view a.before).WellKept policy ∧ (view s).Gains policy (view a.before) ∧
      (view a.before).Gains policy (view t) ∧ ∀ entity, a.result = .ok entity →
        entity.remoteId ∈ (view t).ids a.config.configType.name := by
  obtain ⟨_, hran⟩ := mem_history ha
  have htimeline := timeline_history P vars environment configs s
  obtain ⟨hbefore, hafter⟩ := (htimeline.moves hserves.accrues fun _ ha =>
    hserves.accrues_attempt (mem_history ha).2).2 a ha
  obtain ⟨hkeptA, hgains⟩ := hbefore hkept
  obtain ⟨hkeptB, hstep⟩ := hserves.accrues_attempt hran hkeptA
  have hrest := (hafter hkeptB).2
  refine ⟨hkeptA, hgains, hstep.trans hrest, fun entity hresult => ?_⟩
  have htakes := hran.takes hserves hkeptA
  rw [hresult] at htakes
  obtain ⟨_, _, hwrites⟩ := htakes
  exact hrest.subset _ (hwrites.mem_ids_iff.2 (.inl ⟨rfl, rfl⟩))

end Platform.Serves

end Rollout
