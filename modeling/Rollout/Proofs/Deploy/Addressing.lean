import Rollout.Proofs.Deploy.Effect
import Rollout.Proofs.Deploy.Redeployment

/-! Which object of a store a config is brought to. As long as there is an object with the config's
origin object id, it is that one, whatever it is named; else the one with the key of the payload is
looked for. -/

namespace Rollout

variable {policy : StorePolicy} {vars : Variables} {config : Config} {payload : Payload}
  {id : String}

/-- There is no object with the origin object id of the config. -/
def Store.LacksOrigin (s : Store) (config : Config) : Prop :=
  ∀ id, config.originObjectId = some id → id ∉ s.ids config.configType.name

/-- The store has an object for the config, which the payload will be brought to. -/
inductive Store.Leads (s : Store) (config : Config) (payload : Payload) (id : String) : Prop
  | byOrigin (origin : config.originObjectId = some id) (mem : id ∈ s.ids config.configType.name)
  | byKey (lacks : s.LacksOrigin config)
    (holders : s.holders config.configType.name (payload.key config.configType.identity) = [id])

/-- The store has no object for the config and will give the id to a new one. -/
structure Store.Grants (policy : StorePolicy) (s : Store) (config : Config) (payload : Payload)
    (id : String) : Prop where
  lacks : s.LacksOrigin config
  holders : s.holders config.configType.name (payload.key config.configType.identity) = []
  new : id = policy.newId s.creates

/-! ### Deliveries to a store without faults -/

section

variable (haccepted : Store.rejection? policy payload = none) {s : Supervised Store}

include haccepted

theorem deliver_of_origin (horigin : config.originObjectId = some id)
    (hmem : id ∈ s.inner.ids config.configType.name) :
    let run := deliver (Store.logged policy) config payload s
    run.1 = .ok id ∧
      run.2.calls = s.calls ++ [⟨.update config.configType id payload, .ok ()⟩] := by
  have hupdate : (Store.update policy config.configType id payload s.inner).1 = _ :=
    Store.update_eq_ok haccepted hmem
  rw [deliver_run, horigin]
  dsimp only
  rw [Store.logged_handle]
  dsimp only [Store.handle]
  rw [hupdate]
  exact ⟨rfl, rfl⟩

/-- Where the origin object is missing, an update that fails is all that comes before the search. -/
theorem deliver_of_lacksOrigin (hlacks : s.inner.LacksOrigin config) :
    ∃ s' : Supervised Store, s'.inner = s.inner ∧
      (∃ calls, s'.calls = s.calls ++ calls ∧ ∀ call ∈ calls, call.request.kind ≠ .create) ∧
      deliver (Store.logged policy) config payload s =
        discover (Store.logged policy) config.configType payload s' := by
  rw [deliver_run]
  cases horigin : config.originObjectId with
  | none => exact ⟨s, rfl, ⟨[], (List.append_nil _).symm, List.forall_mem_nil _⟩, rfl⟩
  | some id =>
    have hupdate := Store.update_eq_unknown haccepted (hlacks id horigin)
    dsimp only
    rw [Store.logged_handle]
    dsimp only [Store.handle]
    rw [hupdate]
    refine ⟨⟨s.inner, s.cancelled, s.calls ++ [⟨.update config.configType id payload,
      .error (Store.unknownObject config.configType id)⟩]⟩, rfl, ⟨_, rfl, ?_⟩, rfl⟩
    simp [Request.kind]

variable (htyped : config.IsTyped)
  (hkey : (payload.key config.configType.identity).isSome)

include htyped hkey

/-- An object that is there is updated. -/
theorem deliver_of_leads (hleads : s.inner.Leads config payload id) :
    let run := deliver (Store.logged policy) config payload s
    run.1 = .ok id ∧ ∃ calls, run.2.calls = s.calls ++ calls ∧
      ∀ call ∈ calls, call.request.kind ≠ .create := by
  cases hleads with
  | byOrigin horigin hmem =>
    obtain ⟨hresult, hcalls⟩ := deliver_of_origin haccepted horigin hmem
    exact ⟨hresult, _, hcalls, by simp [Request.kind]⟩
  | byKey hlacks hholders =>
    obtain ⟨s', hinner, ⟨calls, hcalls, hnone⟩, hdeliver⟩ :=
      deliver_of_lacksOrigin haccepted hlacks
    have hholds : s'.inner.Holds policy config.configType payload id :=
      ⟨haccepted, hinner ▸ hholders⟩
    obtain ⟨hresult, existing, hcalls'⟩ := discover_of_holds htyped.isRegular hkey hholds
    rw [hcalls, List.append_assoc] at hcalls'
    rw [hdeliver]
    exact ⟨hresult, _, hcalls', List.forall_mem_append.2 ⟨hnone, by simp [Request.kind]⟩⟩

/-- What comes out is the id of the object that was there, or a new one. -/
theorem leads_or_grants_of_deliver
    (hresult : (deliver (Store.logged policy) config payload s).1 = .ok id) :
    s.inner.Leads config payload id ∨ s.inner.Grants policy config payload id := by
  by_cases hlacks : s.inner.LacksOrigin config
  · obtain ⟨s', hinner, _, hdeliver⟩ := deliver_of_lacksOrigin haccepted hlacks
    have hserves := Store.logged_serves policy
    have hview := hserves.view_list config.configType s'
    have hrun := discover_discovery hserves htyped.isRegular hkey s'
    rw [hdeliver] at hresult
    rw [← hinner] at hlacks ⊢
    generalize discover _ _ _ _ = run at *
    cases hrun with
    | unlisted _ => cases hresult
    | ambiguous _ _ => cases hresult
    | created _ holders =>
      refine .inr ⟨hlacks, holders, ?_⟩
      dsimp only at hresult
      cases hcreated : ((Store.logged policy).handle (.create config.configType payload)
          ((Store.logged policy).handle (.list config.configType) s').2).1 with
      | error e =>
        rw [hcreated] at hresult
        cases hresult
      | ok new =>
        rw [hcreated] at hresult
        cases hresult
        rw [← hview]
        exact (Store.create_eq_ok (hserves.of_ok hcreated).1).2
    | @updated _ object _ holders =>
      dsimp only at hresult
      cases hupdated : ((Store.logged policy).handle (.update config.configType object payload)
          ((Store.logged policy).handle (.list config.configType) s').2).1 with
      | error e =>
        rw [hupdated] at hresult
        cases hresult
      | ok _ =>
        rw [hupdated] at hresult
        cases hresult
        exact .inl (.byKey hlacks holders)
  · simp only [Store.LacksOrigin, not_forall, not_not] at hlacks
    obtain ⟨origin, horigin, hmem⟩ := hlacks
    cases (deliver_of_origin haccepted horigin hmem).1.symm.trans hresult
    exact .inl (.byOrigin horigin hmem)

end

/-! ### Attempts -/

namespace Attempt.Ran

variable {a : Attempt (Supervised Store)} (h : a.Ran (Store.logged policy) vars)
  (htyped : a.config.IsTyped)

include h htyped

theorem leads_or_grants (hkept : a.before.inner.WellKept policy) {entity : ResolvedEntity}
    (hresult : a.result = .ok entity) :
    ∃ payload, a.config.prepare vars a.context = .ok (payload, entity.properties) ∧
      Store.rejection? policy payload = none ∧
      (a.before.inner.Leads a.config payload entity.remoteId ∨
        a.before.inner.Grants policy a.config payload entity.remoteId) := by
  have htakes := h.takes (Store.logged_serves policy) hkept
  rw [hresult] at htakes
  obtain ⟨payload, hprepare, hwrites⟩ := htakes
  refine ⟨payload, hprepare, hwrites.accepted, ?_⟩
  cases h with
  | cancelled _ result => cases result.symm.trans hresult
  | unprepared _ _ result => cases result.symm.trans hresult
  | delivered _ prepare result _ =>
    cases prepare.symm.trans hprepare
    cases hrun : (deliver (Store.logged policy) a.config payload
        ((Store.logged policy).poll a.before).2).1 with
    | error e =>
      rw [hrun] at result
      cases result.symm.trans hresult
    | ok id =>
      rw [hrun] at result
      obtain rfl : id = entity.remoteId :=
        congrArg ResolvedEntity.remoteId (Except.ok.inj (result.symm.trans hresult))
      exact leads_or_grants_of_deliver (s := ((Store.logged policy).poll a.before).2)
        hwrites.accepted htyped (key_of_prepare_ok prepare) hrun

theorem of_leads (hflag : a.before.cancelled = false) {values : SortedMap String Json}
    (hprepare : a.config.prepare vars a.context = .ok (payload, values))
    (haccepted : Store.rejection? policy payload = none)
    (hleads : a.before.inner.Leads a.config payload id) :
    a.result = .ok ⟨a.config.coordinate, id, values⟩ ∧
      ∀ call ∈ a.calls, call.request.kind ≠ .create := by
  cases h with
  | cancelled flag _ _ =>
    have hset : ((Store.logged policy).poll a.before).1 = true := by
      simpa [startsResolving] using flag
    cases hset.symm.trans (Store.isCancelled_logged hflag)
  | unprepared _ prepare => cases prepare.symm.trans hprepare
  | delivered _ prepare result after =>
    cases prepare.symm.trans hprepare
    obtain ⟨hdelivered, calls, hcalls, hnone⟩ := deliver_of_leads haccepted htyped
      (key_of_prepare_ok prepare) (s := ((Store.logged policy).poll a.before).2) hleads
    rw [hdelivered] at result
    rw [calls_eq (after ▸ hcalls)]
    exact ⟨result, hnone⟩

end Attempt.Ran

end Rollout
