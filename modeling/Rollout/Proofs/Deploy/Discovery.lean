import Rollout.Proofs.Deploy.Timeline
import Rollout.Proofs.Platform.Serving

/-! What deploying a config does to a store. The object that has the key of the config's payload is
updated, and created only where there is none; so the config's requests fit the store, and after a
success its object is the only one with the key. -/

namespace Rollout

variable {σ : Type} {P : Platform σ} {policy : StorePolicy} {view : σ → Store} {vars : Variables}
  {type : ConfigType} {payload : Payload} {s : σ} {R : σ → σ → Prop}

/-- The type of the config is the one that its coordinate names, in whatever version. -/
def Config.IsTyped (config : Config) : Prop :=
  ∃ type version, ConfigType.ofName? config.coordinate.configType = some type ∧
    config.configType = type.withSchemaVersion version

/-- The config is found by its name or external id alone. -/
structure Config.IsManaged (config : Config) : Prop where
  typed : config.IsTyped
  origin : config.originObjectId = none

namespace Config.IsTyped

variable {config : Config} (h : config.IsTyped)

include h

theorem isRegular : config.configType.IsRegular := by
  obtain ⟨type, version, htype, heq⟩ := h
  rw [ConfigType.IsRegular, heq, ConfigType.identity_withSchemaVersion,
    ConfigType.name_withSchemaVersion]
  exact (ConfigType.ofName?_eq_some htype).2

theorem name_configType : config.configType.name = config.coordinate.configType := by
  obtain ⟨type, version, htype, heq⟩ := h
  rw [heq, ConfigType.name_withSchemaVersion]
  exact (ConfigType.ofName?_eq_some htype).1

/-- A type has a name. -/
theorem configType_ne_empty : config.coordinate.configType ≠ "" := by
  obtain ⟨type, _, htype, _⟩ := h
  intro hempty
  rw [hempty] at htype
  cases htype

end Config.IsTyped

theorem key_of_prepare_ok {ctx : Context} {config : Config} {values : SortedMap String Json}
    (h : config.prepare vars ctx = .ok (payload, values)) :
    (payload.key config.configType.identity).isSome := by
  rw [prepare_run] at h
  split at h
  · cases h
  · split at h
    · cases h
    · dsimp only at h
      split at h
      · cases h
      · split at h
        · cases h
        · rename_i hname
          cases h
          cases hidentity : config.configType.identity with
          | name => simpa [Payload.key, hidentity, Option.isSome_iff_ne_none] using hname
          | externalId => rfl

/-! ### Looking for the object -/

/-- The listed objects that a payload is for are those with its key. -/
theorem map_id_filter_isFor (hregular : type.IsRegular)
    (hkey : (payload.key type.identity).isSome) (s : Store) :
    (((s.objectsOf type).map (·.remote)).filter (payload.isFor type.identity)).map (·.id) =
      s.holders type.name (payload.key type.identity) := by
  have hfor : ∀ o : StoredObject, payload.isFor type.identity o.remote =
      (o.remote.key (.ofTypeName type.name) == payload.key type.identity) := by
    intro o
    rw [Bool.eq_iff_iff, Payload.isFor_iff hkey, beq_iff_eq, ← hregular]
  rw [Store.holders, Store.index, List.filter_map, List.filter_map, List.map_map, List.map_map,
    Store.objectsOf_eq]
  exact congrArg _ (List.filter_congr fun o _ => hfor o)

/-- How a discovery can go: what it comes to, and in which state. -/
inductive Discovery (P : Platform σ) (view : σ → Store) (type : ConfigType) (payload : Payload)
    (s : σ) : Except DeployError String × σ → Prop
  | unlisted {e : PlatformError} (listed : (P.handle (.list type) s).1 = .error e) :
    Discovery P view type payload s (.error (.remote e), (P.handle (.list type) s).2)
  | created {existing : List RemoteObject} (listed : (P.handle (.list type) s).1 = .ok existing)
    (holders : (view s).holders type.name (payload.key type.identity) = []) :
    Discovery P view type payload s
      (let created := P.handle (.create type payload) (P.handle (.list type) s).2
      (created.1.mapError .remote, created.2))
  | updated {existing : List RemoteObject} {id : String}
    (listed : (P.handle (.list type) s).1 = .ok existing)
    (holders : (view s).holders type.name (payload.key type.identity) = [id]) :
    Discovery P view type payload s
      (let updated := P.handle (.update type id payload) (P.handle (.list type) s).2
      ((updated.1.map fun _ => id).mapError .remote, updated.2))
  | ambiguous {existing : List RemoteObject} {name : String} {count : Nat}
    (listed : (P.handle (.list type) s).1 = .ok existing)
    (holders : 1 < ((view s).holders type.name (payload.key type.identity)).length) :
    Discovery P view type payload s
      (.error (.ambiguous name count), (P.handle (.list type) s).2)

section

variable (hserves : P.Serves policy view) (hregular : type.IsRegular)
  (hkey : (payload.key type.identity).isSome)

include hserves hregular hkey

theorem discover_discovery (s : σ) :
    Discovery P view type payload s (discover P type payload s) := by
  rw [discover_run]
  dsimp only
  cases hlisted : (P.handle (.list type) s).1 with
  | error e => exact .unlisted hlisted
  | ok existing =>
    have hholders := map_id_filter_isFor hregular hkey (view s)
    cases (hserves.of_ok hlisted).1
    dsimp only
    generalize (((view s).objectsOf type).map (·.remote)).filter (payload.isFor type.identity) =
      found at *
    rcases found with _ | ⟨object, _ | ⟨_, _⟩⟩
    · exact .created hlisted hholders.symm
    · exact .updated hlisted hholders.symm
    · exact .ambiguous hlisted (by simp [← hholders])

/-- The requests of a discovery fit the store. -/
theorem Platform.Tracks.discover (H : P.Tracks view R) :
    Moves R (Rollout.discover P type payload) := by
  intro s
  have hlist := H.handle (.list type) s trivial
  have hview := hserves.view_list type s
  have hrun := discover_discovery hserves hregular hkey s
  generalize Rollout.discover P type payload s = run at *
  cases hrun with
  | unlisted _ => exact hlist
  | created _ holders =>
    refine H.trans hlist (H.handle _ _ ?_)
    rw [hview, Store.Fits, ← hregular]
    exact Store.holders_eq_nil_iff.1 holders
  | @updated _ id _ holders =>
    refine H.trans hlist (H.handle _ _ ?_)
    rw [hview, Store.Fits, ← hregular]
    exact Store.mem_holders_iff.1 (holders ▸ List.mem_singleton_self id)
  | ambiguous _ _ => exact hlist

/-- After a success the object is the only one with the key of the payload. -/
theorem holders_of_discover_ok (hkept : (view s).WellKept policy) {id : String}
    (h : (discover P type payload s).1 = .ok id) :
    Store.rejection? policy payload = none ∧
      (view (discover P type payload s).2).holders type.name (payload.key type.identity) =
        [id] := by
  have hview := hserves.view_list type s
  have hrun := discover_discovery hserves hregular hkey s
  generalize discover P type payload s = run at *
  cases hrun with
  | unlisted _ => cases h
  | ambiguous _ _ => cases h
  | created _ holders =>
    dsimp only at h ⊢
    cases hcreated : (P.handle (.create type payload) (P.handle (.list type) s).2).1 with
    | error e =>
      rw [hcreated] at h
      cases h
    | ok new =>
      rw [hcreated] at h
      cases h
      obtain ⟨hcreate, hafter⟩ := hserves.of_ok hcreated
      obtain ⟨haccepted, rfl⟩ := Store.create_eq_ok hcreate
      refine ⟨haccepted, ?_⟩
      rw [hafter, hregular]
      rw [hregular, ← hview] at holders
      exact (Store.holders_create haccepted).trans (congrArg (· ++ _) holders)
  | @updated _ object _ holders =>
    dsimp only at h ⊢
    cases hupdated : (P.handle (.update type object payload) (P.handle (.list type) s).2).1 with
    | error e =>
      rw [hupdated] at h
      cases h
    | ok _ =>
      rw [hupdated] at h
      cases h
      obtain ⟨hupdate, hafter⟩ := hserves.of_ok hupdated
      refine ⟨Store.rejection?_of_update_ok hupdate, ?_⟩
      rw [hregular, ← hview] at holders
      have hentry := Store.mem_holders_iff.1 (holders ▸ List.mem_singleton_self object)
      rw [hafter, hregular, ← holders, Store.holders, Store.holders]
      exact congrArg _ (congrArg _ (Store.index_update ((hview ▸ hkept).nodup _) hentry _))

theorem not_ambiguous_of_nodup (hkeys : ((view s).keys type.name).Nodup) (name : String)
    (count : Nat) : (discover P type payload s).1 ≠ .error (.ambiguous name count) := by
  intro h
  have hrun := discover_discovery hserves hregular hkey s
  generalize discover P type payload s = run at *
  cases hrun with
  | unlisted _ => cases h
  | created _ _ =>
    dsimp only at h
    cases hcreated : (P.handle (.create type payload) (P.handle (.list type) s).2).1 <;>
      rw [hcreated] at h <;> cases h
  | @updated _ object _ _ =>
    dsimp only at h
    cases hupdated : (P.handle (.update type object payload) (P.handle (.list type) s).2).1 <;>
      rw [hupdated] at h <;> cases h
  | ambiguous _ holders =>
    exact absurd holders (Nat.not_lt.2 (Store.length_holders_le hkeys _))

end

/-! ### Attempts -/

namespace Attempt.Ran

variable {a : Attempt σ} (h : a.Ran P vars) (hmanaged : a.config.IsManaged)
  (hserves : P.Serves policy view)

include h hmanaged hserves

theorem moves (H : P.Tracks view R) : R a.before a.after := by
  cases h with
  | cancelled _ _ after => exact after ▸ H.elapse _
  | unprepared _ _ _ after => exact after ▸ H.elapse _
  | delivered _ prepare _ after =>
    rw [after, deliver_run, hmanaged.origin]
    exact H.trans (H.elapse _)
      (H.discover hserves hmanaged.typed.isRegular (key_of_prepare_ok prepare) _)

/-- What a success leaves in the store. -/
theorem holders (hkept : (view a.before).WellKept policy) {entity : ResolvedEntity}
    (hresult : a.result = .ok entity) :
    ∃ payload, a.config.prepare vars a.context = .ok (payload, entity.properties) ∧
      Store.rejection? policy payload = none ∧
      (view a.after).holders a.config.configType.name
        (payload.key a.config.configType.identity) = [entity.remoteId] := by
  cases h with
  | cancelled _ result => cases result.symm.trans hresult
  | unprepared _ _ result => cases result.symm.trans hresult
  | @delivered _ payload _ prepare result after =>
    rw [deliver_run, hmanaged.origin] at result after
    cases hrun : (discover P a.config.configType payload (P.poll a.before).2).1 with
    | error e =>
      rw [hrun] at result
      cases result.symm.trans hresult
    | ok id =>
      rw [hrun] at result
      cases result.symm.trans hresult
      have hkept' : (view (P.poll a.before).2).WellKept policy := (hserves.elapse a.before).symm ▸ hkept
      obtain ⟨haccepted, hheld⟩ := holders_of_discover_ok hserves hmanaged.typed.isRegular
        (key_of_prepare_ok prepare) hkept' hrun
      exact ⟨payload, prepare, haccepted, after ▸ hheld⟩

theorem not_ambiguous (hkeys : ∀ name, ((view a.before).keys name).Nodup) (name : String)
    (count : Nat) : a.result ≠ .error (.ambiguous name count) := by
  intro hresult
  cases h with
  | cancelled _ result => cases result.symm.trans hresult
  | unprepared _ prepare result =>
    cases result.symm.trans hresult
    cases prepare_error prepare
  | @delivered _ payload _ prepare result after =>
    rw [deliver_run, hmanaged.origin] at result
    have hkeys' : ∀ name, ((view (P.poll a.before).2).keys name).Nodup :=
      (hserves.elapse a.before).symm ▸ hkeys
    have hnot := not_ambiguous_of_nodup hserves hmanaged.typed.isRegular
      (key_of_prepare_ok prepare) (hkeys' _) name count
    cases hrun : (discover P a.config.configType payload (P.poll a.before).2).1 with
    | ok id =>
      rw [hrun] at result
      cases result.symm.trans hresult
    | error e =>
      rw [hrun] at result hnot
      cases result.symm.trans hresult
      exact hnot rfl

end Attempt.Ran

end Rollout
