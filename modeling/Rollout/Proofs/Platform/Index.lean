import Rollout.Deploy.Config
import Rollout.Platform.Memory
import Mathlib.Data.List.Nodup

/-! The index of a store: which objects it has under the name of a type, by id and by the key that
identifies them. Requests are described by what they do to the index. An update of the object with
the key of the payload leaves it alone, a creation appends to it, a deletion thins it out. -/

namespace Rollout

/-- How the objects under the name of a type are found again. -/
def Identity.ofTypeName (name : String) : Identity :=
  if ConfigType.knownApis.contains name then .name else .externalId

/-- The type is found again as its name says. -/
def ConfigType.IsRegular (type : ConfigType) : Prop := type.identity = .ofTypeName type.name

/-- What tells an object from the others of its type. -/
def RemoteObject.key (object : RemoteObject) : Identity → Option String
  | .name => object.name
  | .externalId => object.externalId

/-- The key of the object that a payload is for. -/
def Payload.key (payload : Payload) : Identity → Option String
  | .name => payload.name
  | .externalId => some payload.externalId

theorem Payload.isFor_iff {payload : Payload} {identity : Identity} {object : RemoteObject}
    (h : (payload.key identity).isSome) :
    payload.isFor identity object = true ↔ object.key identity = payload.key identity := by
  cases identity with
  | name => simpa [isFor, RemoteObject.key, key] using fun _ => h
  | externalId => simp [isFor, RemoteObject.key, key]

theorem Payload.key_created (payload : Payload) (id : String) (identity : Identity) :
    RemoteObject.key ⟨id, payload.name, some payload.externalId⟩ identity = payload.key identity := by
  cases identity <;> rfl

/-- Objects are numbered. -/
def StorePolicy.numbered (rejectedNames : List String) : StorePolicy :=
  ⟨rejectedNames, fun n => "object-" ++ toString n⟩

theorem StorePolicy.injective_newId_numbered (rejectedNames : List String) :
    Function.Injective (numbered rejectedNames).newId := by
  intro m n h
  have hdigits : Nat.toDigits 10 m = Nat.toDigits 10 n := by
    simpa using congrArg String.toList ((String.append_right_inj _).1 h)
  have hvalues := congrArg (Nat.ofDigitChars 10 · 0) hdigits
  simpa using hvalues

/-- Any other id can be told from those of numbered objects. -/
theorem StorePolicy.newId_numbered_ne {id : String} (h : ¬ "object-".toList <+: id.toList)
    (rejectedNames : List String) (n : Nat) : (numbered rejectedNames).newId n ≠ id := by
  rintro rfl
  exact h (by simp [numbered])

namespace ConfigType

theorem ofName?_eq_some {name : String} {type : ConfigType} (h : ofName? name = some type) :
    type.name = name ∧ type.IsRegular := by
  unfold ofName? at h
  unfold IsRegular Identity.ofTypeName
  split at h
  · rename_i hknown
    cases h
    exact ⟨rfl, (if_pos hknown).symm⟩
  · rename_i hunknown
    split at h
    · cases h
      exact ⟨rfl, (if_neg hunknown).symm⟩
    · split at h
      · rename_i hbucket
        cases h
        subst hbucket
        exact ⟨rfl, (if_neg hunknown).symm⟩
      · split at h
        · cases h
          exact ⟨rfl, (if_neg hunknown).symm⟩
        · cases h

@[simp] theorem name_withSchemaVersion (type : ConfigType) (version : Option String) :
    (type.withSchemaVersion version).name = type.name := by cases type <;> rfl

@[simp] theorem identity_withSchemaVersion (type : ConfigType) (version : Option String) :
    (type.withSchemaVersion version).identity = type.identity := by cases type <;> rfl

end ConfigType

/-! ### The index -/

namespace Store

variable {policy : StorePolicy} {s : Store} {type : ConfigType} {payload : Payload} {id : String}

/-- The objects under the name of a type. -/
def objectsUnder (s : Store) (name : String) : List StoredObject := (s.objects.get? name).getD []

theorem objectsOf_eq (s : Store) (type : ConfigType) :
    s.objectsOf type = s.objectsUnder type.name := rfl

/-- Ids and keys of the objects under the name of a type. -/
def index (s : Store) (name : String) : List (String × Option String) :=
  (s.objectsUnder name).map fun o => (o.remote.id, o.remote.key (.ofTypeName name))

def ids (s : Store) (name : String) : List String := (s.index name).map (·.1)

def keys (s : Store) (name : String) : List (Option String) := (s.index name).map (·.2)

/-- The ids of the objects with a key. -/
def holders (s : Store) (name : String) (key : Option String) : List String :=
  ((s.index name).filter (·.2 == key)).map (·.1)

theorem ids_eq (s : Store) (name : String) :
    s.ids name = (s.objectsUnder name).map (·.remote.id) := by
  rw [ids, index, List.map_map]
  rfl

theorem keys_eq (s : Store) (name : String) :
    s.keys name = (s.objectsUnder name).map (·.remote.key (.ofTypeName name)) := by
  rw [keys, index, List.map_map]
  rfl

theorem holders_eq_nil_iff {name : String} {key : Option String} :
    s.holders name key = [] ↔ key ∉ s.keys name := by
  rw [holders, keys, List.map_eq_nil_iff, List.filter_eq_nil_iff, List.mem_map]
  simp only [beq_iff_eq, not_exists, not_and]

theorem mem_holders_iff {name : String} {key : Option String} :
    id ∈ s.holders name key ↔ (id, key) ∈ s.index name := by
  simp [holders]

theorem mem_ids_iff {name : String} : id ∈ s.ids name ↔ ∃ key, (id, key) ∈ s.index name := by
  simp [ids]

/-- An id stands for one key. -/
theorem key_eq_of_mem_index {name : String} (h : (s.ids name).Nodup) {key key' : Option String}
    (hkey : (id, key) ∈ s.index name) (hkey' : (id, key') ∈ s.index name) : key = key' :=
  congrArg Prod.snd (List.inj_on_of_nodup_map h hkey hkey' rfl)

/-- Where ids differ, a key has one holder if it has no other. -/
theorem holders_eq_singleton_iff {name : String} (h : (s.ids name).Nodup) {key : Option String} :
    s.holders name key = [id] ↔ ∀ i, (i, key) ∈ s.index name ↔ i = id := by
  have hnodup : (s.holders name key).Nodup := (List.filter_sublist.map _).nodup h
  rw [← List.perm_singleton, List.perm_ext_iff_of_nodup hnodup (List.nodup_singleton id)]
  simp only [mem_holders_iff, List.mem_singleton]

/-- Different keys have at most one holder. -/
theorem length_holders_le (h : (s.keys name).Nodup) (key : Option String) :
    (s.holders name key).length ≤ 1 := by
  have hcount := List.nodup_iff_count_le_one.1 h key
  rw [keys, List.count_eq_countP, List.countP_map] at hcount
  rw [holders, List.length_map, ← List.countP_eq_length_filter]
  exact hcount

@[simp] theorem objectsUnder_setObjects (s : Store) (type : ConfigType)
    (objects : List StoredObject) (name : String) :
    (s.setObjects type objects).objectsUnder name =
      if name = type.name then objects else s.objectsUnder name := by
  simp only [objectsUnder, setObjects, SortedMap.get?_insert, Std.LawfulEqCmp.compare_eq_iff_eq]
  split <;> rfl

/-! ### Requests -/

theorem updateFirst?_eq_none_iff {objects : List StoredObject} :
    updateFirst? id payload objects = none ↔ id ∉ objects.map (·.remote.id) := by
  induction objects with
  | nil => simp [updateFirst?]
  | cons object rest ih =>
    rw [updateFirst?]
    split
    · simp [*]
    · rename_i hne
      rw [Option.map_eq_none_iff, ih]
      simp [Ne.symm hne]

/-- Where ids are different, just the object with the id is changed. -/
theorem updateFirst?_eq_map {objects objects' : List StoredObject}
    (hnodup : (objects.map (·.remote.id)).Nodup)
    (h : updateFirst? id payload objects = some objects') :
    objects' = objects.map fun o => if o.remote.id = id then updated payload o else o := by
  induction objects generalizing objects' with
  | nil => cases h
  | cons object rest ih =>
    obtain ⟨hnew, hrest⟩ := List.nodup_cons.1 hnodup
    rw [updateFirst?] at h
    split at h
    · rename_i heq
      cases h
      have hothers : ∀ o ∈ rest, (if o.remote.id = id then updated payload o else o) = o := by
        intro o ho
        exact if_neg fun h => hnew (List.mem_map.2 ⟨o, ho, h.trans heq.symm⟩)
      rw [List.map_cons, if_pos heq, List.map_congr_left hothers, List.map_id']
    · rename_i hne
      obtain ⟨changed, hchanged, rfl⟩ := Option.map_eq_some_iff.1 h
      rw [List.map_cons, if_neg hne, ih hrest hchanged]

theorem objectsUnder_create (hkept : rejection? policy payload = none) (name : String) :
    (create policy type payload s).2.objectsUnder name =
      if name = type.name then
        s.objectsUnder name ++ [⟨⟨policy.newId s.creates, payload.name, some payload.externalId⟩,
          payload.scope, payload.content⟩]
      else s.objectsUnder name := by
  have hobjects : (create policy type payload s).2.objectsUnder name =
      (s.setObjects type (s.objectsOf type ++ [⟨⟨policy.newId s.creates, payload.name,
        some payload.externalId⟩, payload.scope, payload.content⟩])).objectsUnder name := by
    rw [create, hkept]
    rfl
  rw [hobjects, objectsUnder_setObjects]
  split
  · rename_i hname
    rw [hname, objectsOf_eq]
  · rfl

theorem index_create (hkept : rejection? policy payload = none) (name : String) :
    (create policy type payload s).2.index name =
      if name = type.name then
        s.index name ++ [(policy.newId s.creates, payload.key (.ofTypeName name))]
      else s.index name := by
  rw [index, objectsUnder_create hkept]
  split
  · rw [List.map_append, List.map_singleton, Payload.key_created]
    rfl
  · rfl

theorem ids_create (hkept : rejection? policy payload = none) (name : String) :
    (create policy type payload s).2.ids name =
      if name = type.name then s.ids name ++ [policy.newId s.creates] else s.ids name := by
  rw [ids, index_create hkept]
  split
  · exact List.map_append
  · rfl

theorem holders_create (hkept : rejection? policy payload = none) :
    (create policy type payload s).2.holders type.name (payload.key (.ofTypeName type.name)) =
      s.holders type.name (payload.key (.ofTypeName type.name)) ++ [policy.newId s.creates] := by
  rw [holders, index_create hkept, if_pos rfl, List.filter_append, List.map_append]
  simp [holders]

theorem create_eq_ok (h : (create policy type payload s).1 = .ok id) :
    rejection? policy payload = none ∧ id = policy.newId s.creates := by
  unfold create at h
  split at h
  · cases h
  · rename_i hkept
    cases h
    exact ⟨hkept, rfl⟩

theorem create_eq_error {e : PlatformError} (h : (create policy type payload s).1 = .error e) :
    (create policy type payload s).2 = s := by
  unfold create at h ⊢
  split at h
  · rfl
  · cases h

theorem rejection?_of_update_ok (h : (update policy type id payload s).1 = .ok ()) :
    rejection? policy payload = none := by
  unfold update at h
  split at h
  · cases h
  · assumption

theorem update_eq_ok (haccepted : rejection? policy payload = none) (hmem : id ∈ s.ids type.name) :
    (update policy type id payload s).1 = .ok () := by
  unfold update
  rw [haccepted]
  cases hupdate : updateFirst? id payload (s.objectsOf type) with
  | some objects => rfl
  | none => exact absurd (ids_eq s _ ▸ hmem) (updateFirst?_eq_none_iff.1 hupdate)

theorem update_eq_unknown (haccepted : rejection? policy payload = none)
    (hmem : id ∉ s.ids type.name) :
    update policy type id payload s = (.error (unknownObject type id), s) := by
  rw [ids_eq] at hmem
  rw [update, haccepted, objectsOf_eq, updateFirst?_eq_none_iff.2 hmem]

theorem mem_ids_of_update_ok (h : (update policy type id payload s).1 = .ok ()) :
    id ∈ s.ids type.name := by
  unfold update at h
  split at h
  · cases h
  · cases hupdate : updateFirst? id payload (s.objectsOf type) with
    | none =>
      rw [hupdate] at h
      cases h
    | some objects =>
      rw [ids_eq]
      by_contra hmem
      cases (updateFirst?_eq_none_iff.2 hmem).symm.trans hupdate

theorem update_eq_error {e : PlatformError} (h : (update policy type id payload s).1 = .error e) :
    (update policy type id payload s).2 = s := by
  unfold update at h ⊢
  split at h
  · rfl
  · split at h
    · cases h
    · rfl

theorem objectsUnder_update (hids : (s.ids type.name).Nodup)
    (hok : (update policy type id payload s).1 = .ok ()) (name : String) :
    (update policy type id payload s).2.objectsUnder name =
      if name = type.name then
        (s.objectsUnder name).map fun o => if o.remote.id = id then updated payload o else o
      else s.objectsUnder name := by
  have haccepted := rejection?_of_update_ok hok
  unfold update at hok ⊢
  rw [haccepted] at hok ⊢
  cases hupdate : updateFirst? id payload (s.objectsOf type) with
  | none =>
    rw [hupdate] at hok
    cases hok
  | some objects =>
    show (s.setObjects type objects).objectsUnder name = _
    rw [objectsUnder_setObjects]
    split
    · rename_i hname
      rw [ids_eq] at hids
      rw [hname, updateFirst?_eq_map hids hupdate]
    · rfl

theorem ids_update (hids : (s.ids type.name).Nodup) (name : String) :
    (update policy type id payload s).2.ids name = s.ids name := by
  cases hrun : (update policy type id payload s).1 with
  | error e => rw [update_eq_error hrun]
  | ok _ =>
    rw [ids_eq, ids_eq, objectsUnder_update hids hrun]
    split
    · rw [List.map_map]
      apply List.map_congr_left
      intro o _
      rw [Function.comp_apply]
      split <;> rfl
    · rfl

theorem creates_update (policy : StorePolicy) (type : ConfigType) (id : String)
    (payload : Payload) (s : Store) : (update policy type id payload s).2.creates = s.creates := by
  unfold update
  split
  · rfl
  · split <;> rfl

theorem key_updated {object : StoredObject} {identity : Identity}
    (h : object.remote.key identity = payload.key identity) :
    (updated payload object).remote.key identity = object.remote.key identity := by
  cases identity with
  | name =>
    rw [RemoteObject.key, RemoteObject.key, updated]
    rw [RemoteObject.key, Payload.key] at h
    rw [h, Option.or_self]
  | externalId => exact h.symm

/-- An update of an object that has the key of the payload. -/
theorem index_update (hids : (s.ids type.name).Nodup)
    (hmem : (id, payload.key (.ofTypeName type.name)) ∈ s.index type.name) (name : String) :
    (update policy type id payload s).2.index name = s.index name := by
  unfold update
  cases rejection? policy payload with
  | some e => rfl
  | none =>
    cases hupdate : updateFirst? id payload (s.objectsOf type) with
    | none => rfl
    | some objects =>
      rw [ids_eq] at hids
      obtain ⟨found, hfound, hentry⟩ := List.mem_map.1 hmem
      obtain ⟨hid, hkey⟩ := Prod.mk.inj hentry
      show ((s.setObjects type objects).objectsUnder name).map _ = _
      rw [objectsUnder_setObjects]
      split
      · rename_i hname
        subst hname
        rw [updateFirst?_eq_map hids hupdate, List.map_map]
        apply List.map_congr_left
        intro o ho
        rw [Function.comp_apply]
        split
        · rename_i heq
          obtain rfl := List.inj_on_of_nodup_map hids ho hfound (heq.trans hid.symm)
          rw [key_updated hkey]
          rfl
        · rfl
      · rfl

/-- Some entries go. -/
theorem index_delete (type : ConfigType) (id : String) (s : Store) (name : String) :
    ((delete type id s).2.index name).Sublist (s.index name) := by
  unfold delete
  dsimp only
  split
  · exact .refl _
  · show (((s.setObjects type _).objectsUnder name).map _).Sublist _
    rw [objectsUnder_setObjects]
    split
    · rename_i hname
      subst hname
      exact List.filter_sublist.map _
    · exact .refl _

/-! ### Stores that are well kept -/

/-- The ids under every name differ, and those to be given out are new. -/
structure WellKept (policy : StorePolicy) (s : Store) : Prop where
  nodup : ∀ name, (s.ids name).Nodup
  unused : ∀ n, s.creates ≤ n → ∀ name, policy.newId n ∉ s.ids name
  distinct : ∀ m n, s.creates ≤ m → m < n → policy.newId m ≠ policy.newId n

theorem wellKept_empty (h : Function.Injective policy.newId) : WellKept policy empty where
  nodup _ := List.nodup_nil
  unused _ _ _ := List.not_mem_nil
  distinct _ _ _ hlt heq := Nat.ne_of_lt hlt (h heq)

theorem WellKept.of_sublist (h : s.WellKept policy) {t : Store} (hcreates : t.creates = s.creates)
    (hindex : ∀ name, (t.index name).Sublist (s.index name)) : t.WellKept policy where
  nodup name := ((hindex name).map _).nodup (h.nodup name)
  unused n hn name hmem := h.unused n (hcreates ▸ hn) name (((hindex name).map _).subset hmem)
  distinct m n hm := h.distinct m n (hcreates ▸ hm)

theorem WellKept.create (h : s.WellKept policy) (type : ConfigType) (payload : Payload) :
    (create policy type payload s).2.WellKept policy := by
  cases hkept : rejection? policy payload with
  | some e =>
    rw [Store.create, hkept]
    exact h
  | none =>
    have hcreates : (Store.create policy type payload s).2.creates = s.creates + 1 := by
      rw [Store.create, hkept]
    have hids : ∀ name, (Store.create policy type payload s).2.ids name = _ := ids_create hkept
    refine ⟨fun name => ?_, fun n hn name => ?_, fun m n hm => ?_⟩
    · rw [hids]
      split
      · apply List.nodup_append.2 ⟨h.nodup name, List.nodup_singleton _, ?_⟩
        rintro id hid _ hnew rfl
        exact h.unused _ (Nat.le_refl _) name (List.mem_singleton.1 hnew ▸ hid)
      · exact h.nodup name
    · rw [hcreates] at hn
      rw [hids]
      split
      · rw [List.mem_append, List.mem_singleton, not_or]
        exact ⟨h.unused n (by omega) name, (h.distinct _ n (Nat.le_refl _) (by omega)).symm⟩
      · exact h.unused n (by omega) name
    · rw [hcreates] at hm
      exact h.distinct m n (by omega)

theorem WellKept.update (h : s.WellKept policy) (type : ConfigType) (id : String)
    (payload : Payload) : (update policy type id payload s).2.WellKept policy := by
  have hids : ∀ name, (Store.update policy type id payload s).2.ids name = s.ids name :=
    ids_update (h.nodup _)
  refine ⟨fun name => hids name ▸ h.nodup name, fun n hn name => ?_, fun m n hm => ?_⟩
  · rw [creates_update] at hn
    rw [hids]
    exact h.unused n hn name
  · rw [creates_update] at hm
    exact h.distinct m n hm

/-- What was there before the run may have any id that is not to be given out. -/
theorem WellKept.seed (h : s.WellKept policy) {remote : RemoteObject}
    (hnew : remote.id ∉ s.ids type.name)
    (hunused : ∀ n, s.creates ≤ n → policy.newId n ≠ remote.id) :
    (s.seed type remote).WellKept policy := by
  have hids : ∀ name, (s.seed type remote).ids name =
      if name = type.name then s.ids name ++ [remote.id] else s.ids name := by
    intro name
    rw [ids_eq, ids_eq, Store.seed, objectsUnder_setObjects]
    split
    · rename_i hname
      rw [hname, objectsOf_eq, List.map_append]
      rfl
    · rfl
  refine ⟨fun name => ?_, fun n hn name => ?_, h.distinct⟩
  · rw [hids]
    split
    · rename_i hname
      apply List.nodup_append.2 ⟨h.nodup name, List.nodup_singleton _, ?_⟩
      rintro id hid _ hmem rfl
      exact hnew (hname ▸ List.mem_singleton.1 hmem ▸ hid)
    · exact h.nodup name
  · rw [hids]
    split
    · rw [List.mem_append, List.mem_singleton, not_or]
      exact ⟨h.unused n hn name, hunused n hn⟩
    · exact h.unused n hn name

theorem WellKept.delete (h : s.WellKept policy) (type : ConfigType) (id : String) :
    (delete type id s).2.WellKept policy := by
  apply h.of_sublist _ (index_delete type id s)
  unfold Store.delete
  dsimp only
  split <;> rfl

theorem WellKept.handled (h : s.WellKept policy) (r : Request) :
    (handle policy r s).2.WellKept policy := by
  cases r with
  | list type => exact h
  | create type payload => exact h.create type payload
  | update type id payload => exact h.update type id payload
  | delete type id => exact h.delete type id

/-- All entries stay, and the new ones have keys of their own. -/
def Extends (s t : Store) : Prop :=
  ∀ name, ∃ new, t.index name = s.index name ++ new ∧ (new.map (·.2)).Nodup ∧
    ∀ key ∈ new.map (·.2), key ∉ s.keys name

namespace Extends

variable {t u : Store}

theorem of_index_eq (h : ∀ name, t.index name = s.index name) : s.Extends t :=
  fun name => ⟨[], by rw [h, List.append_nil], List.nodup_nil, nofun⟩

theorem refl (s : Store) : s.Extends s := of_index_eq fun _ => rfl

theorem trans (h : s.Extends t) (h' : t.Extends u) : s.Extends u := by
  intro name
  obtain ⟨new, hnew, hnodup, hkeys⟩ := h name
  obtain ⟨newer, hnewer, hnodup', hkeys'⟩ := h' name
  have hall : t.keys name = s.keys name ++ new.map (·.2) := by rw [keys, hnew, List.map_append]; rfl
  refine ⟨new ++ newer, by rw [hnewer, hnew, List.append_assoc], ?_, ?_⟩
  · rw [List.map_append]
    refine List.nodup_append.2 ⟨hnodup, hnodup', ?_⟩
    rintro key hkey _ hkey' rfl
    exact hkeys' key hkey' (hall ▸ List.mem_append_right _ hkey)
  · intro key hkey
    rw [List.map_append] at hkey
    rcases List.mem_append.1 hkey with hkey | hkey
    · exact hkeys key hkey
    · exact fun hmem => hkeys' key hkey (hall ▸ List.mem_append_left _ hmem)

theorem nodup_keys (h : s.Extends t) {name : String} (hkeys : (s.keys name).Nodup) :
    (t.keys name).Nodup := by
  obtain ⟨new, hnew, hnodup, hfresh⟩ := h name
  rw [keys, hnew, List.map_append]
  refine List.nodup_append.2 ⟨hkeys, hnodup, ?_⟩
  rintro key hkey _ hkey' rfl
  exact hfresh key hkey' hkey

/-- Who holds a key goes on to hold it alone. -/
theorem holders_eq (h : s.Extends t) {name : String} {key : Option String} {id : String}
    {rest : List String} (hheld : s.holders name key = id :: rest) :
    t.holders name key = id :: rest := by
  obtain ⟨new, hnew, _, hfresh⟩ := h name
  have hkey : key ∈ s.keys name := by
    by_contra hkey
    cases hheld.symm.trans (holders_eq_nil_iff.2 hkey)
  have hnone : new.filter (·.2 == key) = [] := by
    apply List.filter_eq_nil_iff.2
    intro e he heq
    exact hfresh e.2 (List.mem_map.2 ⟨e, he, rfl⟩) (beq_iff_eq.1 heq ▸ hkey)
  rw [holders, hnew, List.filter_append, hnone, List.append_nil]
  exact hheld

end Extends

/-- A request that cannot give a key to two objects: it creates an object with a new key, or updates
one that has the key of the payload. -/
def Fits (s : Store) : Request → Prop
  | .list _ => True
  | .create type payload =>
    payload.key (.ofTypeName type.name) ∉ s.keys type.name
  | .update type id payload => (id, payload.key (.ofTypeName type.name)) ∈ s.index type.name
  | .delete _ _ => False

theorem WellKept.handle (h : s.WellKept policy) {r : Request} (hfits : s.Fits r) :
    (handle policy r s).2.WellKept policy ∧ s.Extends (handle policy r s).2 := by
  cases r with
  | list type => exact ⟨h, .refl s⟩
  | create type payload =>
    refine ⟨h.create type payload, ?_⟩
    cases hkept : rejection? policy payload with
    | some e =>
      rw [Store.handle, Store.create, hkept]
      exact .refl s
    | none =>
      intro name
      rw [Store.handle, index_create hkept]
      split
      · rename_i hname
        subst hname
        refine ⟨_, rfl, List.nodup_singleton _, ?_⟩
        intro key hkey
        rw [List.mem_singleton.1 hkey]
        exact hfits
      · exact Extends.refl s name
  | update type id payload =>
    have hindex : ∀ name, (Store.update policy type id payload s).2.index name = s.index name :=
      index_update (h.nodup type.name) hfits
    exact ⟨h.of_sublist (creates_update ..) fun name => hindex name ▸ .refl _,
      .of_index_eq hindex⟩
  | delete type id => exact hfits.elim

end Store

end Rollout
