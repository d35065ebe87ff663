import Rollout.Proofs.Platform.Index

/-! What a create or an update does to a store when it is carried out: one object takes what the
payload says, and all others stay as they are. -/

namespace Rollout.Store

variable {policy : StorePolicy} {s t u : Store} {type : ConfigType} {payload : Payload}
  {id : String}

/-- The payload is written into the object with an id, which may be a new one. -/
structure Writes (policy : StorePolicy) (type : ConfigType) (payload : Payload) (id : String)
    (s t : Store) : Prop where
  accepted : rejection? policy payload = none
  source : id ∈ s.ids type.name ∨ id = policy.newId s.creates
  creates_le : s.creates ≤ t.creates
  /-- The ids stay in their order, and a new one comes behind them. -/
  ids : ∀ name, t.ids name = s.ids name ∨ name = type.name ∧ t.ids name = s.ids name ++ [id]
  others : ∀ {name o}, ¬ (name = type.name ∧ o.remote.id = id) →
    (o ∈ t.objectsUnder name ↔ o ∈ s.objectsUnder name)
  own : ∃ name, (payload.name.isSome → name = payload.name) ∧ ∀ {o}, o.remote.id = id →
    (o ∈ t.objectsUnder type.name ↔
      o = ⟨⟨id, name, some payload.externalId⟩, payload.scope, payload.content⟩)

theorem writes_create (haccepted : rejection? policy payload = none)
    (hnew : policy.newId s.creates ∉ s.ids type.name) :
    Writes policy type payload (policy.newId s.creates) s (create policy type payload s).2 := by
  have hobjects : ∀ name, (create policy type payload s).2.objectsUnder name = _ :=
    objectsUnder_create haccepted
  refine ⟨haccepted, .inr rfl, ?_, fun name => ?_, ?_, payload.name, fun _ => rfl, ?_⟩
  · rw [create, haccepted]
    exact Nat.le_succ _
  · rw [ids_create haccepted]
    split
    · exact .inr ⟨‹_›, rfl⟩
    · exact .inl rfl
  · intro name o hother
    rw [hobjects]
    split
    · rename_i hname
      rw [List.mem_append, List.mem_singleton, or_iff_left]
      rintro rfl
      exact hother ⟨hname, rfl⟩
    · rfl
  · intro o hid
    rw [hobjects, if_pos rfl, List.mem_append, List.mem_singleton, or_iff_right]
    intro ho
    rw [ids_eq] at hnew
    exact hnew (List.mem_map.2 ⟨o, ho, hid⟩)

theorem writes_update (hids : (s.ids type.name).Nodup)
    (hok : (update policy type id payload s).1 = .ok ()) :
    Writes policy type payload id s (update policy type id payload s).2 := by
  have hobjects := objectsUnder_update hids hok
  have hmem := mem_ids_of_update_ok hok
  refine ⟨rejection?_of_update_ok hok, .inl hmem, Nat.le_of_eq (creates_update ..).symm,
    fun name => .inl (ids_update hids name), ?_, ?_⟩
  · intro name o hother
    rw [hobjects]
    split
    · rename_i hname
      rw [List.mem_map]
      constructor
      · rintro ⟨old, hold, rfl⟩
        have hne : ¬ old.remote.id = id := by
          intro heq
          apply hother
          rw [if_pos heq]
          exact ⟨hname, heq⟩
        rwa [if_neg hne]
      · intro ho
        exact ⟨o, ho, if_neg fun heq => hother ⟨hname, heq⟩⟩
    · rfl
  · rw [ids_eq] at hids hmem
    obtain ⟨old, hold, hid⟩ := List.mem_map.1 hmem
    refine ⟨payload.name.or old.remote.name, fun hname => Option.or_of_isSome hname, ?_⟩
    intro o ho
    rw [hobjects, if_pos rfl, List.mem_map]
    have hupdated : updated payload old = ⟨⟨id, payload.name.or old.remote.name,
        some payload.externalId⟩, payload.scope, payload.content⟩ := by rw [updated, hid]
    constructor
    · rintro ⟨other, hother, rfl⟩
      have heq : other.remote.id = id := by
        by_contra hne
        rw [if_neg hne] at ho
        exact hne ho
      obtain rfl := List.inj_on_of_nodup_map hids hother hold (heq.trans hid.symm)
      rw [if_pos heq, hupdated]
    · rintro rfl
      exact ⟨old, hold, by rw [if_pos hid, hupdated]⟩

namespace Writes

variable (h : Writes policy type payload id s t)

include h

theorem mem_ids_iff {name i : String} :
    i ∈ t.ids name ↔ name = type.name ∧ i = id ∨ i ∈ s.ids name := by
  rw [ids_eq, ids_eq, List.mem_map, List.mem_map]
  by_cases hown : name = type.name ∧ i = id
  · obtain ⟨rfl, rfl⟩ := hown
    obtain ⟨_, _, hmem⟩ := h.own
    exact iff_of_true ⟨_, (hmem rfl).2 rfl, rfl⟩ (.inl ⟨rfl, rfl⟩)
  · rw [or_iff_right hown]
    apply exists_congr
    intro o
    apply and_congr_left
    rintro rfl
    exact h.others hown

/-- The object takes the key of the payload. -/
theorem mem_index_iff (hkey : (payload.key (.ofTypeName type.name)).isSome) {name i : String}
    {key : Option String} : (i, key) ∈ t.index name ↔
      if name = type.name ∧ i = id then key = payload.key (.ofTypeName type.name)
      else (i, key) ∈ s.index name := by
  rw [index, index, List.mem_map, List.mem_map]
  split
  · rename_i hown
    obtain ⟨rfl, rfl⟩ := hown
    obtain ⟨objectName, hname, hmem⟩ := h.own
    have hownKey : RemoteObject.key ⟨i, objectName, some payload.externalId⟩
        (.ofTypeName type.name) = payload.key (.ofTypeName type.name) := by
      cases hidentity : Identity.ofTypeName type.name with
      | name =>
        rw [hidentity] at hkey
        exact hname hkey
      | externalId => rfl
    constructor
    · rintro ⟨o, ho, heq⟩
      obtain ⟨hid, rfl⟩ := Prod.mk.inj heq
      rw [(hmem hid).1 ho]
      exact hownKey
    · rintro rfl
      exact ⟨_, (hmem rfl).2 rfl, Prod.ext rfl hownKey⟩
  · rename_i hother
    apply exists_congr
    intro o
    apply and_congr_left
    intro heq
    obtain ⟨rfl, _⟩ := Prod.mk.inj heq
    exact h.others hother

end Writes

/-! ### Ids -/

/-- The ids stay, and new ones are given out in order. -/
structure Gains (policy : StorePolicy) (s t : Store) : Prop where
  creates_le : s.creates ≤ t.creates
  subset : ∀ name, s.ids name ⊆ t.ids name
  new : ∀ {name id}, id ∈ t.ids name →
    id ∈ s.ids name ∨ ∃ n, s.creates ≤ n ∧ id = policy.newId n

theorem Gains.refl (policy : StorePolicy) (s : Store) : Gains policy s s :=
  ⟨Nat.le_refl _, fun _ _ h => h, .inl⟩

theorem Gains.trans (h : Gains policy s t) (h' : Gains policy t u) : Gains policy s u where
  creates_le := Nat.le_trans h.creates_le h'.creates_le
  subset name _ hid := h'.subset name (h.subset name hid)
  new hid := by
    rcases h'.new hid with hid | ⟨n, hle, heq⟩
    · exact h.new hid
    · exact .inr ⟨n, Nat.le_trans h.creates_le hle, heq⟩

theorem Writes.gains (h : Writes policy type payload id s t) : Gains policy s t where
  creates_le := h.creates_le
  subset _ _ hid := h.mem_ids_iff.2 (.inr hid)
  new hid := by
    rcases h.mem_ids_iff.1 hid with ⟨rfl, rfl⟩ | hid
    · exact h.source.imp_right fun heq => ⟨_, Nat.le_refl _, heq⟩
    · exact .inl hid

/-! ### Writing once more -/

/-- The store `v` of a run that repeats another one, when that one had come to `u`, and to `t` in the
end. What has been written so far is as in `u` again, the rest is still as in `t`. -/
structure Retraces (written : List (String × String)) (t u v : Store) : Prop where
  known : ∀ {name i}, (name, i) ∈ written → i ∈ u.ids name
  mem_index_iff : ∀ {name i key}, (i, key) ∈ v.index name ↔
    if (name, i) ∈ written then (i, key) ∈ u.index name else (i, key) ∈ t.index name

namespace Retraces

variable {written : List (String × String)} {u' v v' : Store}

theorem start (u t : Store) : Retraces [] t u t where
  known := nofun
  mem_index_iff := by simp

/-- The same write in both runs. -/
theorem write (h : Retraces written t u v) (hu : Writes policy type payload id u u')
    (hv : Writes policy type payload id v v')
    (hkey : (payload.key (.ofTypeName type.name)).isSome) :
    Retraces (written ++ [(type.name, id)]) t u' v' where
  known hmem := by
    rw [List.mem_append, List.mem_singleton, Prod.mk.injEq] at hmem
    exact hu.mem_ids_iff.2 (hmem.symm.imp_right h.known)
  mem_index_iff := by
    intro name i key
    rw [hv.mem_index_iff hkey, hu.mem_index_iff hkey]
    simp only [List.mem_append, List.mem_singleton, Prod.mk.injEq]
    by_cases hown : name = type.name ∧ i = id
    · rw [if_pos hown, if_pos hown, if_pos (.inr hown)]
    · simp only [hown, or_false, if_false, h.mem_index_iff]

theorem mem_ids_iff (h : Retraces written t u v) {name i : String}
    (hsubset : u.ids name ⊆ t.ids name) : i ∈ v.ids name ↔ i ∈ t.ids name := by
  rw [Store.mem_ids_iff]
  by_cases hwritten : (name, i) ∈ written
  · have hknown := h.known hwritten
    simp only [h.mem_index_iff, if_pos hwritten, ← Store.mem_ids_iff]
    exact iff_of_true hknown (hsubset hknown)
  · simp only [h.mem_index_iff, if_neg hwritten, ← Store.mem_ids_iff]

end Retraces

end Rollout.Store
