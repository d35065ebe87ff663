import Rollout.Proofs.Platform.Index
import Rollout.Proofs.Platform.Mutation

/-! Deletions in a store, and how many objects it has. A store that lost some objects is as before
without them; to delete an object that is not there changes nothing. -/

namespace Rollout

/-- What the sum over a map changes by when a value is put in or replaced. -/
theorem sumOver_values_insert {κ ν : Type} [Ord κ] [Std.TransOrd κ] [Std.LawfulEqOrd κ]
    (count : ν → Nat) (m : SortedMap κ ν) (key : κ) (value : ν) :
    sumOver count (m.insert key value).values + (m.get? key).elim 0 count =
      sumOver count m.values + count value := by
  obtain ⟨entries, hascending⟩ := m
  show sumOver count ((Assoc.insert key value entries).map (·.2)) +
      (Assoc.get? key entries).elim 0 count = sumOver count (entries.map (·.2)) + _
  induction entries with
  | nil => simp [Assoc.insert, sumOver]
  | cons head rest ih =>
    obtain ⟨k, v⟩ := head
    obtain ⟨hhead, hrest⟩ := List.pairwise_cons.1 hascending
    rw [Assoc.get?, Assoc.insert]
    split
    · -- A key before the first one is not found.
      rename_i hlt
      have hnone : Assoc.get? key rest = none := by
        cases hget : Assoc.get? key rest with
        | none => rfl
        | some _ =>
          have hlater := Std.TransCmp.lt_trans hlt (hhead _ (Assoc.mem_of_get? hget))
          simp at hlater
      rw [if_neg (by simp [hlt]), hnone]
      simp only [List.map_cons, sumOver, Option.elim_none]
      omega
    · rename_i heq
      rw [if_pos heq]
      simp only [List.map_cons, sumOver, Option.elim_some]
      omega
    · rename_i hgt
      rw [if_neg (by simp [hgt])]
      have hsum := ih hrest
      simp only [List.map_cons, sumOver]
      omega

theorem sumOver_eq_zero {ν : Type} {count : ν → Nat} {values : List ν}
    (h : ∀ value ∈ values, count value = 0) : sumOver count values = 0 := by
  induction values with
  | nil => rfl
  | cons value rest ih =>
    obtain ⟨hvalue, hrest⟩ := List.forall_mem_cons.1 h
    rw [sumOver, hvalue, ih hrest]

namespace Store

variable {s t u : Store} {type : ConfigType} {id : String} {gone gone' : List (String × String)}

/-- How many objects a store has. -/
def size (s : Store) : Nat := sumOver List.length s.objects.values

theorem size_setObjects (s : Store) (type : ConfigType) (objects : List StoredObject) :
    (s.setObjects type objects).size + (s.objectsOf type).length = s.size + objects.length := by
  have hsum := sumOver_values_insert List.length s.objects type.name objects
  have hlength : (s.objects.get? type.name).elim 0 List.length = (s.objectsOf type).length := by
    rw [objectsOf]
    cases s.objects.get? type.name <;> rfl
  rwa [hlength] at hsum

theorem size_eq_zero (h : ∀ name, s.objectsUnder name = []) : s.size = 0 := by
  apply sumOver_eq_zero
  intro objects hmem
  obtain ⟨name, hget⟩ := SortedMap.mem_values_iff.1 hmem
  have hnone := h name
  rw [objectsUnder, hget] at hnone
  rw [← Option.getD_some (a := objects), hnone, List.length_nil]

theorem size_create (policy : StorePolicy) (type : ConfigType) (payload : Payload) (s : Store) :
    let t := (create policy type payload s).2
    t.size + s.creates = s.size + t.creates := by
  unfold create
  cases rejection? policy payload with
  | some e => rfl
  | none =>
    have hsize := s.size_setObjects type (s.objectsOf type ++
      [⟨⟨policy.newId s.creates, payload.name, some payload.externalId⟩, payload.scope,
        payload.content⟩])
    rw [List.length_append, List.length_singleton] at hsize
    show (s.setObjects type _).size + s.creates = s.size + (s.creates + 1)
    omega

theorem length_updateFirst? {id : String} {payload : Payload} {objects objects' : List StoredObject}
    (h : updateFirst? id payload objects = some objects') : objects'.length = objects.length := by
  induction objects generalizing objects' with
  | nil => cases h
  | cons object rest ih =>
    rw [updateFirst?] at h
    split at h
    · cases h
      rfl
    · obtain ⟨changed, hchanged, rfl⟩ := Option.map_eq_some_iff.1 h
      exact congrArg (· + 1) (ih hchanged)

theorem size_update (policy : StorePolicy) (type : ConfigType) (id : String) (payload : Payload)
    (s : Store) : (update policy type id payload s).2.size = s.size := by
  unfold update
  cases rejection? policy payload with
  | some e => rfl
  | none =>
    cases hupdate : updateFirst? id payload (s.objectsOf type) with
    | none => rfl
    | some objects =>
      have hsize := s.size_setObjects type objects
      rw [length_updateFirst? hupdate] at hsize
      exact Nat.add_right_cancel hsize

/-- Some objects are gone, known by the names of their types and their ids. -/
structure Loses (s : Store) (gone : List (String × String)) (t : Store) : Prop where
  objects : ∀ name, t.objects.get? name =
    (s.objects.get? name).map (·.filter fun o => (name, o.remote.id) ∉ gone)
  creates : t.creates = s.creates
  updates : t.updates = s.updates
  /-- Where ids are different, each deletion takes one object. -/
  counted : (∀ name, (s.ids name).Nodup) → t.size + t.deletes = s.size + s.deletes

namespace Loses

theorem refl (s : Store) : s.Loses [] s where
  objects name := by simp
  creates := rfl
  updates := rfl
  counted _ := rfl

theorem objectsUnder (h : s.Loses gone t) (name : String) :
    t.objectsUnder name = (s.objectsUnder name).filter fun o => (name, o.remote.id) ∉ gone := by
  rw [Store.objectsUnder, Store.objectsUnder, h.objects]
  cases s.objects.get? name <;> rfl

theorem nodup_ids (h : s.Loses gone t) (hids : ∀ name, (s.ids name).Nodup) (name : String) :
    (t.ids name).Nodup := by
  rw [ids_eq, h.objectsUnder]
  exact (List.filter_sublist.map _).nodup (ids_eq s name ▸ hids name)

theorem trans (h : s.Loses gone t) (h' : t.Loses gone' u) : s.Loses (gone ++ gone') u where
  objects name := by
    rw [h'.objects, h.objects, Option.map_map]
    congr 1
    funext objects
    simp only [Function.comp_apply, List.filter_filter, List.mem_append, not_or]
    exact List.filter_congr fun o _ => by simp [Bool.and_comm]
  creates := h'.creates.trans h.creates
  updates := h'.updates.trans h.updates
  counted hids := (h'.counted (h.nodup_ids hids)).trans (h.counted hids)

theorem mem_ids_iff (h : s.Loses gone t) {name : String} :
    id ∈ t.ids name ↔ id ∈ s.ids name ∧ (name, id) ∉ gone := by
  rw [ids_eq, ids_eq, h.objectsUnder]
  simp only [List.mem_map, List.mem_filter, decide_eq_true_eq]
  constructor
  · rintro ⟨o, ⟨ho, hkept⟩, rfl⟩
    exact ⟨⟨o, ho, rfl⟩, hkept⟩
  · rintro ⟨⟨o, ho, rfl⟩, hkept⟩
    exact ⟨o, ⟨ho, hkept⟩, rfl⟩

end Loses

/-! ### One deletion -/

private theorem length_filter_eq_iff :
    ((s.objectsOf type).filter (·.remote.id ≠ id)).length = (s.objectsOf type).length ↔
      id ∉ s.ids type.name := by
  rw [List.length_filter_eq_length_iff, ids_eq, ← objectsOf_eq, List.mem_map]
  simp

theorem delete_of_not_mem (h : id ∉ s.ids type.name) :
    delete type id s = (.error (unknownObject type id), s) :=
  if_pos (length_filter_eq_iff.2 h)

theorem delete_of_mem (h : id ∈ s.ids type.name) :
    ∃ objects, s.objects.get? type.name = some objects ∧ delete type id s =
      (.ok (), { s.setObjects type (objects.filter (·.remote.id ≠ id)) with
        deletes := s.deletes + 1 }) := by
  have hlength := mt length_filter_eq_iff.1 (not_not.2 h)
  cases hget : s.objects.get? type.name with
  | none =>
    rw [objectsOf, hget] at hlength
    exact absurd rfl hlength
  | some objects =>
    have hobjects : s.objectsOf type = objects := by rw [objectsOf, hget]; rfl
    refine ⟨objects, rfl, ?_⟩
    rw [← hobjects]
    exact if_neg hlength

/-- Of objects with different ids just one has a given id. -/
private theorem length_filter_ne {objects : List StoredObject}
    (hnodup : (objects.map (·.remote.id)).Nodup) (hmem : id ∈ objects.map (·.remote.id)) :
    (objects.filter (·.remote.id ≠ id)).length + 1 = objects.length := by
  have hone := List.count_eq_one_of_mem hnodup hmem
  rw [List.count_eq_countP, List.countP_map] at hone
  have hsplit := List.length_eq_countP_add_countP ((· == id) ∘ fun o => o.remote.id) (l := objects)
  rw [hsplit, hone, Nat.add_comm, ← List.countP_eq_length_filter]
  congr 2
  funext o
  simp

/-- What comes of deleting an object. -/
structure Deletion (s : Store) (type : ConfigType) (id : String)
    (run : Except PlatformError Unit × Store) : Prop where
  loses : s.Loses [(type.name, id)] run.2
  known : id ∈ s.ids type.name → run.1 = .ok () ∧ run.2.deletes = s.deletes + 1
  unknown : id ∉ s.ids type.name →
    run.1 = .error (unknownObject type id) ∧ run.2.deletes = s.deletes

theorem delete_deletion (type : ConfigType) (id : String) (s : Store) :
    Deletion s type id (delete type id s) := by
  by_cases hmem : id ∈ s.ids type.name
  · obtain ⟨objects, hget, hrun⟩ := delete_of_mem hmem
    rw [hrun]
    refine ⟨⟨fun name => ?_, rfl, rfl, fun hids => ?_⟩, fun _ => ⟨rfl, rfl⟩,
      fun h => absurd hmem h⟩
    · simp only [setObjects, SortedMap.get?_insert, Std.LawfulEqCmp.compare_eq_iff_eq]
      split
      · rename_i hname
        rw [hname, hget]
        simp
      · rename_i hname
        cases s.objects.get? name <;> simp [hname]
    · have hnodup := hids type.name
      have hobjects : s.objectsOf type = objects := by rw [objectsOf, hget]; rfl
      rw [ids_eq, ← objectsOf_eq, hobjects] at hnodup hmem
      have hsum := s.size_setObjects type (objects.filter (·.remote.id ≠ id))
      have hone := length_filter_ne hnodup hmem
      rw [hobjects] at hsum
      show (s.setObjects type _).size + (s.deletes + 1) = _
      omega
  · rw [delete_of_not_mem hmem]
    refine ⟨⟨fun name => ?_, rfl, rfl, fun _ => rfl⟩, fun h => absurd h hmem, fun _ => ⟨rfl, rfl⟩⟩
    cases hget : s.objects.get? name with
    | none => rfl
    | some objects =>
      rw [Option.map_some, List.filter_eq_self.2]
      intro o ho
      apply decide_eq_true
      intro hgone
      obtain ⟨rfl, rfl⟩ := Prod.mk.inj (List.mem_singleton.1 hgone)
      apply hmem
      rw [ids_eq, objectsUnder, hget]
      exact List.mem_map.2 ⟨o, ho, rfl⟩

end Store

end Rollout
