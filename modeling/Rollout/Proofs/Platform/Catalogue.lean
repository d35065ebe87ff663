import Rollout.OrderedMap
import Rollout.Platform.Supervised
import Rollout.Proofs.Platform.Deletion
import Mathlib.Data.List.Induction
import Mathlib.Logic.Function.Basic

/-! A store refines a catalogue: for each type a map from ids to objects that remembers the order in
which they were added. The catalogue says what a request may be answered with and what it changes;
how the store searches its lists for an id is not to be seen there. -/

namespace Rollout

/-! ### Catalogues -/

/-- What is known of an object besides its id. -/
structure Entry where
  name : Option String
  externalId : Option String
  scope : Option String
  content : String

namespace Entry

def ofPayload (payload : Payload) : Entry :=
  ⟨payload.name, some payload.externalId, payload.scope, payload.content⟩

/-- The name is replaced only by a name. -/
def revise (payload : Payload) (entry : Entry) : Entry :=
  { ofPayload payload with name := payload.name.or entry.name }

def object (entry : Entry) (id : String) : StoredObject :=
  ⟨⟨id, entry.name, entry.externalId⟩, entry.scope, entry.content⟩

end Entry

/-- For the name of each type its objects by id. -/
abbrev Catalogue : Type := String → OrderedMap String Entry

namespace Catalogue

def empty : Catalogue := fun _ => .empty

def objects (m : Catalogue) (name : String) : List StoredObject :=
  (m name).entries.map fun p => p.2.object p.1

/-- Puts something else in the place of the objects of one type. -/
def set (m : Catalogue) (type : ConfigType) (map : OrderedMap String Entry) : Catalogue :=
  Function.update m type.name map

/-- No object may be given a rejected name. -/
def Accepts (rejectedNames : List String) (payload : Payload) : Prop :=
  ∀ name, payload.name = some name → name ∉ rejectedNames

/-- The ways in which a request may be answered, each with what becomes of the catalogue. -/
inductive Step (rejectedNames : List String) (m : Catalogue) : Call → Catalogue → Prop
  | list {type : ConfigType} :
    Step rejectedNames m ⟨.list type, .ok ((m.objects type.name).map (·.remote))⟩ m
  | create {type : ConfigType} {payload : Payload} {id : String}
    (haccepts : Accepts rejectedNames payload) (hnew : id ∉ (m type.name).keys) :
    Step rejectedNames m ⟨.create type payload, .ok id⟩
      (m.set type ((m type.name).append id (.ofPayload payload) hnew))
  | createRejected {type : ConfigType} {payload : Payload} {name : String}
    (hname : payload.name = some name) (hrejected : name ∈ rejectedNames) :
    Step rejectedNames m ⟨.create type payload,
      .error (.invalidInput ("object '" ++ name ++ "' was rejected by the platform"))⟩ m
  | update {type : ConfigType} {payload : Payload} {id : String}
    (haccepts : Accepts rejectedNames payload) (hknown : id ∈ (m type.name).keys) :
    Step rejectedNames m ⟨.update type id payload, .ok ()⟩
      (m.set type ((m type.name).modify id (.revise payload)))
  | updateRejected {type : ConfigType} {payload : Payload} {id name : String}
    (hname : payload.name = some name) (hrejected : name ∈ rejectedNames) :
    Step rejectedNames m ⟨.update type id payload,
      .error (.invalidInput ("object '" ++ name ++ "' was rejected by the platform"))⟩ m
  | updateUnknown {type : ConfigType} {payload : Payload} {id : String}
    (haccepts : Accepts rejectedNames payload) (hunknown : id ∉ (m type.name).keys) :
    Step rejectedNames m ⟨.update type id payload,
      .error (.notFound (type.name ++ " object " ++ id))⟩ m
  | delete {type : ConfigType} {id : String} (hknown : id ∈ (m type.name).keys) :
    Step rejectedNames m ⟨.delete type id, .ok ()⟩ (m.set type ((m type.name).erase id))
  | deleteUnknown {type : ConfigType} {id : String} (hunknown : id ∉ (m type.name).keys) :
    Step rejectedNames m ⟨.delete type id, .error (.notFound (type.name ++ " object " ++ id))⟩ m

/-- One call after another. -/
inductive Runs (rejectedNames : List String) : Catalogue → List Call → Catalogue → Prop
  | nil {m : Catalogue} : Runs rejectedNames m [] m
  | cons {m m' m'' : Catalogue} {call : Call} {calls : List Call}
    (hstep : Step rejectedNames m call m') (hrest : Runs rejectedNames m' calls m'') :
    Runs rejectedNames m (call :: calls) m''

theorem objects_set (m : Catalogue) (type : ConfigType) (map : OrderedMap String Entry)
    (name : String) : (m.set type map).objects name =
      if name = type.name then map.entries.map fun p => p.2.object p.1 else m.objects name := by
  rw [objects, set, Function.update_apply]
  split <;> rfl

theorem Step.objects_of_ne {rejectedNames : List String} {m m' : Catalogue} {call : Call}
    (h : Step rejectedNames m call m') {name : String} (hname : name ≠ call.request.type.name) :
    m'.objects name = m.objects name := by
  cases h with
  | create _ _ | update _ _ | delete _ => exact (objects_set ..).trans (if_neg hname)
  | _ => rfl

end Catalogue

namespace Store

variable {policy : StorePolicy} {s t : Store} {m : Catalogue} {type : ConfigType}
  {payload : Payload} {id : String}

/-- The catalogue of a store. -/
def Represents (s : Store) (m : Catalogue) : Prop := ∀ name, s.objectsUnder name = m.objects name

theorem rejection?_eq_none_iff :
    rejection? policy payload = none ↔ Catalogue.Accepts policy.rejectedNames payload := by
  unfold rejection? Catalogue.Accepts
  cases payload.name with
  | none => simp
  | some name => simp

theorem rejection?_eq_some {e : PlatformError} (h : rejection? policy payload = some e) :
    ∃ name, payload.name = some name ∧ name ∈ policy.rejectedNames ∧
      e = .invalidInput ("object '" ++ name ++ "' was rejected by the platform") := by
  unfold rejection? at h
  split at h
  · rename_i name hname
    split at h
    · rename_i hrejected
      exact ⟨name, hname, by simpa using hrejected, (Option.some.inj h).symm⟩
    · cases h
  · cases h

namespace Represents

variable (h : s.Represents m)

include h

theorem ids (name : String) : s.ids name = (m name).keys := by
  rw [ids_eq, h, Catalogue.objects, List.map_map, ← OrderedMap.map_fst_entries]
  rfl

theorem set {map : OrderedMap String Entry} (hobjects : ∀ name, t.objectsUnder name =
      if name = type.name then map.entries.map fun p => p.2.object p.1 else s.objectsUnder name) :
    t.Represents (m.set type map) := by
  intro name
  rw [hobjects, Catalogue.objects_set, h]

theorem append (entry : Entry) (hnew : id ∉ (m type.name).keys)
    (hobjects : ∀ name, t.objectsUnder name =
      if name = type.name then s.objectsUnder name ++ [entry.object id] else s.objectsUnder name) :
    t.Represents (m.set type ((m type.name).append id entry hnew)) := by
  apply h.set
  intro name
  rw [hobjects]
  split
  · rename_i hname
    rw [OrderedMap.entries_append, List.map_append, h, hname]
    rfl
  · rfl

theorem update (hids : (s.ids type.name).Nodup)
    (hok : (Store.update policy type id payload s).1 = .ok ()) :
    (Store.update policy type id payload s).2.Represents
      (m.set type ((m type.name).modify id (.revise payload))) := by
  apply h.set
  intro name
  rw [objectsUnder_update hids hok]
  split
  · rename_i hname
    rw [OrderedMap.entries_modify, h, hname, Catalogue.objects, List.map_map, List.map_map]
    apply List.map_congr_left
    intro p _
    by_cases hid : p.1 = id
    · simp [hid, Entry.object, Entry.revise, Entry.ofPayload, updated]
    · simp [hid, Entry.object]
  · rfl

theorem delete (hloses : s.Loses [(type.name, id)] t) :
    t.Represents (m.set type ((m type.name).erase id)) := by
  apply h.set
  intro name
  rw [hloses.objectsUnder]
  split
  · rename_i hname
    rw [OrderedMap.entries_erase, h, hname, Catalogue.objects, List.filter_map]
    congr 1
    apply List.filter_congr
    intro p _
    simp [Entry.object]
  · rename_i hname
    simp [hname]

end Represents

/-! ### One request -/

variable (hkept : s.WellKept policy)

include hkept

/-- What the store does is a step of the catalogue. -/
theorem handle_step (hrepr : s.Represents m) (r : Request) :
    ∃ m', Catalogue.Step policy.rejectedNames m ⟨r, (handle policy r s).1⟩ m' ∧
      (handle policy r s).2.Represents m' := by
  cases r with
  | list type =>
    refine ⟨m, ?_, hrepr⟩
    show Catalogue.Step _ m ⟨.list type, .ok ((s.objectsOf type).map (·.remote))⟩ m
    rw [objectsOf_eq, hrepr]
    exact .list
  | create type payload =>
    rw [handle]
    cases hrejection : rejection? policy payload with
    | some e =>
      obtain ⟨name, hname, hrejected, rfl⟩ := rejection?_eq_some hrejection
      rw [create, hrejection]
      exact ⟨m, .createRejected hname hrejected, hrepr⟩
    | none =>
      have hnew : policy.newId s.creates ∉ (m type.name).keys := by
        rw [← hrepr.ids]
        exact hkept.unused _ (Nat.le_refl _) _
      refine ⟨_, ?_, hrepr.append (.ofPayload payload) hnew
        (objectsUnder_create hrejection)⟩
      rw [create, hrejection]
      exact .create (rejection?_eq_none_iff.1 hrejection) hnew
  | update type id payload =>
    rw [handle]
    cases hrejection : rejection? policy payload with
    | some e =>
      obtain ⟨name, hname, hrejected, rfl⟩ := rejection?_eq_some hrejection
      rw [update, hrejection]
      exact ⟨m, .updateRejected hname hrejected, hrepr⟩
    | none =>
      have haccepts := rejection?_eq_none_iff.1 hrejection
      by_cases hmem : id ∈ s.ids type.name
      · have hok := update_eq_ok hrejection hmem
        refine ⟨_, ?_, hrepr.update (hkept.nodup _) hok⟩
        rw [hok]
        exact .update haccepts (hrepr.ids _ ▸ hmem)
      · rw [update_eq_unknown hrejection hmem]
        exact ⟨m, .updateUnknown haccepts (hrepr.ids _ ▸ hmem), hrepr⟩
  | delete type id =>
    rw [handle]
    have hdeletion := delete_deletion type id s
    by_cases hmem : id ∈ s.ids type.name
    · refine ⟨_, ?_, hrepr.delete hdeletion.loses⟩
      rw [(hdeletion.known hmem).1]
      exact .delete (hrepr.ids _ ▸ hmem)
    · rw [delete_of_not_mem hmem]
      exact ⟨m, .deleteUnknown (hrepr.ids _ ▸ hmem), hrepr⟩

omit hkept

/-- An error leaves everything as it is. -/
theorem handle_eq_error {r : Request} {e : PlatformError} (h : (handle policy r s).1 = .error e) :
    (handle policy r s).2 = s := by
  cases r with
  | list type => rfl
  | create type payload => exact create_eq_error h
  | update type id payload => exact update_eq_error h
  | delete type id =>
    by_cases hmem : id ∈ s.ids type.name
    · cases h.symm.trans ((delete_deletion type id s).known hmem).1
    · exact congrArg Prod.snd (delete_of_not_mem hmem)

/-! ### Counting -/

/-- How many requests of a kind were carried out. -/
def carriedOut (kind : RequestKind) (calls : List Call) : Nat :=
  calls.countP fun c => c.request.kind = kind && c.outcome.isOk

theorem carriedOut_append (kind : RequestKind) (calls calls' : List Call) :
    carriedOut kind (calls ++ calls') = carriedOut kind calls + carriedOut kind calls' :=
  List.countP_append

@[simp] theorem carriedOut_error (kind : RequestKind) (r : Request) (e : PlatformError) :
    carriedOut kind [⟨r, .error e⟩] = 0 := by
  simp [carriedOut, Except.isOk, Except.toBool]

/-- Every counter goes up by the calls it counts, and the number of objects follows. -/
structure Tallies (s : Store) (calls : List Call) (t : Store) : Prop where
  creates : t.creates = s.creates + carriedOut .create calls
  updates : t.updates = s.updates + carriedOut .update calls
  deletes : t.deletes = s.deletes + carriedOut .delete calls
  size : t.size + carriedOut .delete calls = s.size + carriedOut .create calls

namespace Tallies

theorem refl (s : Store) : s.Tallies [] s := ⟨rfl, rfl, rfl, rfl⟩

theorem trans {calls calls' : List Call} {u : Store} (h : s.Tallies calls t)
    (h' : t.Tallies calls' u) : s.Tallies (calls ++ calls') u where
  creates := by rw [h'.creates, h.creates, carriedOut_append, Nat.add_assoc]
  updates := by rw [h'.updates, h.updates, carriedOut_append, Nat.add_assoc]
  deletes := by rw [h'.deletes, h.deletes, carriedOut_append, Nat.add_assoc]
  size := by
    have hsize := h.size
    have hsize' := h'.size
    rw [carriedOut_append, carriedOut_append]
    omega

end Tallies

theorem exists_objects_of_update_ok (h : (update policy type id payload s).1 = .ok ()) :
    ∃ objects, (update policy type id payload s).2 =
      { s.setObjects type objects with updates := s.updates + 1 } := by
  have haccepted := rejection?_of_update_ok h
  unfold update at h ⊢
  rw [haccepted] at h ⊢
  cases hupdate : updateFirst? id payload (s.objectsOf type) with
  | some objects => exact ⟨objects, rfl⟩
  | none =>
    rw [hupdate] at h
    cases h

theorem handle_tallies (hids : ∀ name, (s.ids name).Nodup) (r : Request) :
    s.Tallies [⟨r, (handle policy r s).1⟩] (handle policy r s).2 := by
  cases hrun : (handle policy r s).1 with
  | error e =>
    rw [handle_eq_error hrun]
    exact ⟨by simp, by simp, by simp, by simp⟩
  | ok reply =>
    cases r with
    | list type => exact ⟨rfl, rfl, rfl, rfl⟩
    | create type payload =>
      have haccepted := (create_eq_ok hrun).1
      have hcreates : (create policy type payload s).2.creates = s.creates + 1 := by
        rw [create, haccepted]
      have hsize : (create policy type payload s).2.size + s.creates = s.size + _ :=
        size_create policy type payload s
      have hgrown : (create policy type payload s).2.size = s.size + 1 := by omega
      refine ⟨hcreates, ?_, ?_, hgrown⟩
      · rw [handle, create, haccepted]
        rfl
      · rw [handle, create, haccepted]
        rfl
    | update type id payload =>
      have hsize := size_update policy type id payload s
      obtain ⟨objects, hobjects⟩ := exists_objects_of_update_ok (by exact hrun)
      rw [handle]
      rw [hobjects] at hsize ⊢
      exact ⟨rfl, rfl, rfl, hsize⟩
    | delete type id =>
      have hmem : id ∈ s.ids type.name := by
        by_contra hmem
        cases hrun.symm.trans (congrArg Prod.fst (delete_of_not_mem hmem))
      have hdeletion := delete_deletion type id s
      have hdeletes := (hdeletion.known hmem).2
      have hcounted := hdeletion.loses.counted hids
      refine ⟨hdeletion.loses.creates, hdeletion.loses.updates, hdeletes, ?_⟩
      show (delete type id s).2.size + 1 = s.size + 0
      omega

/-! ### Many requests -/

theorem callAll_runs (hkept : s.WellKept policy) (hrepr : s.Represents m)
    (requests : List Request) :
    let run := (platform policy).callAll requests s
    run.1.map (·.request) = requests ∧ run.2.WellKept policy ∧ s.Tallies run.1 run.2 ∧
      ∃ m', Catalogue.Runs policy.rejectedNames m run.1 m' ∧ run.2.Represents m' := by
  induction requests generalizing s m with
  | nil => exact ⟨rfl, hkept, .refl s, m, .nil, hrepr⟩
  | cons r rest ih =>
    obtain ⟨m', hstep, hrepr'⟩ := handle_step hkept hrepr r
    obtain ⟨hrequests, hkept', htallies, m'', hruns, hrepr''⟩ := ih (hkept.handled r) hrepr'
    exact ⟨congrArg (r :: ·) hrequests, hkept', (handle_tallies hkept.nodup r).trans htallies, m'',
      .cons hstep hruns, hrepr''⟩

theorem stocked_concat (seeds : List (ConfigType × RemoteObject)) (p : ConfigType × RemoteObject) :
    stocked (seeds ++ [p]) = (stocked seeds).seed p.1 p.2 := List.foldl_concat ..

theorem objectsUnder_seed (s : Store) (type : ConfigType) (remote : RemoteObject) (name : String) :
    (s.seed type remote).objectsUnder name =
      if name = type.name then s.objectsUnder name ++ [⟨remote, none, ""⟩]
      else s.objectsUnder name := by
  rw [seed, objectsUnder_setObjects]
  split
  · rename_i hname
    rw [hname, objectsOf_eq]
  · rfl

theorem mem_ids_stocked {seeds : List (ConfigType × RemoteObject)} {name i : String} :
    i ∈ (stocked seeds).ids name ↔ (name, i) ∈ seeds.map fun p => (p.1.name, p.2.id) := by
  induction seeds using List.reverseRecOn with
  | nil => exact iff_of_false List.not_mem_nil List.not_mem_nil
  | append_singleton seeds p ih =>
    rw [ids_eq] at ih
    rw [stocked_concat, ids_eq, objectsUnder_seed, List.map_append, List.mem_append, ← ih]
    split <;> simp [*]

theorem size_stocked (seeds : List (ConfigType × RemoteObject)) :
    (stocked seeds).size = seeds.length := by
  induction seeds using List.reverseRecOn with
  | nil => rfl
  | append_singleton seeds p ih =>
    have hsize := (stocked seeds).size_setObjects p.1
      ((stocked seeds).objectsOf p.1 ++ [⟨p.2, none, ""⟩])
    rw [stocked_concat, seed, List.length_append, ← ih]
    rw [List.length_append] at hsize
    simp only [List.length_singleton] at hsize ⊢
    omega

theorem counters_stocked (seeds : List (ConfigType × RemoteObject)) :
    (stocked seeds).creates = 0 ∧ (stocked seeds).updates = 0 ∧ (stocked seeds).deletes = 0 := by
  induction seeds using List.reverseRecOn with
  | nil => exact ⟨rfl, rfl, rfl⟩
  | append_singleton seeds p ih => exact stocked_concat seeds p ▸ ih

theorem stocked_represents {seeds : List (ConfigType × RemoteObject)}
    (hseeds : (seeds.map fun p => (p.1.name, p.2.id)).Nodup)
    (hinjective : Function.Injective policy.newId)
    (hfresh : ∀ p ∈ seeds, ∀ n, policy.newId n ≠ p.2.id) :
    (stocked seeds).WellKept policy ∧ ∃ m, (stocked seeds).Represents m := by
  induction seeds using List.reverseRecOn with
  | nil => exact ⟨wellKept_empty hinjective, .empty, fun _ => rfl⟩
  | append_singleton seeds p ih =>
    rw [List.map_append, List.nodup_append] at hseeds
    obtain ⟨hkept, m, hrepr⟩ := ih hseeds.1 fun q hq => hfresh q (List.mem_append_left _ hq)
    have hnew : p.2.id ∉ (stocked seeds).ids p.1.name := fun hmem =>
      hseeds.2.2 _ (mem_ids_stocked.1 hmem) _ (List.mem_singleton_self _) rfl
    rw [stocked_concat]
    have hunused : ∀ n, policy.newId n ≠ p.2.id := hfresh p (by simp)
    have hnew' : p.2.id ∉ (m p.1.name).keys := hrepr.ids _ ▸ hnew
    exact ⟨hkept.seed hnew fun n _ => hunused n, _, hrepr.append
      ⟨p.2.name, p.2.externalId, none, ""⟩ hnew' (objectsUnder_seed _ p.1 p.2)⟩

/-- Whatever is asked of a store, it answers and changes as a catalogue does: of its objects only
those of the type asked for, and nothing at all where it answers with an error. It counts what it
has carried out. -/
theorem callAll_refines {seeds : List (ConfigType × RemoteObject)}
    (hseeds : (seeds.map fun p => (p.1.name, p.2.id)).Nodup)
    (hinjective : Function.Injective policy.newId)
    (hfresh : ∀ p ∈ seeds, ∀ n, policy.newId n ≠ p.2.id) (requests : List Request) :
    let run := (platform policy).callAll requests (stocked seeds)
    run.1.map (·.request) = requests ∧
      (∀ name, (run.2.ids name).Nodup) ∧
      (∃ start m, (stocked seeds).Represents start ∧
        Catalogue.Runs policy.rejectedNames start run.1 m ∧ run.2.Represents m) ∧
      (run.2.creates = carriedOut .create run.1 ∧ run.2.updates = carriedOut .update run.1 ∧
        run.2.deletes = carriedOut .delete run.1) ∧
      run.2.size + carriedOut .delete run.1 = seeds.length + carriedOut .create run.1 ∧
      ∀ r, let next := handle policy r run.2
        (∀ name, name ≠ r.type.name → next.2.objectsUnder name = run.2.objectsUnder name) ∧
          ∀ e, next.1 = .error e → next.2 = run.2 := by
  intro run
  obtain ⟨hkept, start, hstart⟩ := stocked_represents hseeds hinjective hfresh
  obtain ⟨hrequests, hkept', htallies, m, hruns, hrepr⟩ := callAll_runs hkept hstart requests
  obtain ⟨hcreates, hupdates, hdeletes⟩ := counters_stocked seeds
  refine ⟨hrequests, hkept'.nodup, ⟨start, m, hstart, hruns, hrepr⟩, ⟨?_, ?_, ?_⟩, ?_, ?_⟩
  · rw [htallies.creates, hcreates, Nat.zero_add]
  · rw [htallies.updates, hupdates, Nat.zero_add]
  · rw [htallies.deletes, hdeletes, Nat.zero_add]
  · rw [← size_stocked]
    exact htallies.size
  · intro r next
    obtain ⟨m', hstep, hrepr'⟩ := handle_step hkept' hrepr r
    refine ⟨fun name hname => ?_, fun e => handle_eq_error⟩
    rw [hrepr', hrepr, hstep.objects_of_ne hname]

end Store

/-! ### Two types, of which one has an object -/

namespace Depot

def tag : ConfigType := .classicApi "auto-tag"

def bucket : ConfigType := .bucket

def seeds : List (ConfigType × RemoteObject) := [(tag, ⟨"x", some "old", none⟩)]

def payload (name : Option String) (content : String) : Payload :=
  ⟨⟨"p", "auto-tag", "t"⟩, name, "e", none, content⟩

def requests : List Request :=
  [.create bucket (payload none "b"), .create tag (payload (some "bad") ""),
    .create tag (payload (some "new") "n"), .update tag "x" (payload none "c"), .delete bucket "x",
    .delete bucket "object-0", .update bucket "object-0" (payload none ""), .list tag]

theorem catalogued :
    let run := (Store.platform (.numbered ["bad"])).callAll requests (Store.stocked seeds)
    (∀ name, (run.2.ids name).Nodup) ∧ run.2.creates = 2 ∧ run.2.updates = 1 ∧
      run.2.deletes = 1 ∧ run.2.size = 2 := by
  intro run
  have hfresh : ∀ p ∈ seeds, ∀ n, (StorePolicy.numbered ["bad"]).newId n ≠ p.2.id := by
    intro p hp n
    obtain rfl := List.mem_singleton.1 hp
    exact StorePolicy.newId_numbered_ne (by decide) _ n
  obtain ⟨_, hids, _, ⟨hcreates, hupdates, hdeletes⟩, hsize, _⟩ :=
    Store.callAll_refines (by decide) (StorePolicy.injective_newId_numbered ["bad"]) hfresh requests
  have hcreated : Store.carriedOut .create run.1 = 2 := by decide +kernel
  have hupdated : Store.carriedOut .update run.1 = 1 := by decide +kernel
  have hdeleted : Store.carriedOut .delete run.1 = 1 := by decide +kernel
  refine ⟨hids, hcreates.trans hcreated, hupdates.trans hupdated, hdeletes.trans hdeleted, ?_⟩
  rw [hcreated, hdeleted] at hsize
  exact Nat.add_right_cancel hsize

end Depot

end Rollout
