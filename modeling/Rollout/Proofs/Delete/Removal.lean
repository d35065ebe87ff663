import Rollout.Proofs.Delete.Runs
import Rollout.Proofs.Platform.Deletion

/-! What a delete run removes from a store where nothing fails. All entries are matched against the
objects that were there at the start; an object that an earlier entry has removed is passed over, so
each one is reported by the first entry that finds it. -/

namespace Rollout

variable {policy : StorePolicy} {s t : Store} {type : ConfigType} {id : String} {e : DeleteEntry}
  {gone : List (String × String)}

/-! ### What entries find -/

/-- An entry finds an object by its id, by its name for a classic API, or by the external id of the
config that the entry and its project name. -/
inductive DeleteEntry.Finds (e : DeleteEntry) (type : ConfigType) (object : RemoteObject) : Prop
  | id (same : object.id = e.identifier)
  | name (classic : type.kind = .classicApi) (same : object.name = some e.identifier)
  | externalId {project : String} (other : type.kind ≠ .classicApi)
    (named : e.project = some project)
    (same : object.externalId = some (Coordinate.externalId ⟨project, e.configType, e.identifier⟩))

theorem DeleteEntry.names_iff {object : RemoteObject} :
    e.names type object = true ↔ e.Finds type object := by
  have hproject : (∃ project, e.project = some project ∧ object.externalId =
      some (Coordinate.externalId ⟨project, e.configType, e.identifier⟩)) ↔
      e.externalId?.isSome = true ∧ object.externalId = e.externalId? := by
    unfold externalId?
    cases e.project <;> simp
  rw [names, Bool.or_eq_true, decide_eq_true_eq]
  constructor
  · intro h
    rcases h with h | h
    · exact .id h
    · split at h
      · exact .name ‹_› (of_decide_eq_true h)
      · rename_i hother
        rw [Bool.and_eq_true, decide_eq_true_eq] at h
        obtain ⟨_, hnamed, hsame⟩ := hproject.2 h
        exact .externalId hother hnamed hsame
  · intro h
    cases h with
    | id same => exact .inl same
    | name classic same =>
      rw [classic]
      exact .inr (decide_eq_true same)
    | externalId other named same =>
      have h := hproject.1 ⟨_, named, same⟩
      right
      split
      · exact absurd ‹_› other
      · rw [Bool.and_eq_true, decide_eq_true_eq]
        exact h

/-- A store has an object with the id, of the type that the entry is about, and the entry finds it.
-/
def DeleteEntry.Matches (e : DeleteEntry) (s : Store) (id : String) : Prop :=
  ∃ type, ConfigType.ofName? e.configType = some type ∧
    ∃ o ∈ s.objectsOf type, o.remote.id = id ∧ e.Finds type o.remote

namespace Store

/-- The ids of the objects that an entry finds, ascending. -/
def matched (s : Store) (e : DeleteEntry) : List String :=
  match ConfigType.ofName? e.configType with
  | some type => matchingIds e type ((s.objectsOf type).map (·.remote))
  | none => []

theorem pairwise_matched (s : Store) (e : DeleteEntry) :
    (s.matched e).Pairwise (compare · · = .lt) := by
  unfold matched
  split
  · exact pairwise_ascending _
  · exact .nil

theorem mem_matched_iff : id ∈ s.matched e ↔ e.Matches s id := by
  unfold matched DeleteEntry.Matches
  cases ConfigType.ofName? e.configType with
  | none => simp
  | some type => simp [matchingIds, DeleteEntry.names_iff, and_comm, and_assoc]

instance : Decidable (e.Matches s id) := decidable_of_iff _ mem_matched_iff

end Store

/-! ### One entry -/

/-- What is reported of an entry whose objects were deleted. -/
def DeleteOutcome.ofIds (ids : List String) : DeleteOutcome :=
  if ids = [] then .notFound else .deleted ids

theorem DeleteOutcome.deletedIds_ofIds (ids : List String) :
    DeleteResult.deletedIds ⟨e, .ofIds ids⟩ = ids := by
  unfold ofIds
  split
  · exact Eq.symm ‹_›
  · rfl

variable (policy type) in
/-- Of several objects those are deleted that are still there. -/
theorem deleteIds_store {ids : List String} (hnodup : ids.Nodup) (deleted : List String)
    (s : Store) :
    let run := deleteIds (Store.platform policy) type deleted ids s
    let found := ids.filter (· ∈ s.ids type.name)
    run.1 = .ofIds (deleted ++ found) ∧ s.Loses (ids.map (type.name, ·)) run.2 ∧
      run.2.deletes = s.deletes + found.length := by
  induction ids generalizing deleted s with
  | nil =>
    refine ⟨?_, .refl s, rfl⟩
    rw [List.filter_nil, List.append_nil]
    cases deleted <;> rfl
  | cons id rest ih =>
    obtain ⟨hnew, hrest⟩ := List.nodup_cons.1 hnodup
    have hfirst := Store.delete_deletion type id s
    have hfound : rest.filter (· ∈ (Store.delete type id s).2.ids type.name) =
        rest.filter (· ∈ s.ids type.name) := by
      apply List.filter_congr
      intro other hother
      have hne : other ≠ id := fun heq => hnew (heq ▸ hother)
      rw [decide_eq_decide, hfirst.loses.mem_ids_iff]
      simp [hne]
    have hhandle : (Store.platform policy).handle (.delete type id) s = Store.delete type id s :=
      rfl
    dsimp only
    rw [deleteIds_cons, hhandle]
    dsimp only
    by_cases hknown : id ∈ s.ids type.name
    · obtain ⟨hok, hdeletes⟩ := hfirst.known hknown
      obtain ⟨houtcome, hloses, hcount⟩ := ih hrest (deleted ++ [id]) (Store.delete type id s).2
      rw [hok, List.filter_cons_of_pos (by simpa using hknown)]
      dsimp only
      rw [hfound] at houtcome hcount
      refine ⟨?_, hfirst.loses.trans hloses, ?_⟩
      · rw [houtcome, List.append_assoc]
        rfl
      · rw [hcount, hdeletes, List.length_cons]
        omega
    · obtain ⟨herror, hdeletes⟩ := hfirst.unknown hknown
      obtain ⟨houtcome, hloses, hcount⟩ := ih hrest deleted (Store.delete type id s).2
      rw [herror, List.filter_cons_of_neg (by simpa using hknown)]
      dsimp only
      rw [hfound] at houtcome hcount
      rw [hdeletes] at hcount
      exact ⟨houtcome, hfirst.loses.trans hloses, hcount⟩

namespace Store

/-- The objects that an entry finds. -/
def named (s : Store) (e : DeleteEntry) : List (String × String) :=
  (s.matched e).map (e.configType, ·)

/-- What is reported of an entry when some objects are gone already. -/
def outcome (s : Store) (gone : List (String × String)) (e : DeleteEntry) : DeleteOutcome :=
  match ConfigType.ofName? e.configType with
  | some _ => .ofIds ((s.matched e).filter fun id => (e.configType, id) ∉ gone)
  | none => .unknownType

theorem mem_ids_of_matched (h : id ∈ s.matched e) : id ∈ s.ids e.configType := by
  obtain ⟨type, htype, o, ho, rfl, _⟩ := mem_matched_iff.1 h
  rw [ids_eq, ← (ConfigType.ofName?_eq_some htype).1]
  exact List.mem_map.2 ⟨o, ho, rfl⟩

theorem mem_flatMap_named {entries : List DeleteEntry} {name : String} :
    (name, id) ∈ entries.flatMap s.named ↔
      ∃ e ∈ entries, e.configType = name ∧ e.Matches s id := by
  simp only [named, List.mem_flatMap, List.mem_map, Prod.mk.injEq, mem_matched_iff]
  constructor
  · rintro ⟨e, he, _, hmatches, hname, rfl⟩
    exact ⟨e, he, hname, hmatches⟩
  · rintro ⟨e, he, hname, hmatches⟩
    exact ⟨e, he, id, hmatches, hname, rfl⟩

end Store

/-- The lists from the start of a run, as far as they concern one entry. -/
structure IsListed (s : Store) (types : SortedMap String ConfigType) (listings : Listings)
    (e : DeleteEntry) : Prop where
  type : types.get? e.configType = ConfigType.ofName? e.configType
  listing : ∀ type, ConfigType.ofName? e.configType = some type →
    listings.get? e.configType = some (.ok ((s.objectsOf type).map (·.remote)))

variable {types : SortedMap String ConfigType} {listings : Listings}

variable (policy) in
theorem deleteListed_store (hlisted : IsListed s types listings e) (h : s.Loses gone t) :
    let run := deleteListed (Store.platform policy) types listings e t
    run.1 = s.outcome gone e ∧ s.Loses (gone ++ s.named e) run.2 ∧
      run.2.deletes = t.deletes + (DeleteResult.deletedIds ⟨e, run.1⟩).length := by
  unfold deleteListed Store.outcome
  rw [hlisted.type]
  cases htype : ConfigType.ofName? e.configType with
  | none =>
    have hnone : s.named e = [] := by rw [Store.named, Store.matched, htype]; rfl
    rw [hnone, List.append_nil]
    exact ⟨rfl, h, rfl⟩
  | some type =>
    have hname := (ConfigType.ofName?_eq_some htype).1
    have hmatched : matchingIds e type ((s.objectsOf type).map (·.remote)) = s.matched e := by
      rw [Store.matched, htype]
    have hfound : (s.matched e).filter (· ∈ t.ids type.name) =
        (s.matched e).filter fun id => (e.configType, id) ∉ gone := by
      apply List.filter_congr
      intro id hid
      rw [decide_eq_decide, h.mem_ids_iff, hname]
      exact and_iff_right (Store.mem_ids_of_matched hid)
    obtain ⟨houtcome, hloses, hdeletes⟩ := deleteIds_store policy type
      (nodup_of_pairwise_lt (s.pairwise_matched e)) [] t
    rw [List.nil_append, hfound] at houtcome
    rw [hfound] at hdeletes
    rw [hname] at hloses
    have hrun : deleteEntry (Store.platform policy) e type ((s.objectsOf type).map (·.remote)) t =
        deleteIds (Store.platform policy) type [] (s.matched e) t := by
      rw [deleteEntry_run, hmatched]
      rfl
    rw [hlisted.listing type htype]
    dsimp only
    rw [hrun, houtcome, DeleteOutcome.deletedIds_ofIds]
    exact ⟨rfl, h.trans hloses, hdeletes⟩

/-! ### All entries -/

/-- What is reported of all entries. -/
def Store.results (s : Store) : List (String × String) → List DeleteEntry → List DeleteResult
  | _, [] => []
  | gone, e :: rest => ⟨e, s.outcome gone e⟩ :: s.results (gone ++ s.named e) rest

variable (policy) in
theorem deleteAll_store {entries : List DeleteEntry}
    (hlisted : ∀ e ∈ entries, IsListed s types listings e) (h : s.Loses gone t) :
    let run := deleteAll (Store.platform policy) types listings entries t
    run.1 = s.results gone entries ∧ s.Loses (gone ++ entries.flatMap s.named) run.2 ∧
      run.2.deletes = t.deletes + (DeleteReport.mk run.1).deletedCount := by
  induction entries generalizing gone t with
  | nil =>
    rw [List.flatMap_nil, List.append_nil]
    exact ⟨rfl, h, rfl⟩
  | cons e rest ih =>
    obtain ⟨he, hrest⟩ := List.forall_mem_cons.1 hlisted
    obtain ⟨houtcome, hloses, hdeletes⟩ := deleteListed_store policy he h
    obtain ⟨houtcomes, hloses', hdeletes'⟩ := ih hrest hloses
    rw [deleteAll_cons, List.flatMap_cons, ← List.append_assoc, Store.results, ← houtcome]
    refine ⟨congrArg _ houtcomes, hloses', ?_⟩
    rw [hdeletes', hdeletes, Nat.add_assoc]
    exact congrArg _ List.length_append.symm

theorem get?_results (s : Store) (gone : List (String × String)) (before : List DeleteEntry)
    (e : DeleteEntry) (after : List DeleteEntry) :
    (s.results gone (before ++ e :: after))[before.length]? =
      some ⟨e, s.outcome (gone ++ before.flatMap s.named) e⟩ := by
  induction before generalizing gone with
  | nil => rw [List.flatMap_nil, List.append_nil]; rfl
  | cons first rest ih =>
    rw [List.flatMap_cons, ← List.append_assoc]
    exact ih _

theorem map_entry_results (s : Store) (gone : List (String × String))
    (entries : List DeleteEntry) : (s.results gone entries).map (·.entry) = entries := by
  induction entries generalizing gone with
  | nil => rfl
  | cons e rest ih => exact congrArg _ (ih _)

/-! ### The lists at the start -/

theorem get?_knownTypes {entries : List DeleteEntry} (he : e ∈ entries) :
    (knownTypes entries).get? e.configType = ConfigType.ofName? e.configType := by
  cases hfound : (knownTypes entries).get? e.configType with
  | some type =>
    obtain ⟨other, _, hother⟩ := List.mem_filterMap.1 (SortedMap.mem_of_get?_ofList hfound)
    obtain ⟨_, htype, heq⟩ := Option.map_eq_some_iff.1 hother
    obtain ⟨hname, rfl⟩ := Prod.mk.inj heq
    exact (hname ▸ htype).symm
  | none =>
    cases htype : ConfigType.ofName? e.configType with
    | none => rfl
    | some type =>
      have hmem : (e.configType, type) ∈ entries.filterMap fun e =>
          (ConfigType.ofName? e.configType).map fun type => (e.configType, type) :=
        List.mem_filterMap.2 ⟨e, he, by rw [htype]; rfl⟩
      have hsome := SortedMap.isSome_get?_ofList (List.mem_map.2 ⟨_, hmem, rfl⟩)
      rw [knownTypes] at hfound
      rw [hfound] at hsome
      cases hsome

variable (policy) in
/-- To list changes nothing, and every type is listed under its name. -/
theorem listTypes_store (types : List (String × ConfigType)) (listings : Listings) (s : Store) :
    let run := listTypes (Store.platform policy) types listings s
    run.2 = s ∧ run.1.entries = (types.map fun p => (p.1, .ok ((s.objectsOf p.2).map (·.remote)))).foldl
      (fun entries p => Assoc.insert p.1 p.2 entries) listings.entries := by
  induction types generalizing listings with
  | nil => exact ⟨rfl, rfl⟩
  | cons p rest ih => exact ih _

variable (policy) in
theorem isListed_listTypes {entries : List DeleteEntry} (he : e ∈ entries) (s : Store) :
    IsListed s (knownTypes entries)
      (listTypes (Store.platform policy) (knownTypes entries).entries ∅ s).1 e where
  type := get?_knownTypes he
  listing type htype := by
    have hmem := SortedMap.mem_entries_iff.2 ((get?_knownTypes he).trans htype)
    rw [SortedMap.get?, (listTypes_store policy _ ∅ s).2]
    apply Assoc.get?_foldl_insert
    · rw [List.map_map]
      exact (knownTypes entries).nodup_keys
    · exact List.mem_map.2 ⟨_, hmem, rfl⟩

variable (policy) in
theorem deleteEntries_store (entries : List DeleteEntry) (s : Store) :
    let run := deleteEntries (Store.platform policy) entries s
    run.1.results = s.results [] entries ∧ s.Loses (entries.flatMap s.named) run.2 ∧
      run.2.deletes = s.deletes + run.1.deletedCount := by
  have hlisted : ∀ e ∈ entries, IsListed s (knownTypes entries)
      (listTypes (Store.platform policy) (knownTypes entries).entries ∅ s).1 e :=
    fun e he => isListed_listTypes policy he s
  obtain ⟨hstore, _⟩ := listTypes_store policy (knownTypes entries).entries ∅ s
  have hpoll : (Store.platform policy).poll s = (false, s) := rfl
  rw [deleteEntries_run, hpoll]
  dsimp only
  rw [if_neg Bool.false_ne_true, hstore]
  exact deleteAll_store policy hlisted (.refl s)

/-! ### The whole run -/

/-- What a run reports, and what it leaves of the store. -/
structure Removal (s : Store) (entries : List DeleteEntry) (report : DeleteReport) (t : Store) :
    Prop where
  inOrder : report.results.map (·.entry) = entries
  unknown : ∀ result ∈ report.results,
    result.outcome = .unknownType ↔ ConfigType.ofName? result.entry.configType = none
  /-- Every object is reported by the first entry that finds it. -/
  known : ∀ before e after, entries = before ++ e :: after →
    (ConfigType.ofName? e.configType).isSome → ∃ ids : List String,
      report.results[before.length]? = some ⟨e, if ids = [] then .notFound else .deleted ids⟩ ∧
      ids.Pairwise (compare · · = .lt) ∧
      ∀ id, id ∈ ids ↔ e.Matches s id ∧
        ∀ e' ∈ before, e'.configType = e.configType → ¬ e'.Matches s id
  objects : ∀ name, t.objects.get? name = (s.objects.get? name).map
    (·.filter fun o => ¬ ∃ e ∈ entries, e.configType = name ∧ e.Matches s o.remote.id)
  creates : t.creates = s.creates
  updates : t.updates = s.updates
  deletes : t.deletes = s.deletes + report.deletedCount
  size : s.size = t.size + report.deletedCount

theorem Store.outcome_eq_unknownType_iff :
    s.outcome gone e = .unknownType ↔ ConfigType.ofName? e.configType = none := by
  unfold outcome DeleteOutcome.ofIds
  cases ConfigType.ofName? e.configType with
  | none => simp
  | some type =>
    dsimp only
    split <;> simp

/-- Nothing fails. -/
theorem Store.outcome_ne_failed {error : PlatformError} : s.outcome gone e ≠ .failed error := by
  unfold outcome DeleteOutcome.ofIds
  cases ConfigType.ofName? e.configType with
  | none => simp
  | some type =>
    dsimp only
    split <;> simp

theorem exists_outcome_of_mem_results {entries : List DeleteEntry} {result : DeleteResult}
    (h : result ∈ s.results gone entries) :
    ∃ gone, result.outcome = s.outcome gone result.entry := by
  induction entries generalizing gone with
  | nil => cases h
  | cons e rest ih =>
    rcases List.mem_cons.1 h with rfl | h
    · exact ⟨gone, rfl⟩
    · exact ih h

variable (policy) in
theorem removal_deleteEntries (hids : ∀ name, (s.ids name).Nodup) (entries : List DeleteEntry) :
    let run := deleteEntries (Store.platform policy) entries s
    Removal s entries run.1 run.2 := by
  obtain ⟨hresults, hloses, hdeletes⟩ := deleteEntries_store policy entries s
  generalize deleteEntries (Store.platform policy) entries s = run at *
  refine ⟨?_, ?_, ?_, ?_, hloses.creates, hloses.updates, hdeletes, ?_⟩
  · rw [hresults]
    exact map_entry_results s [] entries
  · intro result hresult
    obtain ⟨gone, houtcome⟩ := exists_outcome_of_mem_results (hresults ▸ hresult)
    rw [houtcome]
    exact Store.outcome_eq_unknownType_iff
  · intro before e after hentries hknown
    obtain ⟨type, htype⟩ := Option.isSome_iff_exists.1 hknown
    refine ⟨(s.matched e).filter fun id => (e.configType, id) ∉ before.flatMap s.named, ?_, ?_, ?_⟩
    · rw [hresults, hentries, get?_results, Store.outcome, htype]
      rfl
    · exact (s.pairwise_matched e).filter _
    · intro id
      rw [List.mem_filter, Store.mem_matched_iff, decide_eq_true_eq, Store.mem_flatMap_named]
      simp only [not_exists, not_and]
  · intro name
    rw [hloses.objects]
    congr 1
    funext objects
    apply List.filter_congr
    intro o _
    rw [decide_eq_decide, Store.mem_flatMap_named]
  · have hcounted := hloses.counted hids
    omega

/-- What is left is determined by which entries there are. -/
theorem Removal.store_eq {entries others : List DeleteEntry} {report report' : DeleteReport}
    {t t' : Store} (h : Removal s entries report t) (h' : Removal s others report' t')
    (hsame : ∀ e, e ∈ others ↔ e ∈ entries) : t' = t := by
  have hobjects : t'.objects = t.objects := by
    apply SortedMap.ext_get?
    intro name
    rw [h'.objects, h.objects]
    simp only [hsame]
  have hsize : t'.size = t.size := by rw [Store.size, hobjects]; rfl
  have hdeletes : t'.deletes = t.deletes := by
    have hcount := h.size
    have hcount' := h'.size
    rw [h'.deletes, h.deletes]
    omega
  have hcreates := h'.creates.trans h.creates.symm
  have hupdates := h'.updates.trans h.updates.symm
  cases t
  cases t'
  cases hobjects
  cases hdeletes
  cases hcreates
  cases hupdates
  rfl

/-- A run removes just what its entries find and reports each removal once. What is left depends
neither on the order of the entries nor on repetitions. -/
theorem deleteEntries_removal (policy : StorePolicy) (s : Store)
    (hids : ∀ name, (s.ids name).Nodup) (entries : List DeleteEntry) :
    let run := deleteEntries (Store.platform policy) entries s
    Removal s entries run.1 run.2 ∧ ∀ others : List DeleteEntry, (∀ e, e ∈ others ↔ e ∈ entries) →
      (deleteEntries (Store.platform policy) others s).2 = run.2 :=
  ⟨removal_deleteEntries policy hids entries, fun others hsame =>
    (removal_deleteEntries policy hids entries).store_eq (removal_deleteEntries policy hids others)
      hsame⟩

/-! ### Objects that several entries find -/

namespace Shelf

def tags : ConfigType := .classicApi "auto-tag"

def store : Store :=
  ((Store.empty.seed tags ⟨"1", some "left", none⟩).seed tags ⟨"2", some "left", none⟩).seed tags
    ⟨"left", some "right", none⟩

def entries : List DeleteEntry :=
  [⟨"auto-tag", "2", none⟩, ⟨"auto-tag", "left", none⟩, ⟨"tags", "left", none⟩,
    ⟨"auto-tag", "right", some "shop"⟩]

theorem nodup_ids_store (name : String) : (store.ids name).Nodup := by
  by_cases hname : name = tags.name
  · subst hname
    decide +kernel
  · rw [Store.ids_eq, store, Store.seed, Store.seed, Store.seed]
    rw [Store.objectsUnder_setObjects, if_neg hname, Store.objectsUnder_setObjects, if_neg hname,
      Store.objectsUnder_setObjects, if_neg hname]
    exact List.nodup_nil

theorem cleared :
    let run := deleteEntries (Store.platform (.numbered [])) entries store
    (∀ name, (store.ids name).Nodup) ∧ Removal store entries run.1 run.2 ∧
      run.1.results.map (·.outcome) =
        [.deleted ["2"], .deleted ["1", "left"], .unknownType, .notFound] :=
  ⟨nodup_ids_store, (deleteEntries_removal (.numbered []) store nodup_ids_store entries).1,
    by decide +kernel⟩

end Shelf

end Rollout
