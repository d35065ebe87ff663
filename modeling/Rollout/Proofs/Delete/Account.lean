import Rollout.Delete.History
import Rollout.Proofs.Delete.Removal
import Rollout.Proofs.Deploy.Calls

/-! What a delete report tells of the deletions that were made. Every deletion is that of one entry,
and an entry that comes to its end reports all of its own. An entry that fails reports none, so the
report is complete just when no entry fails after it has deleted something. -/

namespace Rollout

variable {σ : Type} {P : Platform σ} {policy : StorePolicy} {view : σ → Store}
  {supervisor : Supervisor}

/-! ### Deletions -/

/-- The object that was deleted, by the name of its type and its id. -/
def Call.deletion? : Call → Option (String × String)
  | ⟨.delete type id, .ok _⟩ => some (type.name, id)
  | _ => none

def deletions (calls : List Call) : List (String × String) := calls.filterMap Call.deletion?

theorem deletions_append (calls calls' : List Call) :
    deletions (calls ++ calls') = deletions calls ++ deletions calls' := List.filterMap_append

/-- Further calls were made, and what they deleted is gone. -/
def Shrinks (view : σ → Store) (s t : Supervised σ) : Prop :=
  ∃ calls, t.calls = s.calls ++ calls ∧ (deletions calls).Nodup ∧
    (∀ o ∈ deletions calls, o.2 ∈ (view s.inner).ids o.1 ∧ o.2 ∉ (view t.inner).ids o.1) ∧
    ∀ name, (view t.inner).ids name ⊆ (view s.inner).ids name

theorem shrinks_of_view_eq {s t : Supervised σ} {calls : List Call}
    (hcalls : t.calls = s.calls ++ calls) (hnone : deletions calls = [])
    (hview : view t.inner = view s.inner) : Shrinks view s t := by
  refine ⟨calls, hcalls, hnone ▸ List.nodup_nil, fun o ho => ?_, fun name => ?_⟩
  · rw [hnone] at ho
    cases ho
  · rw [hview]
    exact List.Subset.refl _

theorem Shrinks.trans {s t u : Supervised σ} (h : Shrinks view s t) (h' : Shrinks view t u) :
    Shrinks view s u := by
  obtain ⟨calls, hcalls, hnodup, hgone, hids⟩ := h
  obtain ⟨calls', hcalls', hnodup', hgone', hids'⟩ := h'
  refine ⟨calls ++ calls', ?_, ?_, ?_, fun name id hid => hids name (hids' name hid)⟩
  · rw [hcalls', hcalls, List.append_assoc]
  · rw [deletions_append]
    refine List.nodup_append.2 ⟨hnodup, hnodup', ?_⟩
    rintro o ho _ ho' rfl
    exact (hgone o ho).2 (hgone' o ho').1
  · intro o ho
    rw [deletions_append] at ho
    rcases List.mem_append.1 ho with ho | ho
    · exact ⟨(hgone o ho).1, fun hmem => (hgone o ho).2 (hids' _ hmem)⟩
    · exact ⟨hids _ (hgone' o ho).1, (hgone' o ho).2⟩

theorem Store.Deletion.ids_subset {s : Store} {type : ConfigType} {id : String}
    {run : Except PlatformError Unit × Store} (h : s.Deletion type id run) (name : String) :
    run.2.ids name ⊆ s.ids name := fun _ hmem => (h.loses.mem_ids_iff.1 hmem).1

theorem Platform.Serves.removes_shrinks (hserves : P.Serves policy view) (supervisor : Supervisor) :
    (P.supervised supervisor).Removes (Shrinks view) where
  refl s := shrinks_of_view_eq (List.append_nil _).symm rfl rfl
  trans := Shrinks.trans
  elapse s := shrinks_of_view_eq (List.append_nil _).symm rfl (hserves.elapse s.inner)
  list type s := by
    refine shrinks_of_view_eq (calls_handle P supervisor _ s) rfl ?_
    exact (hserves.supervised supervisor).view_list type s
  delete type id s := by
    have hcalls := calls_handle P supervisor (.delete type id) s
    rcases (hserves.supervised supervisor).handle (.delete type id) s with
      ⟨hanswer, hview⟩ | ⟨⟨e, herror⟩, hview⟩
    · have hdeletion := Store.delete_deletion type id (view s.inner)
      dsimp only [Store.handle] at hanswer hview
      by_cases hknown : id ∈ (view s.inner).ids type.name
      · rw [hanswer, (hdeletion.known hknown).1] at hcalls
        refine ⟨_, hcalls, List.nodup_singleton _, ?_, fun name => hview ▸ hdeletion.ids_subset name⟩
        intro o ho
        rw [List.mem_singleton.1 ho, hview]
        refine ⟨hknown, fun hmem => ?_⟩
        exact (hdeletion.loses.mem_ids_iff.1 hmem).2 (List.mem_singleton_self _)
      · rw [hanswer, (hdeletion.unknown hknown).1] at hcalls
        refine ⟨_, hcalls, List.nodup_nil, fun o ho => ?_, fun name => hview ▸ hdeletion.ids_subset name⟩
        cases ho
    · rw [herror] at hcalls
      exact shrinks_of_view_eq hcalls rfl hview

/-! ### One entry -/

variable (P supervisor) in
/-- What is deleted is reported, unless a later deletion fails. -/
theorem deleteIds_calls (type : ConfigType) (deleted ids : List String) (s : Supervised σ) :
    let run := deleteIds (P.supervised supervisor) type deleted ids s
    ∃ calls removed, run.2.calls = s.calls ++ calls ∧
      deletions calls = removed.map (type.name, ·) ∧
      ((∃ e, run.1 = .failed e) ∨ run.1 = .ofIds (deleted ++ removed)) := by
  induction ids generalizing deleted s with
  | nil =>
    refine ⟨[], [], (List.append_nil _).symm, rfl, .inr ?_⟩
    rw [List.append_nil]
    cases deleted <;> rfl
  | cons id rest ih =>
    have hcall := calls_handle P supervisor (.delete type id) s
    rw [deleteIds_cons]
    dsimp only
    generalize (P.supervised supervisor).handle (.delete type id) s = run at *
    obtain ⟨answer, s₁⟩ := run
    cases answer with
    | ok _ =>
      obtain ⟨calls, removed, hcalls, hremoved, houtcome⟩ := ih (deleted ++ [id]) s₁
      refine ⟨⟨.delete type id, .ok ()⟩ :: calls, id :: removed, ?_, ?_, ?_⟩
      · rw [hcalls, hcall, List.append_assoc]
        rfl
      · exact congrArg ((type.name, id) :: ·) hremoved
      · rwa [List.append_assoc] at houtcome
    | error e =>
      dsimp only
      split
      · obtain ⟨calls, removed, hcalls, hremoved, houtcome⟩ := ih deleted s₁
        refine ⟨⟨.delete type id, .error e⟩ :: calls, removed, ?_, hremoved, houtcome⟩
        rw [hcalls, hcall, List.append_assoc]
        rfl
      · exact ⟨_, [], hcall, rfl, .inl ⟨e, rfl⟩⟩

/-- The objects that a result reports, by the name of their type and their id. -/
def DeleteResult.objects (r : DeleteResult) : List (String × String) :=
  r.deletedIds.map (r.entry.configType, ·)

namespace Clearing

/-- The calls made for an entry. -/
def calls (c : Clearing (Supervised σ)) : List Call := c.after.calls.drop c.before.calls.length

/-- The calls made for an entry come to what is reported of it, if it did not fail. -/
structure Fits (c : Clearing (Supervised σ)) : Prop where
  append : c.after.calls = c.before.calls ++ c.calls
  objects : c.result.isError = true ∨ deletions c.calls = c.result.objects

theorem fits_of_calls {c : Clearing (Supervised σ)} {calls : List Call}
    (happend : c.after.calls = c.before.calls ++ calls)
    (hobjects : c.result.isError = true ∨ deletions calls = c.result.objects) : c.Fits := by
  have hcalls : c.calls = calls := by rw [Clearing.calls, happend, List.drop_left]
  exact ⟨hcalls ▸ happend, hcalls ▸ hobjects⟩

end Clearing

variable (P supervisor) in
theorem clearing_fits {types : SortedMap String ConfigType} {e : DeleteEntry}
    (htypes : ∀ type, types.get? e.configType = some type → type.name = e.configType)
    (listings : Listings) (s : Supervised σ) :
    (clearing (P.supervised supervisor) types listings e s).Fits := by
  have hquiet : ∀ outcome, (DeleteResult.mk e outcome).objects = [] →
      Clearing.Fits ⟨⟨e, outcome⟩, s, s⟩ := fun outcome hnone =>
    Clearing.fits_of_calls (List.append_nil _).symm (.inr hnone.symm)
  unfold clearing deleteListed
  cases htype : types.get? e.configType with
  | none => exact hquiet .unknownType rfl
  | some type =>
    cases listings.get? e.configType with
    | none => exact hquiet (.failed .cancelled) rfl
    | some listing =>
      cases listing with
      | error error => exact hquiet (.failed error) rfl
      | ok existing =>
        dsimp only
        rw [deleteEntry_run]
        dsimp only
        split
        · exact Clearing.fits_of_calls (List.append_nil _).symm (.inl rfl)
        · obtain ⟨calls, removed, hcalls, hremoved, houtcome⟩ := deleteIds_calls P supervisor type []
            (matchingIds e type existing) ((P.supervised supervisor).poll s).2
          refine Clearing.fits_of_calls hcalls ?_
          dsimp only
          rcases houtcome with ⟨error, houtcome⟩ | houtcome
          · rw [houtcome]
            exact .inl rfl
          · rw [houtcome, List.nil_append, DeleteResult.objects, DeleteOutcome.deletedIds_ofIds,
              hremoved, htypes type htype]
            exact .inr rfl

/-! ### The whole run -/

theorem deleteAll_results (types : SortedMap String ConfigType) (listings : Listings)
    (entries : List DeleteEntry) (s : σ) :
    (deleteAll P types listings entries s).1 =
      (clearAll P types listings entries s).map (·.result) := by
  induction entries generalizing s with
  | nil => rfl
  | cons e rest ih => exact congrArg _ (ih _)

variable (P supervisor) in
theorem clearAll_fits {types : SortedMap String ConfigType} {entries : List DeleteEntry}
    (htypes : ∀ e ∈ entries, ∀ type, types.get? e.configType = some type → type.name = e.configType)
    (listings : Listings) (s : Supervised σ) :
    (∀ c ∈ clearAll (P.supervised supervisor) types listings entries s, c.Fits) ∧
      (deleteAll (P.supervised supervisor) types listings entries s).2.calls =
        s.calls ++ (clearAll (P.supervised supervisor) types listings entries s).flatMap
          Clearing.calls := by
  induction entries generalizing s with
  | nil => exact ⟨nofun, (List.append_nil _).symm⟩
  | cons e rest ih =>
    obtain ⟨he, hrest⟩ := List.forall_mem_cons.1 htypes
    have hfits := clearing_fits P supervisor he listings s
    obtain ⟨hothers, hcalls⟩ := ih hrest (clearing (P.supervised supervisor) types listings e s).after
    refine ⟨List.forall_mem_cons.2 ⟨hfits, hothers⟩, ?_⟩
    rw [clearAll, List.flatMap_cons, ← List.append_assoc]
    exact hfits.append ▸ hcalls

theorem listTypes_calls (types : List (String × ConfigType)) (listings : Listings)
    (s : Supervised σ) : ∃ calls,
    (listTypes (P.supervised supervisor) types listings s).2.calls = s.calls ++ calls ∧
      deletions calls = [] := by
  induction types generalizing listings s with
  | nil => exact ⟨[], (List.append_nil _).symm, rfl⟩
  | cons named rest ih =>
    have hcall := calls_handle P supervisor (.list named.2) s
    rw [listTypes, bind_run]
    generalize (P.supervised supervisor).handle (.list named.2) s = listed at *
    obtain ⟨calls, hcalls, hnone⟩ := ih (listings.insert named.1 listed.1) listed.2
    refine ⟨⟨.list named.2, listed.1⟩ :: calls, ?_, hnone⟩
    rw [hcalls, hcall, List.append_assoc]
    rfl

variable (P) in
theorem deleteEntries_listed (entries : List DeleteEntry) (s : σ) :
    deleteEntries P entries s =
      let listed := listedFor P entries s
      let all := deleteAll P (knownTypes entries) listed.1 entries listed.2
      (⟨all.1⟩, all.2) := deleteEntries_run entries s

variable (P supervisor) in
/-- The deletions of a run are those of its entries, in order, and its results are theirs. -/
theorem deleteEntries_clearings (entries : List DeleteEntry) (s : Supervised σ) :
    let run := deleteEntries (P.supervised supervisor) entries s
    let cs := clearings (P.supervised supervisor) entries s
    (∀ c ∈ cs, c.Fits) ∧ run.1.results = cs.map (·.result) ∧
      ∃ calls, run.2.calls = s.calls ++ calls ∧
        deletions calls = cs.flatMap fun c => deletions c.calls := by
  have hlisted : ∃ calls, (listedFor (P.supervised supervisor) entries s).2.calls =
      s.calls ++ calls ∧ deletions calls = [] := by
    unfold listedFor
    dsimp only
    split
    · exact ⟨[], (List.append_nil _).symm, rfl⟩
    · exact listTypes_calls _ _ _
  obtain ⟨calls, hcalls, hnone⟩ := hlisted
  have htypes : ∀ e ∈ entries, ∀ type, (knownTypes entries).get? e.configType = some type →
      type.name = e.configType := by
    intro e he type htype
    rw [get?_knownTypes he] at htype
    exact (ConfigType.ofName?_eq_some htype).1
  obtain ⟨hfits, happend⟩ := clearAll_fits P supervisor htypes
    (listedFor (P.supervised supervisor) entries s).1
    (listedFor (P.supervised supervisor) entries s).2
  rw [deleteEntries_listed]
  refine ⟨hfits, deleteAll_results _ _ _ _, calls ++
    (clearings (P.supervised supervisor) entries s).flatMap Clearing.calls, ?_, ?_⟩
  · exact happend.trans ((congrArg (· ++ _) hcalls).trans (List.append_assoc ..))
  · rw [deletions_append, hnone, List.nil_append, deletions, List.filterMap_flatMap]
    rfl

/-! ### What the report tells -/

/-- The report tells of every deletion once, and counts them right. -/
structure DeleteReport.Covers (r : DeleteReport) (deleted : List (String × String)) : Prop where
  once : ∀ o ∈ deleted,
    ∃! i : Nat, ∃ result : DeleteResult, r.results[i]? = some result ∧ o ∈ result.objects
  count : r.deletedCount = deleted.length

theorem DeleteReport.length_flatMap_objects (r : DeleteReport) :
    (r.results.flatMap DeleteResult.objects).length = r.deletedCount := by
  rw [deletedCount, deletedIds, List.length_flatMap, List.length_flatMap]
  simp only [DeleteResult.objects, List.length_map]

/-- What is listed without repetition stands in one of the lists. -/
theorem existsUnique_of_nodup_flatMap {α β : Type} {f : α → List β} {as : List α}
    (hnodup : (as.flatMap f).Nodup) {b : β} (hb : b ∈ as.flatMap f) :
    ∃! i : Nat, ∃ a, as[i]? = some a ∧ b ∈ f a := by
  obtain ⟨a, ha, hba⟩ := List.mem_flatMap.1 hb
  obtain ⟨i, hi⟩ := List.mem_iff_getElem?.1 ha
  refine ⟨i, ⟨a, hi, hba⟩, ?_⟩
  intro j hj
  obtain ⟨a', hj, hba'⟩ := hj
  obtain ⟨hilt, hia⟩ := List.getElem?_eq_some_iff.1 hi
  obtain ⟨hjlt, hja⟩ := List.getElem?_eq_some_iff.1 hj
  have hdisjoint := List.pairwise_iff_getElem.1 (List.nodup_flatMap.1 hnodup).2
  rcases Nat.lt_trichotomy i j with hlt | heq | hlt
  · exact absurd (hja ▸ hba') (hdisjoint i j hilt hjlt hlt (hia ▸ hba))
  · exact heq.symm
  · exact absurd (hia ▸ hba) (hdisjoint j i hjlt hilt hlt (hja ▸ hba'))

namespace Clearing

/-- What was deleted for entries that failed. -/
def unreported (cs : List (Clearing (Supervised σ))) : List (String × String) :=
  (cs.filter (·.result.isError)).flatMap fun c => deletions c.calls

theorem objects_of_isError {c : Clearing (Supervised σ)} (h : c.result.isError = true) :
    c.result.objects = [] := by
  unfold DeleteResult.isError at h
  unfold DeleteResult.objects DeleteResult.deletedIds
  cases houtcome : c.result.outcome with
  | failed error => rfl
  | deleted _ | notFound | unknownType =>
    rw [houtcome] at h
    cases h

/-- What was deleted is reported, or was deleted for an entry that failed. -/
theorem length_objects_add_unreported {cs : List (Clearing (Supervised σ))}
    (hfits : ∀ c ∈ cs, c.Fits) :
    ((cs.map (·.result)).flatMap DeleteResult.objects).length + (unreported cs).length =
      (cs.flatMap fun c => deletions c.calls).length := by
  induction cs with
  | nil => rfl
  | cons c rest ih =>
    obtain ⟨hc, hrest⟩ := List.forall_mem_cons.1 hfits
    have hothers := ih hrest
    unfold unreported at hothers ⊢
    simp only [List.map_cons, List.flatMap_cons, List.length_append]
    cases herror : c.result.isError with
    | true =>
      rw [objects_of_isError herror, List.filter_cons, if_pos herror, List.flatMap_cons,
        List.length_append, List.length_nil]
      omega
    | false =>
      rw [← hc.objects.resolve_left (by simp [herror]), List.filter_cons, if_neg (by simp [herror])]
      omega

/-- If nothing was deleted for entries that failed, the results tell of all deletions. -/
theorem flatMap_objects_eq {cs : List (Clearing (Supervised σ))} (hfits : ∀ c ∈ cs, c.Fits)
    (hnone : ∀ c ∈ cs, c.result.isError = true → deletions c.calls = []) :
    (cs.map (·.result)).flatMap DeleteResult.objects = cs.flatMap fun c => deletions c.calls := by
  rw [List.flatMap_map]
  apply List.flatMap_congr
  intro c hc
  rcases (hfits c hc).objects with herror | hobjects
  · rw [objects_of_isError herror, hnone c hc herror]
  · exact hobjects.symm

end Clearing

/-- The report is complete just when no entry fails after it has deleted something; what it leaves
out is what was deleted for such entries. -/
theorem deleteEntries_covers_iff (hserves : P.Serves policy view) (supervisor : Supervisor)
    (entries : List DeleteEntry) (s : σ) :
    let run := deleteEntries (P.supervised supervisor) entries (.start s)
    let cs := clearings (P.supervised supervisor) entries (.start s)
    run.1.results = cs.map (·.result) ∧
      run.1.deletedCount + (Clearing.unreported cs).length = (deletions run.2.calls).length ∧
      (run.1.Covers (deletions run.2.calls) ↔
        ∀ c ∈ cs, c.result.isError = true → deletions c.calls = []) := by
  intro run cs
  obtain ⟨hfits, hresults, calls, hcalls, hdeletions⟩ :=
    deleteEntries_clearings P supervisor entries (.start s)
  obtain ⟨_, hcalls', hnodup, _⟩ :=
    (hserves.removes_shrinks supervisor).deleteEntries entries (.start s)
  have hall : deletions run.2.calls = cs.flatMap fun c => deletions c.calls :=
    (congrArg deletions hcalls).trans hdeletions
  have hnodup' : (cs.flatMap fun c => deletions c.calls).Nodup := by
    rw [← hall]
    exact (congrArg (List.Nodup <| deletions ·) hcalls').mpr hnodup
  have hcount : run.1.deletedCount + (Clearing.unreported cs).length =
      (deletions run.2.calls).length := by
    rw [← DeleteReport.length_flatMap_objects, hall, hresults]
    exact Clearing.length_objects_add_unreported hfits
  refine ⟨hresults, hcount, ?_, ?_⟩
  · intro hcovers c hc herror
    have hlength := hcovers.count
    have hnone : Clearing.unreported cs = [] := List.length_eq_zero_iff.1 (by omega)
    exact List.flatMap_eq_nil_iff.1 hnone c (List.mem_filter.2 ⟨hc, herror⟩)
  · intro hnone
    have hobjects := Clearing.flatMap_objects_eq hfits hnone
    rw [hall, ← hobjects, ← hresults]
    refine ⟨fun o ho => ?_, (DeleteReport.length_flatMap_objects _).symm⟩
    refine existsUnique_of_nodup_flatMap ?_ ho
    rwa [hresults, hobjects]

/-! ### An object that cannot be deleted -/

namespace Shelf

def locked : Platform (Supervised Store) :=
  (Store.platform (.numbered [])).supervised fun _ =>
    FaultRule.combine [⟨.delete, some "2", ⟨false, some (.forbidden "locked")⟩⟩]

/-- The object of each entry is the only one that the entry finds. -/
def singly : List DeleteEntry :=
  [⟨"auto-tag", "2", none⟩, ⟨"auto-tag", "right", none⟩, ⟨"auto-tag", "1", none⟩]

theorem covered :
    let run := deleteEntries locked singly (.start store)
    (Store.platform (.numbered [])).Serves (.numbered []) id ∧
      run.1.results.map (·.outcome) =
        [.failed (.forbidden "locked"), .deleted ["left"], .deleted ["1"]] ∧
      run.1.Covers (deletions run.2.calls) := by
  have hserves := Store.serves (.numbered [])
  refine ⟨hserves, by decide +kernel, ?_⟩
  apply (deleteEntries_covers_iff hserves _ singly store).2.2.2
  decide +kernel

/-- One entry finds the objects `1`, `2` and `left`; the first one is deleted, the second one cannot
be, and the report tells of none. -/
theorem not_covered :
    let run := deleteEntries locked [⟨"auto-tag", "left", none⟩] (.start store)
    deletions run.2.calls = [("auto-tag", "1")] ∧
      run.1.results.map (·.outcome) = [.failed (.forbidden "locked")] ∧ run.1.deletedCount = 0 ∧
      ¬ run.1.Covers (deletions run.2.calls) := by
  have hdeleted : deletions (deleteEntries locked [⟨"auto-tag", "left", none⟩]
      (.start store)).2.calls = [("auto-tag", "1")] := by decide +kernel
  have hcount : (deleteEntries locked [⟨"auto-tag", "left", none⟩]
      (.start store)).1.deletedCount = 0 := by decide +kernel
  refine ⟨hdeleted, by decide +kernel, hcount, fun hcovers => ?_⟩
  have hlength := hcovers.count
  rw [hdeleted, hcount] at hlength
  cases hlength

end Shelf

end Rollout
