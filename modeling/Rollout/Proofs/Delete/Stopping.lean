import Rollout.Proofs.Delete.Account
import Rollout.Proofs.Deploy.Stopping

/-! Delete runs that are told to stop. The entry during which the flag is set is carried out to its
end, as are those before it; for the entries behind it nothing is asked of the platform any more. -/

namespace Rollout

variable {σ : Type} {P : Platform σ} {types : SortedMap String ConfigType} {listings : Listings}
  {entries : List DeleteEntry} {e : DeleteEntry} {s : σ}

/-! ### Before the flag is set -/

theorem listTypes_unstoppable (types : List (String × ConfigType)) (listings : Listings) (s : σ) :
    listTypes P.unstoppable types listings s = listTypes P types listings s := by
  induction types generalizing listings s with
  | nil => rfl
  | cons named rest ih => exact ih _ _

theorem deleteIds_unstoppable (type : ConfigType) (deleted ids : List String) (s : σ) :
    deleteIds P.unstoppable type deleted ids s = deleteIds P type deleted ids s := by
  induction ids generalizing deleted s with
  | nil => rfl
  | cons id rest ih =>
    rw [deleteIds_cons, deleteIds_cons]
    simp only [ih]
    rfl

/-- What is listed is the same unless the flag is set at the start. -/
theorem listedFor_of_unseen (h : (P.poll s).1 = false) (entries : List DeleteEntry) :
    listedFor P entries s = listedFor P.unstoppable entries s := by
  have hunseen : (P.unstoppable.poll s).1 = false := rfl
  rw [listedFor, listedFor, h, hunseen]
  exact (listTypes_unstoppable _ _ _).symm

/-- An entry for which the flag is not seen, or after which it is not set. -/
theorem deleteListed_of_unset
    (h : (P.poll s).1 = false ∨ P.isCancelled (deleteListed P types listings e s).2 = false) :
    deleteListed P types listings e s = deleteListed P.unstoppable types listings e s := by
  unfold deleteListed at h ⊢
  cases htype : types.get? e.configType with
  | none => rfl
  | some type =>
    rw [htype] at h
    cases hlisting : listings.get? e.configType with
    | none => rfl
    | some listing =>
      rw [hlisting] at h
      cases listing with
      | error error => rfl
      | ok existing =>
        dsimp only at h ⊢
        rw [deleteEntry_run] at h
        rw [deleteEntry_run, deleteEntry_run]
        dsimp only at h ⊢
        cases hseen : (P.poll s).1 with
        | false => exact (deleteIds_unstoppable ..).symm
        | true =>
          rw [hseen] at h
          cases hseen.symm.trans (h.resolve_left (by simp))

/-! ### After the flag is set -/

/-- What an entry comes to that is reached when the flag is set, by what was listed of its type. -/
def DeleteEntry.stoppedOutcome (e : DeleteEntry) (listings : Listings) : DeleteOutcome :=
  match ConfigType.ofName? e.configType, listings.get? e.configType with
  | none, _ => .unknownType
  | some _, some (.error error) => .failed error
  | some _, _ => .failed .cancelled

/-- An entry for which the flag would be seen. -/
theorem deleteListed_of_seen (htype : types.get? e.configType = ConfigType.ofName? e.configType)
    (hseen : (P.poll s).1 = true) (listings : Listings) :
    let run := deleteListed P types listings e s
    run.1 = e.stoppedOutcome listings ∧ P.Idle s run.2 ∧ (P.poll run.2).1 = true := by
  unfold deleteListed DeleteEntry.stoppedOutcome
  rw [htype]
  cases ConfigType.ofName? e.configType with
  | none => exact ⟨rfl, .refl, hseen⟩
  | some type =>
    cases listings.get? e.configType with
    | none => exact ⟨rfl, .refl, hseen⟩
    | some listing =>
      cases listing with
      | error error => exact ⟨rfl, .refl, hseen⟩
      | ok existing =>
        dsimp only
        rw [deleteEntry_run]
        dsimp only
        rw [if_pos hseen]
        exact ⟨rfl, .single rfl, P.isCancelled_elapse _ hseen⟩

/-- Nothing is asked of the platform for entries that are reached when the flag is set. -/
theorem clearAll_of_seen
    (htypes : ∀ e ∈ entries, types.get? e.configType = ConfigType.ofName? e.configType)
    (hseen : (P.poll s).1 = true) (listings : Listings) :
    (∀ c ∈ clearAll P types listings entries s,
      c.result.outcome = c.result.entry.stoppedOutcome listings) ∧
      P.Idle s (deleteAll P types listings entries s).2 := by
  induction entries generalizing s with
  | nil => exact ⟨nofun, .refl⟩
  | cons e rest ih =>
    obtain ⟨he, hrest⟩ := List.forall_mem_cons.1 htypes
    obtain ⟨houtcome, hidle, hstill⟩ := deleteListed_of_seen he hseen listings
    obtain ⟨houtcomes, hidle'⟩ := ih hrest hstill
    exact ⟨List.forall_mem_cons.2 ⟨houtcome, houtcomes⟩, hidle.trans hidle'⟩

/-! ### While the flag is set -/

/-- A run that is cut short next to the ordinary one: what was `done` by then went as usual, and for
what is `left` the listings decide. -/
structure CutShort (listings : Listings) (cs ordinary done left : List (Clearing σ)) : Prop where
  clearings : cs = done ++ left
  shared : ∃ rest, ordinary = done ++ rest
  left : ∀ c ∈ left, c.result.outcome = c.result.entry.stoppedOutcome listings

theorem CutShort.cons {cs ordinary done left : List (Clearing σ)}
    (h : CutShort listings cs ordinary done left) (c : Clearing σ) :
    CutShort listings (c :: cs) (c :: ordinary) (c :: done) left where
  clearings := congrArg _ h.clearings
  shared := by
    obtain ⟨rest, hshared⟩ := h.shared
    exact ⟨rest, congrArg _ hshared⟩
  left := h.left

/-- The flag stays set during a delete run. -/
theorem Platform.removes_isCancelled (P : Platform σ) :
    P.Removes fun s t => P.isCancelled s → P.isCancelled t where
  toIdles := P.keeps_isCancelled.toIdles
  list _ := P.keeps_isCancelled.handle _
  delete _ _ := P.keeps_isCancelled.handle _

theorem clearing_of_unset
    (h : (P.poll s).1 = false ∨ P.isCancelled (clearing P types listings e s).after = false) :
    clearing P types listings e s = clearing P.unstoppable types listings e s := by
  rw [clearing, clearing, ← deleteListed_of_unset h]

/-- A flag that is not set when an entry is reached was not set before. -/
theorem unset_of_mem_clearAll {c : Clearing σ} (hc : c ∈ clearAll P types listings entries s)
    (hunset : P.isCancelled c.before = false) : P.isCancelled s = false := by
  induction entries generalizing s with
  | nil => cases hc
  | cons e rest ih =>
    rcases List.mem_cons.1 hc with rfl | hc
    · exact hunset
    · exact Platform.unset_of_moves (P.removes_isCancelled.deleteListed types listings e) (ih hc)

/-- The entry during which the flag is set is the last one that is carried out. If the flag is seen
before anything is done for it, it is the first one that is not. -/
theorem clearAll_cutShort
    (htypes : ∀ e ∈ entries, types.get? e.configType = ConfigType.ofName? e.configType)
    {before after : List (Clearing σ)} {c : Clearing σ}
    (hsplit : clearAll P types listings entries s = before ++ c :: after)
    (hunset : P.isCancelled c.before = false) (hset : P.isCancelled c.after = true) :
    let cs := clearAll P types listings entries s
    let ordinary := clearAll P.unstoppable types listings entries s
    let last := (deleteAll P types listings entries s).2
    if (P.poll c.before).1 then
      CutShort listings cs ordinary before (c :: after) ∧ P.Idle c.before last
    else CutShort listings cs ordinary (before ++ [c]) after ∧ P.Idle c.after last := by
  induction entries generalizing s before with
  | nil => cases before <;> cases hsplit
  | cons e rest ih =>
    obtain ⟨he, hrest⟩ := List.forall_mem_cons.1 htypes
    cases before with
    | nil =>
      obtain ⟨rfl, rfl⟩ := List.cons.inj hsplit
      dsimp only
      split
      · rename_i hseen
        obtain ⟨hstopped, hidle⟩ := clearAll_of_seen htypes hseen listings
        exact ⟨⟨rfl, ⟨_, rfl⟩, hstopped⟩, hidle⟩
      · rename_i hunseen
        obtain ⟨hstopped, hidle⟩ := clearAll_of_seen hrest (P.isCancelled_elapse _ hset) listings
        have hsame : clearing P types listings e s = clearing P.unstoppable types listings e s :=
          clearing_of_unset (.inl (Bool.not_eq_true _ ▸ hunseen))
        exact ⟨⟨rfl, ⟨_, congrArg (· :: _) hsame.symm⟩, hstopped⟩, hidle⟩
    | cons b before =>
      obtain ⟨rfl, htail⟩ := List.cons.inj hsplit
      have hc : c ∈ clearAll P types listings rest (clearing P types listings e s).after :=
        htail ▸ List.mem_append_right _ List.mem_cons_self
      have hsame := clearing_of_unset (.inr (unset_of_mem_clearAll hc hunset))
      have hlater := ih hrest htail
      dsimp only at hlater ⊢
      rw [clearAll, clearAll, ← hsame]
      split
      · rename_i hseen
        rw [if_pos hseen] at hlater
        exact ⟨hlater.1.cons _, hlater.2⟩
      · rename_i hunseen
        rw [if_neg hunseen] at hlater
        exact ⟨hlater.1.cons _, hlater.2⟩

/-- If the flag is set by the end, it was set during one of the entries. -/
theorem exists_set_of_clearAll (hs : P.isCancelled s = false)
    (ht : P.isCancelled (deleteAll P types listings entries s).2 = true) :
    ∃ c ∈ clearAll P types listings entries s,
      P.isCancelled c.before = false ∧ P.isCancelled c.after = true := by
  induction entries generalizing s with
  | nil => cases hs.symm.trans ht
  | cons e rest ih =>
    cases hafter : P.isCancelled (clearing P types listings e s).after with
    | true => exact ⟨_, List.mem_cons_self, hs, hafter⟩
    | false =>
      obtain ⟨c, hc, hset⟩ := ih hafter ht
      exact ⟨c, List.mem_cons_of_mem _ hc, hset⟩

/-- Entries that end without the flag set. -/
theorem deleteAll_of_unset
    (ht : P.isCancelled (deleteAll P types listings entries s).2 = false) :
    deleteAll P types listings entries s = deleteAll P.unstoppable types listings entries s := by
  induction entries generalizing s with
  | nil => rfl
  | cons e rest ih =>
    have hafter := Platform.unset_of_moves (P.removes_isCancelled.deleteAll types listings rest) ht
    rw [deleteAll_cons, deleteAll_cons, ← deleteListed_of_unset (.inr hafter)]
    dsimp only
    rw [ih (s := (deleteListed P types listings e s).2) ht]

theorem map_entry_clearAll (types : SortedMap String ConfigType) (listings : Listings)
    (entries : List DeleteEntry) (s : σ) :
    (clearAll P types listings entries s).map (·.result.entry) = entries := by
  induction entries generalizing s with
  | nil => rfl
  | cons e rest ih => exact congrArg _ (ih _)

/-! ### The whole run -/

variable (P) in
theorem deleteEntries_results (entries : List DeleteEntry) (s : σ) :
    (deleteEntries P entries s).1.results = (clearings P entries s).map (·.result) := by
  rw [deleteEntries_listed]
  exact deleteAll_results _ _ _ _

/-- If the flag is seen at the start, nothing is listed. -/
theorem listedFor_of_seen (h : (P.poll s).1 = true) (entries : List DeleteEntry) :
    listedFor P entries s = (∅, (P.poll s).2) := by
  rw [listedFor, h]
  rfl

theorem unseen_of_listedFor (h : P.isCancelled (listedFor P entries s).2 = false) :
    (P.poll s).1 = false := by
  by_contra hseen
  rw [Bool.not_eq_false] at hseen
  rw [listedFor_of_seen hseen] at h
  cases hseen.symm.trans h

theorem deleteEntries_of_unset (ht : P.isCancelled (deleteEntries P entries s).2 = false) :
    deleteEntries P entries s = deleteEntries P.unstoppable entries s := by
  rw [deleteEntries_listed] at ht
  have hlisted : P.isCancelled (listedFor P entries s).2 = false :=
    Platform.unset_of_moves (P.removes_isCancelled.deleteAll _ _ _) ht
  rw [deleteEntries_listed, deleteEntries_listed,
    ← listedFor_of_unseen (unseen_of_listedFor hlisted)]
  dsimp only
  rw [deleteAll_of_unset ht]

/-- However the platform behaves and whenever the flag is set, every entry has its outcome, in order.
If the flag is set at the start, nothing is asked of the platform. If it is set while the types are
listed, nothing is asked of it from then on, and if it is set during the deletions for an entry, the
run is the one without the flag up to the end of this entry and makes no calls later. -/
theorem deleteEntries_stops (P : Platform σ) (supervisor : Supervisor)
    (entries : List DeleteEntry) (s : Supervised σ) :
    let Q := P.supervised supervisor
    let run := deleteEntries Q entries s
    let ordinary := deleteEntries Q.unstoppable entries s
    let listed := listedFor Q entries s
    let cs := clearings Q entries s
    let ordinaryCs := clearings Q.unstoppable entries s
    cs.map (·.result.entry) = entries ∧ run.1.results = cs.map (·.result) ∧
      ordinary.1.results = ordinaryCs.map (·.result) ∧
      ((Q.poll s).1 = true → run.2.calls = s.calls ∧
        ∀ c ∈ cs, c.result.outcome = c.result.entry.stoppedOutcome ∅) ∧
      ((Q.poll s).1 = false → Q.isCancelled listed.2 = true → run.2.calls = listed.2.calls ∧
        ∀ c ∈ cs, c.result.outcome = c.result.entry.stoppedOutcome listed.1) ∧
      (∀ before c after, cs = before ++ c :: after → Q.isCancelled c.before = false →
        Q.isCancelled c.after = true →
        if (Q.poll c.before).1 then
          CutShort listed.1 cs ordinaryCs before (c :: after) ∧ run.2.calls = c.before.calls
        else
          CutShort listed.1 cs ordinaryCs (before ++ [c]) after ∧ run.2.calls = c.after.calls) ∧
      (Q.isCancelled run.2 = true → (Q.poll s).1 = true ∨ Q.isCancelled listed.2 = true ∨
        ∃ c ∈ cs, Q.isCancelled c.before = false ∧ Q.isCancelled c.after = true) ∧
      (Q.isCancelled run.2 = false → run = ordinary) := by
  intro Q run ordinary listed cs ordinaryCs
  have htypes : ∀ e ∈ entries,
      (knownTypes entries).get? e.configType = ConfigType.ofName? e.configType :=
    fun _ => get?_knownTypes
  have hlast : run.2 = (deleteAll Q (knownTypes entries) listed.1 entries listed.2).2 :=
    congrArg Prod.snd (deleteEntries_listed Q entries s)
  have hcalls : ∀ {t u : Supervised σ}, Q.Idle t u → u.calls = t.calls := idles_calls.of_idle
  refine ⟨map_entry_clearAll _ _ _ _, deleteEntries_results Q entries s,
    deleteEntries_results Q.unstoppable entries s, ?_, ?_, ?_, ?_, deleteEntries_of_unset⟩
  · intro hseen
    have hlisted : listed = (∅, (Q.poll s).2) := listedFor_of_seen hseen entries
    have hstill : (Q.poll listed.2).1 = true := by
      rw [hlisted]
      exact Q.isCancelled_elapse _ hseen
    obtain ⟨hstopped, hidle⟩ := clearAll_of_seen htypes hstill listed.1
    rw [← hlast] at hidle
    refine ⟨(hcalls hidle).trans (by rw [hlisted]; rfl), fun c hc => ?_⟩
    rw [hstopped c hc, hlisted]
  · intro _ hset
    have hstill : (Q.poll listed.2).1 = true := Q.isCancelled_elapse _ hset
    obtain ⟨hstopped, hidle⟩ := clearAll_of_seen htypes hstill listed.1
    rw [← hlast] at hidle
    exact ⟨hcalls hidle, hstopped⟩
  · intro before c after hsplit hunset hset
    have hc : c ∈ cs := hsplit ▸ List.mem_append_right _ List.mem_cons_self
    have hordinary : listedFor Q.unstoppable entries s = listed :=
      (listedFor_of_unseen (unseen_of_listedFor (unset_of_mem_clearAll hc hunset)) entries).symm
    have hcut := clearAll_cutShort htypes hsplit hunset hset
    have hordinaryCs : ordinaryCs = clearAll Q.unstoppable (knownTypes entries) listed.1 entries
        listed.2 := by
      rw [← hordinary]
      rfl
    dsimp only at hcut
    rw [← hlast, ← hordinaryCs] at hcut
    split
    · rename_i hseen
      rw [if_pos hseen] at hcut
      exact hcut.imp_right hcalls
    · rename_i hunseen
      rw [if_neg hunseen] at hcut
      exact hcut.imp_right hcalls
  · intro ht
    cases hlisted : Q.isCancelled listed.2 with
    | true => exact .inr (.inl rfl)
    | false => exact .inr (.inr (exists_set_of_clearAll hlisted (hlast ▸ ht)))

/-! ### The flag is set while the first of three objects is deleted -/

namespace Shelf

/-- Sets the flag when the object `1` is deleted. One of the types cannot be listed. -/
def stopsAtFirst : Supervisor := fun _ =>
  FaultRule.combine [⟨.delete, some "1", ⟨true, none⟩⟩,
    ⟨.list, some "slo", ⟨false, some (.transport "down")⟩⟩]

def stopping : Platform (Supervised Store) :=
  (Store.platform (.numbered [])).supervised stopsAtFirst

def picked : List DeleteEntry :=
  [⟨"auto-tag", "absent", none⟩, ⟨"auto-tag", "left", none⟩, ⟨"tags", "left", none⟩,
    ⟨"slo", "left", none⟩, ⟨"auto-tag", "right", none⟩]

theorem stopped_at_first :
    let run := deleteEntries stopping picked (.start store)
    let cs := clearings stopping picked (.start store)
    run.1.results.map (·.outcome) = [.notFound, .deleted ["1", "2", "left"], .unknownType,
        .failed (.transport "down"), .failed .cancelled] ∧
      ∃ before c after, c.result.entry = ⟨"auto-tag", "left", none⟩ ∧
        CutShort (listedFor stopping picked (.start store)).1 cs
          (clearings stopping.unstoppable picked (.start store)) (before ++ [c]) after ∧
        run.2.calls = c.after.calls := by
  have houtcomes : (deleteEntries stopping picked (.start store)).1.results.map (·.outcome) =
      [.notFound, .deleted ["1", "2", "left"], .unknownType, .failed (.transport "down"),
        .failed .cancelled] := by decide +kernel
  have hflags : ((clearings stopping picked (.start store))[1]?).map (fun c =>
      (stopping.isCancelled c.before, stopping.isCancelled c.after, (stopping.poll c.before).1)) =
      some (false, true, false) := by decide +kernel
  have hstops := deleteEntries_stops (Store.platform (.numbered [])) stopsAtFirst picked
    (.start store)
  dsimp only at hstops ⊢
  rw [← stopping] at hstops
  refine ⟨houtcomes, ?_⟩
  revert hflags hstops
  generalize deleteEntries stopping picked (.start store) = run,
    clearings stopping picked (.start store) = cs
  intro hflags hstops
  obtain ⟨hentries, -, -, -, -, hcut, -⟩ := hstops
  obtain ⟨b, rest, rfl, -, hrest⟩ := List.map_eq_cons_iff.1 hentries
  obtain ⟨c, after, rfl, hc, -⟩ := List.map_eq_cons_iff.1 hrest
  obtain ⟨hbefore, hflags⟩ := Prod.mk.inj (Option.some.inj hflags)
  obtain ⟨hafter, hunseen⟩ := Prod.mk.inj hflags
  have hstopped := hcut [b] c after rfl hbefore hafter
  rw [hunseen, if_neg Bool.false_ne_true] at hstopped
  exact ⟨[b], c, after, hc, hstopped⟩

end Shelf

end Rollout
