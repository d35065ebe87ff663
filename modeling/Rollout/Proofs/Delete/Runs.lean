import Rollout.Delete.Run
import Rollout.Proofs.Platform.Traced

/-! A delete run step by step, and how it moves the state of its platform. -/

namespace Rollout

variable {σ τ : Type} {P : Platform σ} {P' : Platform τ} {π : τ → σ} {R : σ → σ → Prop}

/-- To list or to delete moves the state along `R`, and so does time. -/
structure Platform.Removes (P : Platform σ) (R : σ → σ → Prop) : Prop extends P.Idles R where
  list : ∀ type, Moves R (P.handle (.list type))
  delete : ∀ type id, Moves R (P.handle (.delete type id))

namespace Platform.Removes

variable (H : P.Removes R)

theorem traced (h : P.Removes R) : P.traced.Removes (Traced.Along R) where
  toIdles := h.toIdles.traced
  list type s := Traced.along_visit (h.list type s.now)
  delete type id s := Traced.along_visit (h.delete type id s.now)

include H

theorem listTypes (types : List (String × ConfigType)) (listings : Listings) :
    Moves R (listTypes P types listings) := by
  induction types generalizing listings with
  | nil => exact H.pure _
  | cons named rest ih => exact H.bind (H.list named.2) fun _ => ih _

theorem deleteIds (type : ConfigType) (deleted ids : List String) :
    Moves R (deleteIds P type deleted ids) := by
  induction ids generalizing deleted with
  | nil => exact H.pure _
  | cons id rest ih =>
    apply H.bind (H.delete type id)
    intro outcome
    cases outcome with
    | ok _ => exact ih _
    | error e =>
      dsimp only
      split
      · exact ih _
      · exact H.pure _

theorem deleteListed (types : SortedMap String ConfigType) (listings : Listings)
    (e : DeleteEntry) : Moves R (deleteListed P types listings e) := by
  unfold Rollout.deleteListed
  split
  · apply H.bind H.poll
    intro cancelled
    split
    · exact H.pure _
    · exact H.deleteIds _ _ _
  · exact H.pure _
  · exact H.pure _
  · exact H.pure _

theorem deleteAll (types : SortedMap String ConfigType) (listings : Listings)
    (entries : List DeleteEntry) : Moves R (deleteAll P types listings entries) := by
  induction entries with
  | nil => exact H.pure _
  | cons e rest ih => exact H.bind (H.deleteListed _ _ e) fun _ => H.bind ih fun _ => H.pure _

theorem deleteEntries (entries : List DeleteEntry) : Moves R (deleteEntries P entries) := by
  apply H.bind H.poll
  intro cancelled
  have hall : ∀ listings, Moves R (do
      let results ← Rollout.deleteAll P (knownTypes entries) listings entries
      return (⟨results⟩ : DeleteReport)) :=
    fun listings => H.bind (H.deleteAll _ listings entries) fun _ => H.pure _
  dsimp only
  split
  · exact H.bind (H.pure ∅) hall
  · exact H.bind (H.listTypes _ _) hall

end Platform.Removes

namespace Platform.Mirrors

variable (H : P'.Mirrors P π)

include H

theorem listTypes (types : List (String × ConfigType)) (listings : Listings) :
    Rollout.Mirrors π (listTypes P' types listings) (listTypes P types listings) := by
  induction types generalizing listings with
  | nil => exact .pure π _
  | cons named rest ih => exact (H.handle _).bind fun _ => ih _

theorem deleteIds (type : ConfigType) (deleted ids : List String) :
    Rollout.Mirrors π (deleteIds P' type deleted ids) (deleteIds P type deleted ids) := by
  induction ids generalizing deleted with
  | nil => exact .pure π _
  | cons id rest ih =>
    apply (H.handle _).bind
    intro outcome
    cases outcome with
    | ok _ => exact ih _
    | error e =>
      dsimp only
      split
      · exact ih _
      · exact .pure π _

theorem deleteListed (types : SortedMap String ConfigType) (listings : Listings)
    (e : DeleteEntry) :
    Rollout.Mirrors π (deleteListed P' types listings e) (deleteListed P types listings e) := by
  unfold Rollout.deleteListed
  split
  · apply H.poll.bind
    intro cancelled
    split
    · exact .pure π _
    · exact H.deleteIds _ _ _
  · exact .pure π _
  · exact .pure π _
  · exact .pure π _

theorem deleteAll (types : SortedMap String ConfigType) (listings : Listings)
    (entries : List DeleteEntry) :
    Rollout.Mirrors π (deleteAll P' types listings entries) (deleteAll P types listings entries) := by
  induction entries with
  | nil => exact .pure π _
  | cons e rest ih => exact (H.deleteListed _ _ e).bind fun _ => ih.bind fun _ => .pure π _

theorem deleteEntries (entries : List DeleteEntry) :
    Rollout.Mirrors π (deleteEntries P' entries) (deleteEntries P entries) := by
  apply H.poll.bind
  intro cancelled
  have hall : ∀ listings, Rollout.Mirrors π
      (do
        let results ← Rollout.deleteAll P' (knownTypes entries) listings entries
        return (⟨results⟩ : DeleteReport))
      (do
        let results ← Rollout.deleteAll P (knownTypes entries) listings entries
        return ⟨results⟩) :=
    fun listings => (H.deleteAll _ listings entries).bind fun _ => .pure π _
  dsimp only
  split
  · exact (Rollout.Mirrors.pure π ∅).bind hall
  · exact (H.listTypes _ _).bind hall

end Platform.Mirrors

/-! ### One step -/

theorem deleteIds_cons (type : ConfigType) (deleted : List String) (id : String)
    (rest : List String) (s : σ) :
    deleteIds P type deleted (id :: rest) s =
      let run := P.handle (.delete type id) s
      match run.1 with
      | .ok _ => deleteIds P type (deleted ++ [id]) rest run.2
      | .error e =>
        if e.isNotFound then deleteIds P type deleted rest run.2 else (.failed e, run.2) := by
  rw [deleteIds, bind_run]
  dsimp only
  cases (P.handle (.delete type id) s).1 with
  | ok _ => rfl
  | error e =>
    dsimp only
    split
    · rfl
    · rfl

theorem deleteEntry_run (e : DeleteEntry) (type : ConfigType) (existing : List RemoteObject)
    (s : σ) :
    deleteEntry P e type existing s =
      let polled := P.poll s
      if polled.1 then (.failed .cancelled, polled.2)
      else deleteIds P type [] (matchingIds e type existing) polled.2 := by
  rw [deleteEntry, bind_run]
  dsimp only
  split
  · rfl
  · rfl

theorem deleteAll_cons (types : SortedMap String ConfigType) (listings : Listings)
    (e : DeleteEntry) (rest : List DeleteEntry) (s : σ) :
    deleteAll P types listings (e :: rest) s =
      let first := deleteListed P types listings e s
      let later := deleteAll P types listings rest first.2
      (⟨e, first.1⟩ :: later.1, later.2) := rfl

theorem deleteEntries_run (entries : List DeleteEntry) (s : σ) :
    deleteEntries P entries s =
      let polled := P.poll s
      let listed := if polled.1 then (∅, polled.2)
        else listTypes P (knownTypes entries).entries ∅ polled.2
      let all := deleteAll P (knownTypes entries) listed.1 entries listed.2
      (⟨all.1⟩, all.2) := by
  rw [deleteEntries, bind_run]
  dsimp only
  split
  · rfl
  · rfl

end Rollout
