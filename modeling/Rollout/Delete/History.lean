import Rollout.Delete.Run

/-! The history of a delete run: every entry, with what became of it and of the platform. -/

namespace Rollout

/-- One entry that was carried out. -/
structure Clearing (σ : Type) where
  result : DeleteResult
  before : σ
  after : σ

section

variable {σ : Type} (P : Platform σ)

def clearing (types : SortedMap String ConfigType) (listings : Listings) (e : DeleteEntry) (s : σ) :
    Clearing σ :=
  let run := deleteListed P types listings e s
  ⟨⟨e, run.1⟩, s, run.2⟩

/-- The clearings of `deleteAll`. -/
def clearAll (types : SortedMap String ConfigType) (listings : Listings) :
    List DeleteEntry → σ → List (Clearing σ)
  | [], _ => []
  | e :: rest, s =>
    let c := clearing P types listings e s
    c :: clearAll types listings rest c.after

/-- What `deleteEntries` lists before it deletes anything. -/
def listedFor (entries : List DeleteEntry) (s : σ) : Listings × σ :=
  let polled := P.poll s
  if polled.1 then (∅, polled.2) else listTypes P (knownTypes entries).entries ∅ polled.2

/-- The clearings of `deleteEntries`. -/
def clearings (entries : List DeleteEntry) (s : σ) : List (Clearing σ) :=
  let listed := listedFor P entries s
  clearAll P (knownTypes entries) listed.1 entries listed.2

end

end Rollout
