import Rollout.Ascending
import Rollout.Delete.Report

/-! Deleting the objects that entries name. The objects of each type are listed once, at the start;
the entries are then matched against these lists, and what they name is deleted.

The types and then the entries may be under way together, up to the concurrency that is asked for.
Here they are taken in order (`listTypes`, `deleteAll`), as happens with clients that answer without
suspending, so no run takes the concurrency. -/

namespace Rollout

/-- The id by which an entry with a project finds the object of a config. -/
def DeleteEntry.externalId? (e : DeleteEntry) : Option String :=
  e.project.map fun project => Coordinate.externalId ⟨project, e.configType, e.identifier⟩

/-- Whether an entry names an object: by the object's id, and for a classic API also by its name,
for other types by the external id. -/
def DeleteEntry.names (e : DeleteEntry) (type : ConfigType) (object : RemoteObject) : Bool :=
  object.id = e.identifier ||
    match type.kind with
    | .classicApi => object.name = some e.identifier
    | _ => e.externalId?.isSome && object.externalId = e.externalId?

/-- The ids of the listed objects that an entry names, ascending. -/
def matchingIds (e : DeleteEntry) (type : ConfigType) (existing : List RemoteObject) :
    List String :=
  ascending ((existing.filter (e.names type)).map (·.id))

/-- What was listed for the types of a run, by name. -/
abbrev Listings := SortedMap String (Except PlatformError (List RemoteObject))

section

variable {σ : Type} (P : Platform σ)

/-- The known types among the entries, by name. -/
def knownTypes (entries : List DeleteEntry) : SortedMap String ConfigType :=
  .ofList (entries.filterMap fun e =>
    (ConfigType.ofName? e.configType).map fun type => (e.configType, type))

/-- Lists the objects of types one after another. -/
def listTypes : List (String × ConfigType) → Listings → StateM σ Listings
  | [], listings => return listings
  | (name, type) :: rest, listings => do
    let outcome ← P.handle (.list type)
    listTypes rest (listings.insert name outcome)

/-- Deletes objects one after another, after those deleted before. An object that is gone by now is
passed over; any other error ends the entry. -/
def deleteIds (type : ConfigType) (deleted : List String) : List String → StateM σ DeleteOutcome
  | [] => return if deleted.isEmpty then .notFound else .deleted deleted
  | id :: rest => do
    match ← P.handle (.delete type id) with
    | .ok _ => deleteIds type (deleted ++ [id]) rest
    | .error e => if e.isNotFound then deleteIds type deleted rest else return .failed e

/-- Carries out an entry of a known type with a list of its objects. -/
def deleteEntry (e : DeleteEntry) (type : ConfigType) (existing : List RemoteObject) :
    StateM σ DeleteOutcome := do
  if ← P.poll then return .failed .cancelled
  deleteIds P type [] (matchingIds e type existing)

/-- Carries out an entry. A known type that was not listed means that the run was cancelled at its
start. -/
def deleteListed (types : SortedMap String ConfigType) (listings : Listings) (e : DeleteEntry) :
    StateM σ DeleteOutcome :=
  match types.get? e.configType, listings.get? e.configType with
  | some type, some (.ok existing) => deleteEntry P e type existing
  | some _, some (.error error) => return .failed error
  | some _, none => return .failed .cancelled
  | none, _ => return .unknownType

def deleteAll (types : SortedMap String ConfigType) (listings : Listings) :
    List DeleteEntry → StateM σ (List DeleteResult)
  | [] => return []
  | e :: rest => do
    let outcome ← deleteListed P types listings e
    let results ← deleteAll types listings rest
    return ⟨e, outcome⟩ :: results

/-- Deletes every object that one of the entries names. -/
def deleteEntries (entries : List DeleteEntry) : StateM σ DeleteReport := do
  let types := knownTypes entries
  let listings ← if ← P.poll then pure ∅ else listTypes P types.entries ∅
  return ⟨← deleteAll P types listings entries⟩

end

end Rollout
