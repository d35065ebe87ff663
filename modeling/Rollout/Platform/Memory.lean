import Rollout.Platform.Basic

/-! A platform that keeps its objects in memory, for each type in the order of their creation. -/

namespace Rollout

structure StoredObject where
  remote : RemoteObject
  scope : Option String
  content : String
deriving DecidableEq

/-- The objects of a platform, and how many requests of each kind it has carried out. -/
structure Store where
  objects : SortedMap String (List StoredObject)
  creates : Nat
  updates : Nat
  deletes : Nat
deriving DecidableEq

/-- How a store treats requests. -/
structure StorePolicy where
  /-- No object may be given one of these names. -/
  rejectedNames : List String
  /-- The id of the object that is created after so many others. -/
  newId : Nat → String

namespace Store

def empty : Store := ⟨∅, 0, 0, 0⟩

/-- The objects of a type. -/
def objectsOf (s : Store) (type : ConfigType) : List StoredObject :=
  (s.objects.get? type.name).getD []

def setObjects (s : Store) (type : ConfigType) (objects : List StoredObject) : Store :=
  { s with objects := s.objects.insert type.name objects }

/-- Adds an object that was there before. -/
def seed (s : Store) (type : ConfigType) (remote : RemoteObject) : Store :=
  s.setObjects type (s.objectsOf type ++ [⟨remote, none, ""⟩])

/-- A store with some objects that were there before. -/
def stocked (seeds : List (ConfigType × RemoteObject)) : Store :=
  seeds.foldl (fun s p => s.seed p.1 p.2) empty

def unknownObject (type : ConfigType) (id : String) : PlatformError :=
  .notFound (type.name ++ " object " ++ id)

/-- Why a payload is refused whatever the store holds. -/
def rejection? (policy : StorePolicy) (payload : Payload) : Option PlatformError :=
  match payload.name with
  | some name =>
    if policy.rejectedNames.contains name then
      some (.invalidInput ("object '" ++ name ++ "' was rejected by the platform"))
    else none
  | none => none

def create (policy : StorePolicy) (type : ConfigType) (payload : Payload) (s : Store) :
    Except PlatformError String × Store :=
  match rejection? policy payload with
  | some e => (.error e, s)
  | none =>
    let id := policy.newId s.creates
    let object : StoredObject :=
      ⟨⟨id, payload.name, some payload.externalId⟩, payload.scope, payload.content⟩
    (.ok id, { s.setObjects type (s.objectsOf type ++ [object]) with creates := s.creates + 1 })

/-- An object after an update. It keeps its name if the payload has none. -/
def updated (payload : Payload) (object : StoredObject) : StoredObject :=
  ⟨⟨object.remote.id, payload.name.or object.remote.name, some payload.externalId⟩,
    payload.scope, payload.content⟩

/-- Changes the first object with an id. -/
def updateFirst? (id : String) (payload : Payload) : List StoredObject → Option (List StoredObject)
  | [] => none
  | object :: rest =>
    if object.remote.id = id then some (updated payload object :: rest)
    else (updateFirst? id payload rest).map (object :: ·)

def update (policy : StorePolicy) (type : ConfigType) (id : String) (payload : Payload)
    (s : Store) : Except PlatformError Unit × Store :=
  match rejection? policy payload with
  | some e => (.error e, s)
  | none =>
    match updateFirst? id payload (s.objectsOf type) with
    | some objects => (.ok (), { s.setObjects type objects with updates := s.updates + 1 })
    | none => (.error (unknownObject type id), s)

def delete (type : ConfigType) (id : String) (s : Store) : Except PlatformError Unit × Store :=
  let objects := s.objectsOf type
  let kept := objects.filter (·.remote.id ≠ id)
  if kept.length = objects.length then (.error (unknownObject type id), s)
  else (.ok (), { s.setObjects type kept with deletes := s.deletes + 1 })

def handle (policy : StorePolicy) : (r : Request) → StateM Store r.Outcome
  | .list type => fun s => (.ok ((s.objectsOf type).map (·.remote)), s)
  | .create type payload => create policy type payload
  | .update type id payload => update policy type id payload
  | .delete type id => delete type id

/-- A store as a platform. It never asks a run to stop. -/
def platform (policy : StorePolicy) : Platform Store where
  handle := handle policy
  isCancelled _ := false
  isCancelled_handle _ _ h := h

end Store

end Rollout
