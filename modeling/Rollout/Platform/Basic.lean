import Rollout.ConfigType
import Rollout.Coordinate

/-! Platforms, as a deployment sees them: something that answers requests and changes its state by
that, and a flag that tells a run to stop. -/

namespace Rollout

/-- Why a platform refuses a request. -/
inductive PlatformError
  | notFound (message : String)
  | invalidInput (message : String)
  | unauthorized (message : String)
  | forbidden (message : String)
  | conflict (message : String)
  | rateLimited (message : String)
  | transport (message : String)
  | cancelled
  | internal (message : String)
deriving DecidableEq

namespace PlatformError

def message : PlatformError → String
  | .notFound m => "not found: " ++ m
  | .invalidInput m => "invalid input: " ++ m
  | .unauthorized m => "unauthorized: " ++ m
  | .forbidden m => "forbidden: " ++ m
  | .conflict m => "conflict: " ++ m
  | .rateLimited m => "rate limited: " ++ m
  | .transport m => "transport error: " ++ m
  | .cancelled => "cancelled"
  | .internal m => "internal error: " ++ m

def isNotFound : PlatformError → Bool
  | .notFound _ => true
  | _ => false

end PlatformError

/-- An object as a platform lists it. -/
structure RemoteObject where
  id : String
  name : Option String
  externalId : Option String
deriving DecidableEq

/-- What a platform has to know to create or update an object. -/
structure Payload where
  coordinate : Coordinate
  name : Option String
  externalId : String
  scope : Option String
  content : String
deriving DecidableEq

inductive Request
  | list (type : ConfigType)
  | create (type : ConfigType) (payload : Payload)
  | update (type : ConfigType) (id : String) (payload : Payload)
  | delete (type : ConfigType) (id : String)
deriving DecidableEq

namespace Request

def type : Request → ConfigType
  | .list type => type
  | .create type _ => type
  | .update type _ _ => type
  | .delete type _ => type

/-- What an accepted request is answered with: the objects listed, the id of the object created. -/
@[reducible] def Reply : Request → Type
  | .list _ => List RemoteObject
  | .create _ _ => String
  | .update _ _ _ => Unit
  | .delete _ _ => Unit

abbrev Outcome (r : Request) : Type := Except PlatformError r.Reply

end Request

/-- A request with what came of it. -/
structure Call where
  request : Request
  outcome : request.Outcome

/-- A platform with states of type `σ`. -/
structure Platform (σ : Type) where
  handle : (r : Request) → StateM σ r.Outcome
  /-- Whether a run should stop. -/
  isCancelled : σ → Bool
  /-- What others do to the state by the time a run looks at the flag. -/
  elapse : σ → σ := id
  /-- Once set, the flag stays set. -/
  isCancelled_handle : ∀ r s, isCancelled s → isCancelled (handle r s).2
  isCancelled_elapse : ∀ s, isCancelled s → isCancelled (elapse s) := by exact fun _ h => h

namespace Platform

variable {σ : Type}

/-- Looks at the flag. -/
def poll (P : Platform σ) : StateM σ Bool := do
  modify P.elapse
  return P.isCancelled (← get)

/-- Sends requests one after another, and writes down the calls. -/
def callAll (P : Platform σ) : List Request → StateM σ (List Call)
  | [] => pure []
  | r :: rest => do
    let outcome ← P.handle r
    return ⟨r, outcome⟩ :: (← P.callAll rest)

end Platform

end Rollout
