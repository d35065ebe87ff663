import Rollout.Coordinate
import Rollout.Json.Basic

/-! What later configs of a run may refer to: the entities that were deployed before. -/

namespace Rollout

/-- What a deployed config leaves behind for later references. -/
structure ResolvedEntity where
  coordinate : Coordinate
  /-- The id of the object on the platform. -/
  remoteId : String
  /-- The resolved parameters by name. -/
  properties : SortedMap String Json
deriving DecidableEq

/-- The entities deployed so far for one environment. -/
structure Context where
  byCoordinate : SortedMap Coordinate ResolvedEntity
deriving DecidableEq

namespace Context

def empty : Context := ⟨∅⟩

instance : EmptyCollection Context := ⟨empty⟩

def insert (ctx : Context) (entity : ResolvedEntity) : Context :=
  ⟨ctx.byCoordinate.insert entity.coordinate entity⟩

def get? (ctx : Context) (c : Coordinate) : Option ResolvedEntity := ctx.byCoordinate.get? c

def contains (ctx : Context) (c : Coordinate) : Bool := (ctx.get? c).isSome

/-- The value a reference points at. The property `id` is the remote id, unless the config has a
parameter of that name. -/
def lookup? (ctx : Context) (r : Reference) : Option Json := do
  let entity ← ctx.get? r.coordinate
  match entity.properties.get? r.property with
  | some value => some value
  | none => if r.isId then some (.string entity.remoteId) else none

theorem lookup?_of_get? {ctx : Context} {r : Reference} {entity : ResolvedEntity}
    (h : ctx.get? r.coordinate = some entity) :
    ctx.lookup? r = (entity.properties.get? r.property).or
      (if r.isId then some (.string entity.remoteId) else none) := by
  rw [lookup?, h]
  dsimp only [bind, Option.bind]
  cases entity.properties.get? r.property <;> rfl

def entities (ctx : Context) : List ResolvedEntity := ctx.byCoordinate.values

def size (ctx : Context) : Nat := ctx.byCoordinate.size

def isEmpty (ctx : Context) : Bool := ctx.byCoordinate.isEmpty

end Context

end Rollout
