import Rollout.Graph.Waves
import Rollout.Platform.Basic

/-! What a deployment reports: for every config the state in which it ended. -/

namespace Rollout

/-- Why a config could not be deployed. -/
inductive DeployError
  | parameter (name : String) (cause : ParameterError)
  | dependsOnSkipped (dependency : Coordinate)
  | render (cause : MissingValue)
  | missingScope
  | missingName
  /-- Several objects could be the config's. -/
  | ambiguous (name : String) (count : Nat)
  | remote (cause : PlatformError)
  | cancelled
deriving DecidableEq

def DeployError.message : DeployError → String
  | .parameter name cause => "failed to resolve parameter '" ++ name ++ "': " ++ cause.message
  | .dependsOnSkipped d => "depends on skipped config " ++ d.display
  | .render cause => "failed to render template: " ++ cause.message
  | .missingScope => "settings objects require a 'scope' parameter"
  | .missingName =>
    "objects of this type are matched by name but the config has no 'name' parameter"
  | .ambiguous name count => toString count ++ " existing objects are named '" ++ name ++ "'"
  | .remote cause => "platform call failed: " ++ cause.message
  | .cancelled => "deployment was cancelled before the config was applied"

/-- Why a config was not tried. -/
inductive SkipReason
  /-- It is marked to be skipped. -/
  | explicit
  /-- A config it depends on failed, or was itself not tried for that reason. -/
  | dependencyFailed (dependency : Coordinate)
deriving DecidableEq

inductive ConfigState
  | pending
  /-- It is tried in the wave at hand. -/
  | resolving
  | deployed (remoteId : String)
  | failed (error : DeployError)
  | skipped (reason : SkipReason)
deriving DecidableEq

namespace ConfigState

def isTerminal : ConfigState → Bool
  | .pending | .resolving => false
  | _ => true

def isDeployed : ConfigState → Bool
  | .deployed _ => true
  | _ => false

def isSkipped : ConfigState → Bool
  | .skipped _ => true
  | _ => false

def error? : ConfigState → Option DeployError
  | .failed e => some e
  | _ => none

/-- Deployed, or left out as it should be. -/
def isSuccess : ConfigState → Bool
  | .deployed _ => true
  | .skipped .explicit => true
  | _ => false

end ConfigState

structure DeployReport where
  environment : String
  waves : List Wave
  states : SortedMap Coordinate ConfigState
deriving DecidableEq

namespace DeployReport

def isSuccess (r : DeployReport) : Bool := r.states.values.all ConfigState.isSuccess

/-- The configs that failed, with their errors, ordered by coordinate. -/
def failures (r : DeployReport) : List (Coordinate × DeployError) :=
  r.states.entries.filterMap fun (c, state) => state.error?.map fun e => (c, e)

def deployedCount (r : DeployReport) : Nat := r.states.values.countP ConfigState.isDeployed

def skippedCount (r : DeployReport) : Nat := r.states.values.countP ConfigState.isSkipped

end DeployReport

/-- Structural errors keep an environment from being deployed at all. -/
abbrev EnvironmentResult := Except (List GraphError) DeployReport

end Rollout
