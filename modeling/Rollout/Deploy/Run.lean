import Rollout.Deploy.Config

/-! Deploying environments, wave by wave. What becomes of the configs of a wave is decided and
carried out before any of their results is recorded, so the configs of a wave see only what the
waves before it left.

The configs of a wave may be under way together, up to the concurrency that is asked for, and so may
the environments, all of them. Here they are taken in order (`deployAll`, `deployNamed`). This is
what happens with clients that answer without suspending, as the one in memory does: whatever is
started has come to its end before anything else moves. With such clients the concurrency makes no
difference, so no run takes it. -/

namespace Rollout

/-- How far a run has come. -/
structure Progress where
  states : SortedMap Coordinate ConfigState
  context : Context

namespace Progress

def start (g : DependencyGraph) : Progress :=
  ⟨g.vertices.mapValues fun _ => .pending, ∅⟩

def settle (p : Progress) (c : Coordinate) (state : ConfigState) : Progress :=
  { p with states := p.states.insert c state }

/-- Records what came of deploying a config. -/
def record (p : Progress) (c : Coordinate) : Except DeployError ResolvedEntity → Progress
  | .ok entity => ⟨p.states.insert c (.deployed entity.remoteId), p.context.insert entity⟩
  | .error e => p.settle c (.failed e)

end Progress

def isSatisfied (states : SortedMap Coordinate ConfigState) (dependency : Coordinate) : Bool :=
  (states.get? dependency).any ConfigState.isDeployed

def isLeftOut (states : SortedMap Coordinate ConfigState) (dependency : Coordinate) : Bool :=
  states.get? dependency = some (.skipped .explicit)

/-- The state of a config that cannot be deployed because of its dependencies, of which the first
decides. A dependency that failed lets the config be skipped. A dependency that was left out on
purpose is an error of the config, since it can never be satisfied. -/
def blockedState? (dependencies : List Coordinate) (states : SortedMap Coordinate ConfigState) :
    Option ConfigState :=
  match dependencies.find? fun d => !(isSatisfied states d || isLeftOut states d) with
  | some d => some (.skipped (.dependencyFailed d))
  | none => (dependencies.find? (isLeftOut states)).map fun d => .failed (.dependsOnSkipped d)

/-- The state of a config that is not to be tried. -/
def settledState? (g : DependencyGraph) (cancelled : Bool)
    (states : SortedMap Coordinate ConfigState) (config : Config) : Option ConfigState :=
  if config.skip then some (.skipped .explicit)
  else if cancelled then some (.failed .cancelled)
  else blockedState? (g.dependencies config.coordinate) states

section

variable {σ : Type} (P : Platform σ) (vars : Variables)

/-- Whether a config is to be left because the run is to stop. For a config that is skipped anyway
the flag is not looked at. -/
def pollFor (config : Config) : StateM σ Bool := if config.skip then pure false else P.poll

/-- Goes through the configs of a wave, records the states of those that are not to be tried and
gives the others. -/
def settleWave (g : DependencyGraph) (p : Progress) :
    List Config → StateM σ (Progress × List Config)
  | [] => return (p, [])
  | config :: rest => do
    let cancelled ← pollFor P config
    match settledState? g cancelled p.states config with
    | some state => settleWave g (p.settle config.coordinate state) rest
    | none =>
      let (p, runnable) ← settleWave g (p.settle config.coordinate .resolving) rest
      return (p, config :: runnable)

/-- Deploys configs one after another in the same context. -/
def deployAll (ctx : Context) :
    List Config → StateM σ (List (Coordinate × Except DeployError ResolvedEntity))
  | [] => return []
  | config :: rest => do
    let result ← deployConfig P vars ctx config
    let results ← deployAll ctx rest
    return (config.coordinate, result) :: results

/-- Deploys a wave. -/
def deployWave (g : DependencyGraph) (p : Progress) (wave : Wave) : StateM σ Progress := do
  let (settled, runnable) ← settleWave P g p (wave.filterMap g.config?)
  let results ← deployAll P vars p.context runnable
  return results.foldl (fun p' (c, result) => p'.record c result) settled

def deployWaves (g : DependencyGraph) (p : Progress) : List Wave → StateM σ Progress
  | [] => return p
  | wave :: rest => do
    let p ← deployWave P vars g p wave
    deployWaves g p rest

/-- Deploys the configs of one environment. Nothing is asked of the platform if they are not in
order. -/
def deployEnvironment (environment : String) (configs : List Config) :
    StateM σ EnvironmentResult := do
  match DependencyGraph.build configs with
  | .error errors => return .error errors
  | .ok g =>
    match g.waves with
    | .error e => return .error [e]
    | .ok waves =>
      let p ← deployWaves P vars g (.start g) waves
      return .ok ⟨environment, waves, p.states⟩

/-- Deploys environments one after another. Of a repeated environment the last result stays. -/
def deployNamed (projects : List Project) :
    List String → SortedMap String EnvironmentResult → StateM σ (SortedMap String EnvironmentResult)
  | [], results => return results
  | environment :: rest, results => do
    let result ← deployEnvironment P vars environment (configsFor projects environment)
    deployNamed projects rest (results.insert environment result)

/-- Deploys the named environments, or all for which there are configs if none is named. -/
def deployProjects (projects : List Project) (names : List String) :
    StateM σ (SortedMap String EnvironmentResult) :=
  deployNamed P vars projects (if names.isEmpty then environments projects else names) ∅

end

end Rollout
