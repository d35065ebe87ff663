import Rollout.Deploy.Run

/-! Deploying without waves: the configs of an environment one after another, each of them decided
about just before its turn. -/

namespace Rollout

variable {σ : Type} (P : Platform σ) (vars : Variables)

/-- Deploys configs one after another. What becomes of each is decided by all that was recorded
before, and recorded before the next one. -/
def deployEach (g : DependencyGraph) (p : Progress) : List Config → StateM σ Progress
  | [] => return p
  | config :: rest => do
    match settledState? g false p.states config with
    | some state => deployEach g (p.settle config.coordinate state) rest
    | none =>
      let result ← deployConfig P vars p.context config
      deployEach g (p.record config.coordinate result) rest

/-- Deploys the configs of one environment one after another, in the order of its waves. -/
def deployInTurn (environment : String) (configs : List Config) : StateM σ EnvironmentResult := do
  match DependencyGraph.build configs with
  | .error errors => return .error errors
  | .ok g =>
    match g.waves with
    | .error e => return .error [e]
    | .ok waves =>
      let p ← deployEach P vars g (.start g) (waves.flatten.filterMap g.config?)
      return .ok ⟨environment, waves, p.states⟩

end Rollout
