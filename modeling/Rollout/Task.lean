import Rollout.Deploy.Run
import Rollout.Delete.Run

/-! Deployments and deletions, the two things that are done to a platform. -/

namespace Rollout

variable {σ : Type}

/-- What is done to a store in one go. -/
inductive Task
  | deploy (vars : Variables) (environment : String) (configs : List Config)
  | delete (entries : List DeleteEntry)

namespace Task

def carryOut (P : Platform σ) : Task → σ → σ
  | .deploy vars environment configs, s => (deployEnvironment P vars environment configs s).2
  | .delete entries, s => (deleteEntries P entries s).2

/-- The report of a deployment. -/
def report? (P : Platform σ) : Task → σ → Option DeployReport
  | .deploy vars environment configs, s =>
    (deployEnvironment P vars environment configs s).1.toOption
  | .delete _, _ => none

end Task

end Rollout
