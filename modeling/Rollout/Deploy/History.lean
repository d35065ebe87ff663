import Rollout.Deploy.Run

/-! The history of a run: every attempt to deploy a config, with what it started from and what came
of it. Where several environments are deployed, there is one round for each name. -/

namespace Rollout

/-- One attempt to deploy a config. -/
structure Attempt (σ : Type) where
  config : Config
  /-- What the config's references were looked up in. -/
  context : Context
  before : σ
  after : σ
  result : Except DeployError ResolvedEntity

section

variable {σ : Type} (P : Platform σ) (vars : Variables)

def attempt (ctx : Context) (config : Config) (s : σ) : Attempt σ :=
  let outcome := deployConfig P vars ctx config s
  ⟨config, ctx, s, outcome.2, outcome.1⟩

/-- The attempts of `deployAll`. -/
def attemptAll (ctx : Context) : List Config → σ → List (Attempt σ)
  | [], _ => []
  | config :: rest, s =>
    let a := attempt P vars ctx config s
    a :: attemptAll ctx rest a.after

/-- The attempts of `deployWave`. -/
def waveAttempts (g : DependencyGraph) (p : Progress) (wave : Wave) (s : σ) : List (Attempt σ) :=
  let ((_, runnable), s) := settleWave P g p (wave.filterMap g.config?) s
  attemptAll P vars p.context runnable s

/-- The attempts of `deployWaves`. -/
def wavesAttempts (g : DependencyGraph) (p : Progress) : List Wave → σ → List (Attempt σ)
  | [], _ => []
  | wave :: rest, s =>
    let (p', s') := deployWave P vars g p wave s
    waveAttempts P vars g p wave s ++ wavesAttempts g p' rest s'

/-- The attempts of `deployEnvironment`. -/
def history (configs : List Config) (s : σ) : List (Attempt σ) :=
  match DependencyGraph.build configs with
  | .error _ => []
  | .ok g =>
    match g.waves with
    | .error _ => []
    | .ok waves => wavesAttempts P vars g (.start g) waves s

end

/-- The attempt got as far as resolving parameters. -/
def Attempt.startsResolving {σ : Type} (P : Platform σ) (a : Attempt σ) : Bool :=
  !(P.poll a.before).1

/-! ### Several environments -/

/-- One environment of a deployment: what was there before and after, and what came of it. -/
structure Round (σ : Type) where
  environment : String
  configs : List Config
  before : σ
  after : σ
  result : EnvironmentResult

/-- The environments that `deployProjects` goes through. -/
def selectedNames (projects : List Project) (names : List String) : List String :=
  if names.isEmpty then environments projects else names

section

variable {σ : Type} (P : Platform σ) (vars : Variables) (projects : List Project)

def round (environment : String) (s : σ) : Round σ :=
  let configs := configsFor projects environment
  let run := deployEnvironment P vars environment configs s
  ⟨environment, configs, s, run.2, run.1⟩

/-- The rounds of `deployNamed`. -/
def rounds : List String → σ → List (Round σ)
  | [], _ => []
  | environment :: rest, s =>
    let r := round P vars projects environment s
    r :: rounds rest r.after

/-- The attempts of a round. -/
def Round.attempts (r : Round σ) : List (Attempt σ) :=
  history P vars r.configs r.before

end

end Rollout
