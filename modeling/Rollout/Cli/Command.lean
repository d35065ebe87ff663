import Rollout.Cli.Arguments
import Rollout.Cli.Output
import Rollout.Deploy.Run
import Rollout.Delete.Run
import Rollout.DeleteFile
import Rollout.Manifest.Loader
import Rollout.Platform.Memory

/-! The commands. They run against a platform in memory that holds nothing at the start. It answers
without suspending, so that configs, entries and environments are taken in order whatever concurrency
is asked for: an invocation carries the number, and no command takes it. -/

namespace Rollout.Cli

/-- What a command finds around it. -/
structure Ambient where
  vars : Variables
  /-- The stamp of each run, by number. -/
  stamp : Nat → RunStamp
  /-- The ids of the objects that the platform creates. -/
  objectId : Nat → Uuid

/-- What a command leaves: an exit code and what it printed. -/
structure Outcome where
  exitCode : Nat
  output : String
  errors : String
deriving DecidableEq

/-- A failure with what it goes back to. -/
structure Failure where
  message : String
  causes : List String

namespace Failure

/-- A text whose lines after the first are set in. -/
def setIn (margin text : String) : String :=
  ("\n" ++ margin).intercalate ((Text.parts '\n' text.toList).map String.ofList)

/-- A cause among several, with its number. -/
def numbered (cause : String) (i : Nat) : String :=
  let number := toString i
  "\n" ++ String.ofList (List.replicate (5 - number.length) ' ') ++ number ++ ": " ++
    setIn "       " cause

def text (f : Failure) : String :=
  "Error: " ++ f.message ++
    (match f.causes with
      | [] => ""
      | [cause] => "\n\nCaused by:\n    " ++ setIn "    " cause
      | causes =>
        "\n\nCaused by:" ++ String.join (causes.zipIdx.map fun (cause, i) => numbered cause i)) ++
    "\n"

/-- A file that could not be loaded. -/
def loading (what path : String) (e : LoadError) : Failure :=
  ⟨"Failed to load " ++ what ++ ": " ++ path, e.message :: e.cause?.toList⟩

end Failure

def unlines (lines : List String) : String := String.join (lines.map (· ++ "\n"))

/-- The outcome after printing, with a failure if there was one. -/
def finish (output : String) : Option Failure → Outcome
  | none => ⟨0, output, ""⟩
  | some f => ⟨1, output, f.text⟩

/-- The environments to work on: those asked for, all of which must be declared, or all declared
ones. -/
def selectEnvironments (declared requested : List String) : Except Failure (List String) :=
  if requested.isEmpty then .ok declared
  else
    match requested.find? fun environment => !declared.contains environment with
    | some environment =>
      .error ⟨"Unknown environment '" ++ environment ++ "' (declared: " ++
        ", ".intercalate declared ++ ")", []⟩
    | none => .ok requested

/-- The waves of an environment, if its configs are in order. -/
def plan (configs : List Config) : Except (List GraphError) (List Wave) := do
  let g ← DependencyGraph.build configs
  match g.waves with
  | .ok waves => .ok waves
  | .error e => .error [e]

def planJson : Except (List GraphError) (List Wave) → Json
  | .ok waves => .object [("waves", wavesToJson waves)]
  | .error errors => .object [graphErrorsField errors]

def planLines (environment : String) : Except (List GraphError) (List Wave) → List String
  | .ok waves => waveLines environment waves
  | .error errors => ("Environment '" ++ environment ++ "' is invalid:") :: graphErrorLines errors

/-- Prints the waves of the selected environments. -/
def validate (output : OutputFormat) (m : Manifest) (environments : List String) : Outcome :=
  let plans := SortedMap.ofList (environments.map fun environment =>
    (environment, plan (m.configsFor environment)))
  let printed := match output with
    | .json => unlines [(Json.object (plans.entries.map fun (e, p) => (e, planJson p))).pretty]
    | .text => unlines (plans.entries.flatMap fun (e, p) => planLines e p)
  let inOrder := plans.values.all (·.isOk)
  finish printed (if inOrder then none else some ⟨"Configuration is invalid", []⟩)

def isDeployed : EnvironmentResult → Bool
  | .ok report => report.isSuccess
  | .error _ => false

/-- How the platform of a command treats requests: it takes every name. -/
def Ambient.policy (ambient : Ambient) : StorePolicy := ⟨[], fun n => (ambient.objectId n).display⟩

/-- Deploys the selected environments one after another to the same platform. -/
def deployment (ambient : Ambient) (m : Manifest) (environments : List String) :
    SortedMap String EnvironmentResult × Store :=
  deployProjects (Store.platform ambient.policy) ambient.vars m.projects environments Store.empty

/-- Prints what comes of deploying the selected environments. -/
def deploy (ambient : Ambient) (output : OutputFormat) (m : Manifest) (environments : List String) :
    Outcome :=
  let results := (deployment ambient m environments).1.entries.zipIdx
  let printed := match output with
    | .json =>
      let fields := results.map fun ((e, r), i) => (e, r.toJson (ambient.stamp i))
      unlines [(Json.object fields).pretty]
    | .text => unlines (results.flatMap fun ((e, r), i) => r.lines e (ambient.stamp i))
  let succeeded := results.all fun ((_, r), _) => isDeployed r
  finish printed (if succeeded then none else some ⟨"Deployment failed", []⟩)

/-- Deletes what the entries name. -/
def delete (ambient : Ambient) (output : OutputFormat) (entries : List DeleteEntry) : Outcome :=
  let report := (deleteEntries (Store.platform ambient.policy) entries Store.empty).1
  let printed := match output with
    | .json => unlines [(report.toJson (ambient.stamp 0)).pretty]
    | .text => unlines report.lines
  finish printed (if report.isSuccess then none else some ⟨"Delete failed", []⟩)

/-- The text of a file, where reading it may have failed. -/
def loaded {α : Type} (path : String) (ofText : String → Except LoadError α)
    (text : Except ReadError String) : Except LoadError α :=
  match text with
  | .ok text => ofText text
  | .error cause => .error (.single (.unreadable path cause))

/-- Carries out a command, given what came of reading its file. -/
def Invocation.run (i : Invocation) (ambient : Ambient) (text : Except ReadError String) :
    Outcome :=
  let manifest : Except Failure (Manifest × List String) := do
    match loaded i.path Manifest.ofText text with
    | .error e => .error (.loading "manifest" i.path e)
    | .ok m => return (m, ← selectEnvironments m.environments i.environments)
  match i.command with
  | .validate =>
    match manifest with
    | .ok (m, environments) => validate i.output m environments
    | .error f => finish "" (some f)
  | .deploy =>
    match manifest with
    | .ok (m, environments) => deploy ambient i.output m environments
    | .error f => finish "" (some f)
  | .delete =>
    match loaded i.path DeleteFile.ofText text with
    | .ok entries => delete ambient i.output entries
    | .error e => finish "" (some (.loading "delete file" i.path e))

def usageText : String :=
  unlines [
    "Usage: rollout [-v] validate [MANIFEST] [-e ENVIRONMENT]... [--output text|json]",
    "       rollout [-v] deploy [MANIFEST] [-e ENVIRONMENT]... [--concurrency N] " ++
      "[--output text|json]",
    "       rollout [-v] delete [FILE] [--concurrency N] [--output text|json]"]

/-- What is printed if the arguments ask for nothing that can be done. -/
def Usage.outcome : Usage → Outcome
  | .helpRequested => ⟨0, usageText, ""⟩
  | .misused explanation => ⟨2, "", "error: " ++ explanation ++ "\n\n" ++ usageText⟩

end Rollout.Cli
