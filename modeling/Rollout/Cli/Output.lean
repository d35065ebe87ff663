import Rollout.Deploy.Report
import Rollout.Delete.Report
import Rollout.Uuid

/-! What the commands print: reports as JSON, whose fields stand in a fixed order, and as text. -/

namespace Rollout

/-- The time and the name of a run. -/
structure RunStamp where
  id : Uuid
  startedAt : String
  finishedAt : String

/-! ### JSON -/

def Coordinate.toJson (c : Coordinate) : Json :=
  .object [("project", .string c.project), ("config_type", .string c.configType),
    ("config_id", .string c.configId)]

def DeleteEntry.toJson (e : DeleteEntry) : Json :=
  .object [("config_type", .string e.configType), ("identifier", .string e.identifier),
    ("project", .ofOption e.project)]

def SkipReason.toJson : SkipReason → Json
  | .explicit => .object [("reason", .string "explicit")]
  | .dependencyFailed d =>
    .object [("reason", .string "dependency_failed"), ("dependency", d.toJson)]

def ConfigState.toJson : ConfigState → Json
  | .pending => .object [("state", .string "pending")]
  | .resolving => .object [("state", .string "resolving")]
  | .deployed id => .object [("state", .string "deployed"), ("remote_id", .string id)]
  | .failed e => .object [("state", .string "failed"), ("error", .string e.message)]
  | .skipped reason => .object [("state", .string "skipped"), ("reason", reason.toJson)]

def wavesToJson (waves : List Wave) : Json :=
  .array (waves.map fun wave => .array (wave.map Coordinate.toJson))

def DeployReport.toJson (r : DeployReport) (stamp : RunStamp) : Json :=
  .object [
    ("run_id", .string stamp.id.display),
    ("environment", .string r.environment),
    ("waves", wavesToJson r.waves),
    ("states", .object (r.states.entries.map fun (c, state) => (c.display, state.toJson))),
    ("started_at", .string stamp.startedAt),
    ("finished_at", .string stamp.finishedAt)]

/-- The messages of errors as a field. -/
def graphErrorsField (errors : List GraphError) : String × Json :=
  ("errors", .array (errors.map fun e => .string e.message))

def EnvironmentResult.toJson (stamp : RunStamp) : EnvironmentResult → Json
  | .ok report => report.toJson stamp
  | .error errors => .object [graphErrorsField errors]

/-- The outcome as fields behind those of its entry. -/
def DeleteOutcome.fields : DeleteOutcome → List (String × Json)
  | .deleted ids => [("outcome", .string "deleted"), ("ids", .array (ids.map Json.string))]
  | .notFound => [("outcome", .string "not_found")]
  | .unknownType => [("outcome", .string "unknown_type")]
  | .failed e => [("outcome", .string "failed"), ("error", .string e.message)]

def DeleteResult.toJson (r : DeleteResult) : Json :=
  .object (("entry", r.entry.toJson) :: r.outcome.fields)

def DeleteReport.toJson (r : DeleteReport) (stamp : RunStamp) : Json :=
  .object [("run_id", .string stamp.id.display), ("results", .array (r.results.map (·.toJson)))]

/-! ### Text -/

/-- How the state of a config is shown. -/
def ConfigState.text : ConfigState → String
  | .pending | .resolving => "○ pending"
  | .deployed id => "✓ deployed (" ++ id ++ ")"
  | .failed e => "✗ failed: " ++ e.message
  | .skipped .explicit => "⊘ skipped"
  | .skipped (.dependencyFailed d) => "⊘ skipped: " ++ d.display ++ " was not deployed"

def DeployReport.lines (r : DeployReport) (stamp : RunStamp) : List String :=
  ("Environment '" ++ r.environment ++ "' (run " ++ stamp.id.display ++ "): " ++
      toString r.deployedCount ++ " deployed, " ++ toString r.failures.length ++ " failed, " ++
      toString r.skippedCount ++ " skipped") ::
    r.states.entries.map fun (c, state) => "  " ++ c.display ++ " - " ++ state.text

def graphErrorLines (errors : List GraphError) : List String :=
  errors.map fun e => "  ✗ " ++ e.message

def EnvironmentResult.lines (environment : String) (stamp : RunStamp) :
    EnvironmentResult → List String
  | .ok report => report.lines stamp
  | .error errors =>
    ("Environment '" ++ environment ++ "' was not deployed:") :: graphErrorLines errors

def waveLines (environment : String) (waves : List Wave) : List String :=
  ("Environment '" ++ environment ++ "': " ++ toString waves.length ++ " waves") ::
    waves.zipIdx.map fun (wave, i) =>
      "  " ++ toString (i + 1) ++ ". " ++ ", ".intercalate (wave.map Coordinate.display)

/-- How the outcome of an entry is shown. -/
def DeleteOutcome.text : DeleteOutcome → String
  | .deleted ids => "✓ deleted " ++ ", ".intercalate ids
  | .notFound => "! nothing found"
  | .unknownType => "! unknown type"
  | .failed e => "✗ failed: " ++ e.message

def DeleteReport.lines (r : DeleteReport) : List String :=
  r.results.map (fun result => "  " ++ result.entry.display ++ " - " ++ result.outcome.text) ++
    [toString r.deletedCount ++ " deleted, " ++ toString r.warningCount ++ " warnings, " ++
      toString r.errorCount ++ " errors"]

end Rollout
