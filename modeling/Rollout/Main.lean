import Rollout.Cli.Command
import Rollout.VariableNames
import Std.Time

/-! The program: reads the file, stamps the runs, prints and exits. -/

namespace Rollout.Cli

/-- Why the operating system did not let a file be read. -/
def readErrorOfIO : IO.Error → ReadError
  | .noFileOrDirectory _ _ _ => .noSuchFile
  | .inappropriateType _ code _ =>
    if code = 21 ∨ code = 0 - 21 then .isADirectory else .notADirectory
  | e => .other (toString e)

def readTextFile (path : String) : IO (Except ReadError String) := do
  try
    match String.fromUTF8? (← IO.FS.readBinFile path) with
    | some text => return .ok text
    | none => return .error .invalidUtf8
  catch e => return .error (readErrorOfIO e)

def readVariables (names : List String) : IO Variables := do
  let values ← names.mapM fun name => return (name, ← IO.getEnv name)
  return fun name => (values.find? (·.1 = name)).bind (·.2)

/-- The variables that the configs of a manifest read. -/
def variableNames (text : Except ReadError String) : List String :=
  match text.toOption.bind fun text => (Manifest.ofText text).toOption with
  | some m => (m.environments.flatMap m.configsFor).flatMap Config.variableNames
  | none => []

def natOfBytes (bytes : ByteArray) : Nat := bytes.toList.foldl (fun n b => 256 * n + b.toNat) 0

/-- Stamps for the runs and ids for the objects of a command that starts now. -/
def readAmbient (vars : Variables) : IO Ambient := do
  let now ← Std.Time.Timestamp.now
  let milliseconds := now.toMillisecondsSinceUnixEpoch.val.toNat
  let time := (Std.Time.DateTime.ofTimestamp now .UTC).toISO8601String
  let random := natOfBytes (← IO.getRandomBytes 9)
  let uuid (n : Nat) := Uuid.ofTime milliseconds (random + n)
  return ⟨vars, fun n => ⟨uuid (2 * n), time, time⟩, fun n => uuid (2 * n + 1)⟩

def execute (arguments : List String) : IO Outcome := do
  match parse (← readVariables [concurrencyVariable]) arguments with
  | .error usage => return usage.outcome
  | .ok invocation =>
    let text ← readTextFile invocation.path
    let ambient ← readAmbient (← readVariables (variableNames text))
    return invocation.run ambient text

end Rollout.Cli

def main (arguments : List String) : IO UInt32 := do
  let outcome ← Rollout.Cli.execute arguments
  IO.print outcome.output
  IO.eprint outcome.errors
  return outcome.exitCode.toUInt32
