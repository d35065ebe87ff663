import Rollout.Files

/-! What can be wrong with a manifest or a delete file. As many problems as can be found are
reported together. -/

namespace Rollout

/-- One problem of a file. -/
inductive LoadProblem
  /-- The text is no KDL document. -/
  | malformed
  | missingField (what : String)
  | invalidValue (field : String) (explanation : String)
  | duplicate (what : String)
  | invalidReference (what : String)
  | unknownEnvironment (what : String)
  | unreadable (path : String) (cause : ReadError)
deriving DecidableEq

namespace LoadProblem

/-- What the document reader says. -/
def malformedDocument : String := "Failed to parse KDL document"

def message : LoadProblem → String
  | .malformed => "KDL parse error: " ++ malformedDocument
  | .missingField what => "missing required field: " ++ what
  | .invalidValue field explanation => "invalid value for " ++ field ++ ": " ++ explanation
  | .duplicate what => "duplicate definition: " ++ what
  | .invalidReference what => "invalid reference: " ++ what
  | .unknownEnvironment what => "unknown environment: " ++ what
  | .unreadable path cause => "failed to read " ++ path ++ ": " ++ cause.message

/-- What a problem goes back to, if anything else. -/
def cause? : LoadProblem → Option String
  | .malformed => some malformedDocument
  | .unreadable _ cause => some cause.message
  | _ => none

end LoadProblem

/-- One problem or several. -/
structure LoadError where
  first : LoadProblem
  rest : List LoadProblem
deriving DecidableEq

namespace LoadError

def single (problem : LoadProblem) : LoadError := ⟨problem, []⟩

def problems (e : LoadError) : List LoadProblem := e.first :: e.rest

/-- A single problem speaks for itself, several are counted and listed. -/
def message (e : LoadError) : String :=
  if e.rest.isEmpty then e.first.message
  else
    toString e.problems.length ++ " errors:\n  " ++
      "\n  ".intercalate (e.problems.map LoadProblem.message)

/-- What a single problem goes back to. -/
def cause? (e : LoadError) : Option String :=
  if e.rest.isEmpty then e.first.cause? else none

/-- Succeeds if there are no problems, and reports all of them otherwise. -/
def check {α : Type} (problems : List LoadProblem) (value : α) : Except LoadError α :=
  match problems with
  | [] => .ok value
  | first :: rest => .error ⟨first, rest⟩

theorem check_eq_ok_iff {α : Type} {problems : List LoadProblem} {value a : α} :
    check problems value = .ok a ↔ problems = [] ∧ a = value := by
  cases problems with
  | nil => simp [check, eq_comm]
  | cons first rest => simp [check]

theorem exists_check_eq_error {α : Type} {problems : List LoadProblem} (h : problems ≠ [])
    (value : α) : ∃ error, check problems value = .error error ∧ error.problems = problems := by
  cases problems with
  | nil => exact absurd rfl h
  | cons first rest => exact ⟨⟨first, rest⟩, rfl, rfl⟩

end LoadError

end Rollout
