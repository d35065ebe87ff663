import Rollout.DeleteEntry
import Rollout.Platform.Basic

/-! What a delete run reports: one outcome for each entry, in the order of the entries. -/

namespace Rollout

inductive DeleteOutcome
  | deleted (ids : List String)
  | notFound
  | unknownType
  | failed (error : PlatformError)
deriving DecidableEq

structure DeleteResult where
  entry : DeleteEntry
  outcome : DeleteOutcome
deriving DecidableEq

namespace DeleteResult

/-- Nothing was deleted, but nothing went wrong. -/
def isWarning (r : DeleteResult) : Bool :=
  match r.outcome with
  | .notFound => true
  | .unknownType => true
  | _ => false

def isError (r : DeleteResult) : Bool :=
  match r.outcome with
  | .failed _ => true
  | _ => false

def deletedIds (r : DeleteResult) : List String :=
  match r.outcome with
  | .deleted ids => ids
  | _ => []

end DeleteResult

structure DeleteReport where
  results : List DeleteResult
deriving DecidableEq

namespace DeleteReport

def warningCount (r : DeleteReport) : Nat := r.results.countP DeleteResult.isWarning

def errorCount (r : DeleteReport) : Nat := r.results.countP DeleteResult.isError

def deletedIds (r : DeleteReport) : List String := r.results.flatMap (·.deletedIds)

def deletedCount (r : DeleteReport) : Nat := r.deletedIds.length

/-- Warnings do not make a run unsuccessful. -/
def isSuccess (r : DeleteReport) : Bool := !r.results.any DeleteResult.isError

end DeleteReport

end Rollout
