/-! Entries of a delete file. -/

namespace Rollout

/-- Names objects to delete. For a classic API the identifier is the name of an object or its id;
for other types it is the id of an object or, given a project, the id of the config it was deployed
for. -/
structure DeleteEntry where
  configType : String
  identifier : String
  project : Option String
deriving DecidableEq, Inhabited

def DeleteEntry.display (e : DeleteEntry) : String :=
  e.configType ++ "/" ++ e.identifier ++
    match e.project with
    | some project => " (project " ++ project ++ ")"
    | none => ""

instance : ToString DeleteEntry := ⟨DeleteEntry.display⟩

end Rollout
