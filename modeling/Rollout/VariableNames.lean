import Rollout.Project

/-! The environment variables that configs read. -/

namespace Rollout

namespace Parameter

mutual

/-- The variables that a parameter reads, at any depth. -/
def variableNames : Parameter → List String
  | .literal _ => []
  | .environment name _ => [name]
  | .reference _ => []
  | .list items => itemVariableNames items
  | .compound _ parts => partVariableNames parts

def itemVariableNames : List Parameter → List String
  | [] => []
  | item :: rest => variableNames item ++ itemVariableNames rest

def partVariableNames : List (String × Parameter) → List String
  | [] => []
  | (_, part) :: rest => variableNames part ++ partVariableNames rest

end

end Parameter

def Config.variableNames (c : Config) : List String :=
  c.parameters.values.flatMap Parameter.variableNames

end Rollout
