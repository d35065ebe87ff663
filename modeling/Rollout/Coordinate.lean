import Rollout.SortedMap
import Rollout.Text.Cut
import Rollout.Text.Hex
import Rollout.Digest.Sha256

/-! Coordinates name configs, references name properties of configs. Coordinates are ordered by
their display `project:type:id`; different coordinates with one display are told apart by their
fields. -/

namespace Rollout

/-- The key of a config within a run. -/
structure Coordinate where
  project : String
  configType : String
  configId : String
deriving DecidableEq, Inhabited

namespace Coordinate

/-- Stands between the parts of a coordinate. Of the three parts only the type may contain it. -/
def separator : Char := ':'

def display (c : Coordinate) : String :=
  c.project ++ ":" ++ c.configType ++ ":" ++ c.configId

instance : ToString Coordinate := ⟨display⟩

instance : Ord Coordinate where
  compare := compareLex (compareOn display)
    (compareLex (compareOn project) (compareLex (compareOn configType) (compareOn configId)))

instance : Std.TransOrd Coordinate :=
  inferInstanceAs (Std.TransCmp (compareLex (compareOn display)
    (compareLex (compareOn project) (compareLex (compareOn configType) (compareOn configId)))))

theorem compare_def (a b : Coordinate) :
    compare a b = ((compare a.display b.display).then ((compare a.project b.project).then
      ((compare a.configType b.configType).then (compare a.configId b.configId)))) := rfl

instance : Std.LawfulEqOrd Coordinate where
  eq_of_compare {a b} h := by
    simp only [compare_def, Ordering.then_eq_eq, Std.LawfulEqCmp.compare_eq_iff_eq] at h
    obtain ⟨_, hp, ht, hi⟩ := h
    cases a; cases b
    simp_all

/-- Begins every external id. -/
def externalIdStart : String := "configit-"

/-- The id by which the platform knows the object of a config: stable over runs, and different for
coordinates of different displays as far as SHA-256 tells them apart. -/
def externalId (c : Coordinate) : String :=
  externalIdStart ++ Text.hexBytes (Sha256.digest c.display.toUTF8.toList)

/-- Reads `project:type:id`. The type may contain the separator, so the project ends at the first
one and the id starts after the last one. -/
def parse? (s : String) : Option Coordinate := do
  let (project, rest) ← Text.cutFirst separator s.toList
  let (configType, configId) ← Text.cutLast separator rest
  if project.isEmpty || configType.isEmpty || configId.isEmpty then none
  else some ⟨.ofList project, .ofList configType, .ofList configId⟩

/-- What is said of a text that is no coordinate. -/
def parseFailure (s : String) : String :=
  "invalid coordinate '" ++ s ++ "': expected project:type:id"

end Coordinate

/-- Points at the resolved value of a property of a config. -/
structure Reference where
  coordinate : Coordinate
  property : String
deriving DecidableEq, Inhabited

namespace Reference

/-- The property under which the remote id of a config is found. -/
def idProperty : String := "id"

def isId (r : Reference) : Bool := r.property = idProperty

def display (r : Reference) : String := r.coordinate.display ++ "." ++ r.property

instance : ToString Reference := ⟨display⟩

instance : Ord Reference where
  compare := compareLex (compareOn coordinate) (compareOn property)

instance : Std.TransOrd Reference :=
  inferInstanceAs (Std.TransCmp (compareLex (compareOn coordinate) (compareOn property)))

theorem compare_def (a b : Reference) :
    compare a b =
      (compare a.coordinate b.coordinate).then (compare a.property b.property) := rfl

instance : Std.LawfulEqOrd Reference where
  eq_of_compare {a b} h := by
    simp only [compare_def, Ordering.then_eq_eq, Std.LawfulEqCmp.compare_eq_iff_eq] at h
    obtain ⟨hc, hp⟩ := h
    cases a; cases b
    simp_all

end Reference

end Rollout
