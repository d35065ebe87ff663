/-! Texts with holes. A text is read from left to right as a sequence of segments: wherever a hole
starts it is one segment, every other character is a segment by itself. Listing the holes and
filling them work on the same segments. -/

namespace Rollout.Text

/-- A hole at the start of a text: its name and the number of characters it takes up. -/
structure Hole where
  name : List Char
  width : Nat
deriving DecidableEq

inductive Segment
  | char (c : Char)
  | hole (name : List Char)
deriving DecidableEq

namespace Segment

/-- The segments of a text, after the given number of characters that belong to a hole before it. -/
def scan (hole? : List Char → Option Hole) : Nat → List Char → List Segment
  | _, [] => []
  | inside + 1, _ :: rest => scan hole? inside rest
  | 0, c :: rest =>
    match hole? (c :: rest) with
    | some h => .hole h.name :: scan hole? (h.width - 1) rest
    | none => .char c :: scan hole? 0 rest

/-- The names of the holes, in order. -/
def names (segments : List Segment) : List (List Char) :=
  segments.filterMap fun
    | .hole name => some name
    | .char _ => none

/-- The text with every hole filled. -/
def fill (filling : List Char → List Char) (segments : List Segment) : List Char :=
  segments.flatMap fun
    | .hole name => filling name
    | .char c => [c]

end Segment

def isLetterOrUnderscore (c : Char) : Bool :=
  ('a' ≤ c ∧ c ≤ 'z') ∨ ('A' ≤ c ∧ c ≤ 'Z') ∨ c = '_'

end Rollout.Text
