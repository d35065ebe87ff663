import Rollout.SortedMap
import Rollout.Text.Blank
import Rollout.Text.Holes
import Rollout.Json.Printer

/-! Templates of payloads. A placeholder `⦃⦃ .name ⦄⦄`, written with plain braces, stands for the
value of a parameter: a string is put in as the inside of a JSON literal, any other value as JSON.
What is put in is not searched for placeholders again. -/

namespace Rollout

structure Template where
  /-- Says where the template is from. -/
  name : String
  content : String
deriving DecidableEq, Inhabited

/-- A placeholder without a value. -/
structure MissingValue where
  template : String
  placeholder : String
deriving DecidableEq

def MissingValue.message (e : MissingValue) : String :=
  "invalid value: template '" ++ e.template ++ "' uses '\x7b\x7b ." ++ e.placeholder ++
    " \x7d\x7d' but the config has no such parameter"

namespace Template

/-- May stand in the name of a placeholder after its first character. -/
def isNameChar (c : Char) : Bool := Text.isLetterOrUnderscore c || c.isDigit

/-- A placeholder at the start of a text. White space may stand before the point and after the name.
-/
def placeholder? : List Char → Option Text.Hole
  | '{' :: '{' :: rest =>
    let before := rest.takeWhile Text.isBlank
    match rest.drop before.length with
    | '.' :: rest =>
      let name := rest.takeWhile isNameChar
      let rest := rest.drop name.length
      let behind := rest.takeWhile Text.isBlank
      match name, rest.drop behind.length with
      | first :: _, '}' :: '}' :: _ =>
        if Text.isLetterOrUnderscore first then
          some ⟨name, before.length + name.length + behind.length + 5⟩
        else none
      | _, _ => none
    | _ => none
  | _ => none

def segments (t : Template) : List Text.Segment :=
  Text.Segment.scan placeholder? 0 t.content.toList

/-- The names of all placeholders, in order and with repetitions. -/
def placeholders (t : Template) : List String := (Text.Segment.names t.segments).map String.ofList

/-- What stands in the text for a value. -/
def insertion : Json → List Char
  | .string s => Json.escape s.toList
  | value => value.render.toList

/-- The content with all placeholders filled, unless one has no value. -/
def render (t : Template) (values : SortedMap String Json) : Except MissingValue String :=
  match t.placeholders.find? fun name => !values.contains name with
  | some name => .error ⟨t.name, name⟩
  | none =>
    let filling (name : List Char) := ((values.get? (.ofList name)).map insertion).getD []
    .ok (.ofList (Text.Segment.fill filling t.segments))

end Template

end Rollout
