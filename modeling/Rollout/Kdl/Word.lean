import Rollout.Kdl.CharClass
import Rollout.Kdl.Document
import Rollout.Text.Hex

/-! Words of KDL: numbers and bare strings. A word is a longest run of word characters. -/

namespace Rollout.Kdl

def isSign (c : Char) : Bool := c = '+' ∨ c = '-'

/-- The value of digits of a base, which may be grouped by underscores after the first digit.
Numbers are limited to 128 bits with their sign. -/
def magnitude? (base : Nat) (word : List Char) : Option Nat := do
  let digit? (c : Char) := (Text.hexValue? c).filter (· < base)
  let first ← word.head?
  let _ ← digit? first
  let digits ← (word.filter (· ≠ '_')).mapM digit?
  let n := digits.foldl (fun n d => base * n + d) 0
  if n < 1 <<< 127 then some n else none

/-- The number of decimal digits in a group. -/
def digitCount (group : List Char) : Nat := (group.filter (· ≠ '_')).length

/-- A decimal number without its sign. With a point or an exponent it is a double. -/
def decimal? (negative : Bool) (word : List Char) : Option Scalar := do
  let isExponentMark (c : Char) : Bool := c = 'e' ∨ c = 'E'
  let (mantissa, exponent) := word.span (!isExponentMark ·)
  let (whole, fraction) := mantissa.span (· ≠ '.')
  let n ← magnitude? 10 whole
  if fraction.isEmpty ∧ exponent.isEmpty then
    return .integer (if negative then -(n : Int) else n)
  let places := fraction.drop 1
  let f ← if fraction.isEmpty then some 0 else magnitude? 10 places
  let power : Int ← match exponent.drop 1 with
    | [] => if exponent.isEmpty then some 0 else none
    | '-' :: rest => (magnitude? 10 rest).map fun n => -(n : Int)
    | '+' :: rest => (magnitude? 10 rest).map fun n => (n : Int)
    | rest => (magnitude? 10 rest).map fun n => (n : Int)
  let count := digitCount places
  return .double (.ofDecimal negative (n * Nat.pow 10 count + f) (power - count))

/-- A number. -/
def number? (word : List Char) : Option Scalar :=
  let (negative, unsigned) := match word with
    | '-' :: rest => (true, rest)
    | '+' :: rest => (false, rest)
    | rest => (false, rest)
  let integer (n : Nat) : Scalar := .integer (if negative then -(n : Int) else n)
  match unsigned with
  | '0' :: 'x' :: rest => (magnitude? 16 rest).map integer
  | '0' :: 'o' :: rest => (magnitude? 8 rest).map integer
  | '0' :: 'b' :: rest => (magnitude? 2 rest).map integer
  | _ => decimal? negative unsigned

/-- Begins like a number: a digit, possibly after a sign. -/
def startsNumber : List Char → Bool
  | c :: d :: _ => c.isDigit || (isSign c && d.isDigit)
  | [c] => c.isDigit
  | [] => false

/-- Begins like a number whose leading digit was left out, as in `.5`. -/
def startsPoint : List Char → Bool
  | '.' :: c :: _ => c.isDigit
  | s :: '.' :: c :: _ => isSign s && c.isDigit
  | _ => false

/-- Words that would be mistaken for keywords. -/
def keywordLike : List String := ["true", "false", "null", "inf", "nan"]

/-- A bare string. -/
def bareString? (word : List Char) : Option String :=
  let s := String.ofList word
  if word.isEmpty || startsNumber word || startsPoint word || keywordLike.contains s then none
  else some s

/-- The value of the keyword `#word`. -/
def keyword? (word : List Char) : Option Scalar :=
  match String.ofList word with
  | "true" => some (.bool true)
  | "false" => some (.bool false)
  | "null" => some .null
  | "inf" => some (.double (.infinite false))
  | "-inf" => some (.double (.infinite true))
  | "nan" => some (.double .nan)
  | _ => none

end Rollout.Kdl
