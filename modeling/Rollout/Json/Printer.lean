import Rollout.Json.Basic
import Rollout.Number.Shortest
import Rollout.Text.Hex

/-! JSON text. `render` writes a value without any space, `pretty` over several lines with two
spaces for each level. -/

namespace Rollout

namespace JsonNumber

/-- Leading digits at these powers of ten are written without an exponent. -/
def positional (leading : Int) : Bool := -5 ≤ leading ∧ leading < 16

/-- Digits with a point after the first one, if there are more. -/
def pointed : List Char → String
  | [] => ""
  | [d] => String.ofList [d]
  | d :: rest => String.ofList (d :: '.' :: rest)

/-- A decimal in plain notation, always with a fraction. -/
def plain (digits : List Char) (leading : Int) : String :=
  if leading < 0 then
    "0." ++ String.ofList (List.replicate (-leading - 1).toNat '0' ++ digits)
  else
    let whole := leading.toNat + 1
    let fraction := digits.drop whole
    let zeros := List.replicate (whole - digits.length) '0'
    String.ofList (digits.take whole ++ zeros) ++ "." ++
      (if fraction.isEmpty then "0" else String.ofList fraction)

/-- A decimal in scientific notation, the sign of the exponent always written. -/
def scientific (digits : List Char) (leading : Int) : String :=
  pointed digits ++ (if leading < 0 then "e-" else "e+") ++ toString leading.natAbs

/-- The shortest digits that read back. -/
def doubleText (x : FiniteDouble) : String :=
  let sign := if x.negative then "-" else ""
  if x.significand = 0 then sign ++ "0.0"
  else
    let d := Decimal.shortest x
    let digits := (toString d.digits).toList
    let leading := d.leadingExponent
    sign ++ (if positional leading then plain digits leading else scientific digits leading)

def text : JsonNumber → String
  | .integer i => toString i
  | .double x => doubleText x

end JsonNumber

namespace Json

/-- A character inside a string literal. Quotes, backslashes and control characters are escaped. -/
def escapeChar (c : Char) : List Char :=
  match c with
  | '"' => ['\\', '"']
  | '\\' => ['\\', '\\']
  | '\x08' => ['\\', 'b']
  | '\x0c' => ['\\', 'f']
  | '\n' => ['\\', 'n']
  | '\r' => ['\\', 'r']
  | '\t' => ['\\', 't']
  | c =>
    if c.toNat < 0x20 then
      ['\\', 'u', '0', '0', Text.hexDigit (c.toNat / 16), Text.hexDigit (c.toNat % 16)]
    else [c]

/-- The inside of the literal for a string. -/
def escape (s : List Char) : List Char := s.flatMap escapeChar

/-- The literal for a string. -/
def quote (s : String) : String := String.ofList ('"' :: (escape s.toList ++ ['"']))

mutual

def render : Json → String
  | .null => "null"
  | .bool true => "true"
  | .bool false => "false"
  | .number n => n.text
  | .string s => quote s
  | .array items => "[" ++ renderItems items ++ "]"
  | .object fields => "\x7b" ++ renderFields fields ++ "\x7d"

def renderItems : List Json → String
  | [] => ""
  | [item] => render item
  | item :: rest => render item ++ "," ++ renderItems rest

def renderFields : List (String × Json) → String
  | [] => ""
  | [(key, value)] => quote key ++ ":" ++ render value
  | (key, value) :: rest => quote key ++ ":" ++ render value ++ "," ++ renderFields rest

end

def indentation (level : Nat) : String := String.ofList ('\n' :: List.replicate (2 * level) ' ')

mutual

/-- A value whose own lines stand at the given level. -/
def prettyAt (level : Nat) : Json → String
  | .array [] => "[]"
  | .array items => "[" ++ prettyItems (level + 1) items ++ indentation level ++ "]"
  | .object [] => "\x7b\x7d"
  | .object fields => "\x7b" ++ prettyFields (level + 1) fields ++ indentation level ++ "\x7d"
  | .null => "null"
  | .bool true => "true"
  | .bool false => "false"
  | .number n => n.text
  | .string s => quote s

def prettyItems (level : Nat) : List Json → String
  | [] => ""
  | [item] => indentation level ++ prettyAt level item
  | item :: rest => indentation level ++ prettyAt level item ++ "," ++ prettyItems level rest

def prettyFields (level : Nat) : List (String × Json) → String
  | [] => ""
  | [(key, value)] => indentation level ++ quote key ++ ": " ++ prettyAt level value
  | (key, value) :: rest =>
    indentation level ++ quote key ++ ": " ++ prettyAt level value ++ "," ++
      prettyFields level rest

end

def pretty (value : Json) : String := prettyAt 0 value

end Json

end Rollout
