import Rollout.Json.Basic
import Rollout.Text.Hex

/-! Reading JSON text. Every reader takes the characters that are left and gives what it read with
the characters after it. The fields of an object are sorted by key, and the last one of a repeated
key stays. -/

namespace Rollout

namespace Json

/-- The value of four hexadecimal digits. -/
def codeUnit? (a b c d : Char) : Option Nat := do
  return ((← Text.hexValue? a) * 16 + (← Text.hexValue? b)) * 256 +
    ((← Text.hexValue? c) * 16 + (← Text.hexValue? d))

/-- What a backslash and one letter stand for. -/
def shortEscape? : Char → Option Char
  | '"' => some '"'
  | '\\' => some '\\'
  | '/' => some '/'
  | 'b' => some '\x08'
  | 'f' => some '\x0c'
  | 'n' => some '\n'
  | 'r' => some '\r'
  | 't' => some '\t'
  | _ => none

/-- A code unit that is no character by itself. -/
def isSurrogate (unit : Nat) : Bool := 0xd800 ≤ unit ∧ unit < 0xe000

/-- The character encoded by two code units. -/
def ofSurrogates? (high low : Nat) : Option Char :=
  if 0xd800 ≤ high ∧ high < 0xdc00 ∧ 0xdc00 ≤ low ∧ low < 0xe000 then
    some (Char.ofNat (0x10000 + (high - 0xd800) * 0x400 + (low - 0xdc00)))
  else none

/-- The rest of a string literal after its opening quote: the characters that it stands for, and
what follows the closing quote. -/
def readLiteral : List Char → Option (List Char × List Char)
  | [] => none
  | '"' :: rest => some ([], rest)
  | '\\' :: 'u' :: a :: b :: c :: d :: rest => do
    let unit ← codeUnit? a b c d
    if isSurrogate unit then
      match rest with
      | '\\' :: 'u' :: e :: f :: g :: h :: rest => do
        let character ← ofSurrogates? unit (← codeUnit? e f g h)
        let (s, after) ← readLiteral rest
        some (character :: s, after)
      | _ => none
    else
      let (s, after) ← readLiteral rest
      some (Char.ofNat unit :: s, after)
  | '\\' :: c :: rest => do
    let character ← shortEscape? c
    let (s, after) ← readLiteral rest
    some (character :: s, after)
  | c :: rest =>
    if c.toNat < 0x20 ∨ c = '\\' then none
    else do
      let (s, after) ← readLiteral rest
      some (c :: s, after)

def skipBlanks (s : List Char) : List Char :=
  s.dropWhile fun c => c = ' ' ∨ c = '\t' ∨ c = '\n' ∨ c = '\r'

/-- The leading decimal digits and what follows them. -/
def digits (s : List Char) : List Char × List Char := s.span Char.isDigit

def natOfDigits (ds : List Char) : Nat :=
  ds.foldl (fun n d => 10 * n + (d.toNat - '0'.toNat)) 0

/-- A point with digits after it. -/
def readFraction : List Char → Option (Option (List Char) × List Char)
  | '.' :: rest =>
    match digits rest with
    | ([], _) => none
    | (ds, rest) => some (some ds, rest)
  | rest => some (none, rest)

/-- A power of ten. -/
def readExponent : List Char → Option (Option Int × List Char)
  | e :: rest =>
    if e = 'e' ∨ e = 'E' then
      let (negative, rest) := match rest with
        | '+' :: rest => (false, rest)
        | '-' :: rest => (true, rest)
        | rest => (false, rest)
      match digits rest with
      | ([], _) => none
      | (ds, rest) =>
        let n : Int := natOfDigits ds
        some (some (if negative then -n else n), rest)
    else some (none, e :: rest)
  | [] => some (none, [])

/-- A number. Without fraction and exponent it is an integer as long as it fits a word and is not
the negative zero. -/
def readNumber (s : List Char) : Option (JsonNumber × List Char) := do
  let (negative, rest) := match s with
    | '-' :: rest => (true, rest)
    | rest => (false, rest)
  let (whole, rest) := digits rest
  if whole.isEmpty ∨ (whole.head? = some '0' ∧ whole ≠ ['0']) then none
  let (fraction, rest) ← readFraction rest
  let (power, rest) ← readExponent rest
  let n := natOfDigits whole
  let signed : Int := if negative then -(n : Int) else n
  if fraction.isNone ∧ power.isNone ∧ JsonNumber.isWord signed ∧ ¬(negative ∧ n = 0) then
    some (.integer signed, rest)
  else
    let places := fraction.getD []
    match Double.ofDecimal negative (natOfDigits (whole ++ places))
        (power.getD 0 - (places.length : Int)) with
    | .finite x => some (.double x, rest)
    | _ => none

/-- Drops an expected word. -/
def expect : List Char → List Char → Option (List Char)
  | [], rest => some rest
  | _ :: _, [] => none
  | w :: ws, c :: rest => if w = c then expect ws rest else none

mutual

/-- A value after blanks. Each step down or onward uses up fuel, and a character at least. -/
def readValue : Nat → List Char → Option (Json × List Char)
  | 0, _ => none
  | fuel + 1, s =>
    match skipBlanks s with
    | 'n' :: rest => (expect ['u', 'l', 'l'] rest).map fun rest => (.null, rest)
    | 't' :: rest => (expect ['r', 'u', 'e'] rest).map fun rest => (.bool true, rest)
    | 'f' :: rest => (expect ['a', 'l', 's', 'e'] rest).map fun rest => (.bool false, rest)
    | '"' :: rest => (readLiteral rest).map fun (s, rest) => (.string (.ofList s), rest)
    | '[' :: rest =>
      match skipBlanks rest with
      | ']' :: rest => some (.array [], rest)
      | rest => (readItems fuel rest).map fun (items, rest) => (.array items, rest)
    | '{' :: rest =>
      match skipBlanks rest with
      | '}' :: rest => some (.object [], rest)
      | rest =>
        (readFields fuel rest).map fun (fields, rest) => (.object (Assoc.ofList fields), rest)
    | rest => (readNumber rest).map fun (n, rest) => (.number n, rest)

def readItems : Nat → List Char → Option (List Json × List Char)
  | 0, _ => none
  | fuel + 1, s => do
    let (item, rest) ← readValue fuel s
    match skipBlanks rest with
    | ',' :: rest =>
      let (items, rest) ← readItems fuel rest
      some (item :: items, rest)
    | ']' :: rest => some ([item], rest)
    | _ => none

def readFields : Nat → List Char → Option (List (String × Json) × List Char)
  | 0, _ => none
  | fuel + 1, s =>
    match skipBlanks s with
    | '"' :: rest => do
      let (key, rest) ← readLiteral rest
      match skipBlanks rest with
      | ':' :: rest =>
        let (value, rest) ← readValue fuel rest
        match skipBlanks rest with
        | ',' :: rest =>
          let (fields, rest) ← readFields fuel rest
          some ((.ofList key, value) :: fields, rest)
        | '}' :: rest => some ([(.ofList key, value)], rest)
        | _ => none
      | _ => none
    | _ => none

end

/-- Reads a whole text as one value. -/
def parse? (text : String) : Option Json :=
  let s := text.toList
  match readValue (2 * s.length + 2) s with
  | some (value, rest) => if (skipBlanks rest).isEmpty then some value else none
  | none => none

end Json

end Rollout
