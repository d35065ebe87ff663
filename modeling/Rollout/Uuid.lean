import Rollout.Text.Cut
import Rollout.Text.Hex

/-! Universally unique identifiers, which name runs and objects. -/

namespace Rollout

structure Uuid where
  bits : BitVec 128
deriving DecidableEq, Inhabited

namespace Uuid

/-- The hexadecimal digits of a number, padded to a width. -/
def digits (width n : Nat) : List Char :=
  (List.range width).reverse.map fun i => Text.hexDigit (n >>> (4 * i) % 16)

/-- The sizes of the groups that hyphens separate. -/
def groupSizes : List Nat := [8, 4, 4, 4, 12]

/-- Cuts a list into groups of the given sizes. -/
def group : List Nat → List Char → List (List Char)
  | [], _ => []
  | size :: sizes, s => s.take size :: group sizes (s.drop size)

/-- The hyphenated form, in lower case. -/
def display (u : Uuid) : String :=
  .ofList (List.intercalate ['-'] (group groupSizes (digits 32 u.bits.toNat)))

instance : ToString Uuid := ⟨display⟩

def ofDigits? (ds : List Char) : Option Uuid := do
  let values ← ds.mapM Text.hexValue?
  return ⟨BitVec.ofNat 128 (values.foldl (fun n d => 16 * n + d) 0)⟩

/-- Reads 32 digits, with hyphens between the groups. -/
def ofHyphenated? (s : List Char) : Option Uuid :=
  let groups := Text.parts '-' s
  if groups.map List.length = groupSizes then ofDigits? groups.flatten else none

def urnStart : List Char := "urn:uuid:".toList

/-- Reads 32 digits, either without hyphens, or hyphenated and then possibly in braces or as a URN.
-/
def parse? (text : String) : Option Uuid :=
  let s := text.toList
  if s.length = 32 then ofDigits? s
  else if s.head? = some '{' ∧ s.getLast? = some '}' then ofHyphenated? (s.drop 1).dropLast
  else if urnStart.isPrefixOf s then ofHyphenated? (s.drop urnStart.length)
  else ofHyphenated? s

/-- The identifier of version 7 for a time in milliseconds and a random number. -/
def ofTime (milliseconds random : Nat) : Uuid :=
  ⟨BitVec.ofNat 48 milliseconds ++ (7 : BitVec 4) ++ BitVec.ofNat 12 (random >>> 62) ++
    (2 : BitVec 2) ++ BitVec.ofNat 62 random⟩

end Uuid

end Rollout
