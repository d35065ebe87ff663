import Rollout.SortedMap
import Rollout.Number.Binary64

/-! JSON values. Integers and doubles are different numbers, and an object keeps its fields in the
order in which they are listed. -/

namespace Rollout

/-- A JSON number: an integer of 64 bits, signed or not, or a finite double. -/
inductive JsonNumber
  | integer (value : Int)
  | double (value : FiniteDouble)
deriving DecidableEq, Inhabited

inductive Json
  | null
  | bool (value : Bool)
  | number (value : JsonNumber)
  | string (value : String)
  | array (items : List Json)
  | object (fields : List (String × Json))
deriving Inhabited

namespace JsonNumber

/-- The integers that stay integers when a number is read. -/
def isWord (i : Int) : Bool := Int64.minValue.toInt ≤ i ∧ i < UInt64.size

end JsonNumber

namespace Json

def ofInt (i : Int) : Json := .number (.integer i)

def ofNat (n : Nat) : Json := .number (.integer n)

/-- The text, or null. -/
def ofOption : Option String → Json
  | some s => .string s
  | none => .null

def get? (key : String) : Json → Option Json
  | .object fields => Assoc.get? key fields
  | _ => none

mutual

/-- Equality of values, fields in order. -/
def same : Json → Json → Bool
  | .null, .null => true
  | .bool a, .bool b => a = b
  | .number a, .number b => a = b
  | .string a, .string b => a = b
  | .array a, .array b => sameItems a b
  | .object a, .object b => sameFields a b
  | _, _ => false

def sameItems : List Json → List Json → Bool
  | [], [] => true
  | a :: as, b :: bs => same a b && sameItems as bs
  | _, _ => false

def sameFields : List (String × Json) → List (String × Json) → Bool
  | [], [] => true
  | (k, a) :: as, (l, b) :: bs => k = l && same a b && sameFields as bs
  | _, _ => false

end

mutual

theorem same_iff : ∀ a b : Json, same a b = true ↔ a = b
  | .null, b => by cases b <;> simp [same]
  | .bool _, b => by cases b <;> simp [same]
  | .number _, b => by cases b <;> simp [same]
  | .string _, b => by cases b <;> simp [same]
  | .array xs, b => by
    cases b with
    | array ys => simpa [same] using sameItems_iff xs ys
    | _ => simp [same]
  | .object xs, b => by
    cases b with
    | object ys => simpa [same] using sameFields_iff xs ys
    | _ => simp [same]

theorem sameItems_iff : ∀ as bs : List Json, sameItems as bs = true ↔ as = bs
  | [], bs => by cases bs <;> simp [sameItems]
  | a :: as, bs => by
    cases bs with
    | nil => simp [sameItems]
    | cons b bs => simp [sameItems, same_iff a b, sameItems_iff as bs]

theorem sameFields_iff : ∀ as bs : List (String × Json), sameFields as bs = true ↔ as = bs
  | [], bs => by cases bs <;> simp [sameFields]
  | (k, a) :: as, bs => by
    cases bs with
    | nil => simp [sameFields]
    | cons p bs =>
      obtain ⟨l, b⟩ := p
      simp [sameFields, same_iff a b, sameFields_iff as bs, and_assoc]

end

instance : DecidableEq Json := fun a b => decidable_of_iff _ (same_iff a b)

end Json

end Rollout
