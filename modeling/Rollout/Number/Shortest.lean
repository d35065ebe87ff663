import Rollout.Number.Binary64

/-! The shortest decimal that reads back as a given double, nearest to it among those of its length.
-/

namespace Rollout

/-- The number `digits * 10 ^ exponent`. -/
structure Decimal where
  digits : Nat
  exponent : Int
deriving DecidableEq, Inhabited

namespace Decimal

/-- A positive double scaled to integers: its value and the ends of the interval of numbers that
round to it, all in units of `1 / scale`. -/
structure Interval where
  value : Nat
  low : Nat
  high : Nat
  scale : Nat
  /-- The ends themselves round to the double. -/
  closed : Bool

/-- The rounding interval reaches half way to the two neighbours; the lower neighbour of a power of
two is half as far as the upper one. -/
def Interval.ofDouble (x : FiniteDouble) : Interval :=
  let below :=
    if x.significand = Nat.pow 2 (Double.precision - 1) ∧ Double.leastExponent < x.exponent then 1
    else 2
  let m := 4 * x.significand
  let shift := x.exponent - 2
  let up := Nat.pow 2 shift.toNat
  ⟨m * up, (m - below) * up, (m + 2) * up, Nat.pow 2 (-shift).toNat, x.significand % 2 = 0⟩

/-- The decimal exponent of the leading digit: the greatest `e` for which `10 ^ e` is not above the
value. The logarithm to base two places it up to one. -/
def Interval.leading (i : Interval) : Int :=
  let guess := ((i.value.log2 : Int) - i.scale.log2) * 30103 / 100000
  let notAbove (e : Int) : Bool := i.scale * Nat.pow 10 e.toNat ≤ i.value * Nat.pow 10 (-e).toNat
  if notAbove (guess + 1) then guess + 1
  else if notAbove guess then guess
  else if notAbove (guess - 1) then guess - 1
  else guess - 2

/-- The multiples of `10 ^ unit` next to the value on both sides, as far as they lie in the
interval: the nearer of them, and of two equally near ones the even one. -/
def Interval.onGrid? (i : Interval) (unit : Int) : Option Nat :=
  let widen := Nat.pow 10 (-unit).toNat
  let step := i.scale * Nat.pow 10 unit.toNat
  let value := i.value * widen
  let inside (n : Nat) : Bool :=
    if i.closed then i.low * widen ≤ n * step ∧ n * step ≤ i.high * widen
    else i.low * widen < n * step ∧ n * step < i.high * widen
  let n := value / step
  match inside n, inside (n + 1) with
  | true, true =>
    let before := value - n * step
    let after := (n + 1) * step - value
    if before < after ∨ (before = after ∧ n % 2 = 0) then some n else some (n + 1)
  | true, false => some n
  | false, true => some (n + 1)
  | false, false => none

/-- Moves trailing zeros into the exponent. -/
def trim : Nat → Nat → Int → Decimal
  | 0, digits, exponent => ⟨digits, exponent⟩
  | fuel + 1, digits, exponent =>
    if digits % 10 = 0 then trim fuel (digits / 10) (exponent + 1) else ⟨digits, exponent⟩

/-- The shortest decimal for a double that is not zero. Seventeen digits are always enough. -/
def shortest (x : FiniteDouble) : Decimal :=
  let i := Interval.ofDouble x
  let leading := i.leading
  let hit := (List.range 17).findSome? fun (n : Nat) =>
    let unit := leading - n
    (i.onGrid? unit).map fun digits => trim 18 digits unit
  hit.getD ⟨0, 0⟩

/-- The exponent of the leading digit. -/
def leadingExponent (d : Decimal) : Int :=
  d.exponent + ((toString d.digits).length : Int) - 1

end Decimal

end Rollout
