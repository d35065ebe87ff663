/-! Double-precision numbers as exact values, and their correctly rounded reading from decimals. All
arithmetic is on natural numbers. -/

namespace Rollout

/-- A finite double: `significand * 2 ^ exponent`, with its sign, so that the two zeros differ. The
significand stays below `2 ^ 53` and is at least `2 ^ 52` unless the exponent is the least one. -/
structure FiniteDouble where
  negative : Bool
  significand : Nat
  exponent : Int
deriving DecidableEq, Inhabited

/-- A double. -/
inductive Double
  | finite (value : FiniteDouble)
  | infinite (negative : Bool)
  | nan
deriving DecidableEq, Inhabited

namespace Double

def leastExponent : Int := -1074

def greatestExponent : Int := 971

def precision : Nat := 53

def zero (negative : Bool) : Double := .finite ⟨negative, 0, leastExponent⟩

/-- The quotient rounded to the nearest integer, a half to the even one. -/
def roundDiv (num den : Nat) : Nat :=
  let q := num / den
  let r := 2 * (num % den)
  if r < den ∨ (r = den ∧ q % 2 = 0) then q else q + 1

/-- The double with the given significand and exponent, where rounding up may have carried the
significand to `2 ^ 53`. -/
def ofRounded (negative : Bool) (significand : Nat) (exponent : Int) : Double :=
  let (significand, exponent) :=
    if significand = Nat.pow 2 precision then (Nat.pow 2 (precision - 1), exponent + 1)
    else (significand, exponent)
  if greatestExponent < exponent then .infinite negative
  else .finite ⟨negative, significand, exponent⟩

/-- The double nearest to `num / den`, ties to the even significand. -/
def ofRatio (negative : Bool) (num den : Nat) : Double :=
  if num = 0 then zero negative
  else
    let guess : Int := (num.log2 : Int) - den.log2
    -- `2 ^ guess` exceeds the ratio by less than a factor of two, or does not exceed it
    let high :=
      if 0 ≤ guess then den * Nat.pow 2 guess.toNat ≤ num
      else den ≤ num * Nat.pow 2 (-guess).toNat
    let top := if high then guess else guess - 1
    let exponent := max leastExponent (top - (precision - 1 : Nat))
    let significand :=
      if 0 ≤ exponent then roundDiv num (den * Nat.pow 2 exponent.toNat)
      else roundDiv (num * Nat.pow 2 (-exponent).toNat) den
    ofRounded negative significand exponent

/-- The double nearest to `digits * 10 ^ exponent`. Beyond `10 ^ 310` everything is infinite and
below `10 ^ -330` everything is zero, so the powers computed here stay small. -/
def ofDecimal (negative : Bool) (digits : Nat) (exponent : Int) : Double :=
  if digits = 0 then zero negative
  else
    let length : Int := (toString digits).length
    if 310 < length + exponent then .infinite negative
    else if length + exponent < -330 then zero negative
    else if 0 ≤ exponent then ofRatio negative (digits * Nat.pow 10 exponent.toNat) 1
    else ofRatio negative digits (Nat.pow 10 (-exponent).toNat)

end Double

end Rollout
