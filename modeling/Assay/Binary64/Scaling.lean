import Assay.Binary64

/-!
# Reading decimal numerals by scaling

A decimal numeral is read as a whole significand of at most 64 bits and a power of ten.  The
significand is rounded to binary64 and then multiplied or divided by the power, itself rounded to
binary64.  Each of these steps rounds, so the result can differ in its last place from the number
nearest to the numeral; the steps are therefore part of the reading rule and not only a way to
compute it.
-/

namespace Assay.Binary64

/-- The largest significand that is kept, that of 64 bits; later digits only move the decimal
point. -/
def maxSignificand : Nat := 18446744073709551615

/-- The largest power of ten that is a finite binary64 number. -/
def maxPower : Nat := 308

/-- A power of ten, rounded. -/
def powerOfTen? (exponent : Nat) : Option Binary64 := ofNat? (Nat.pow 10 exponent)

/-- Divides by the largest power of ten until the remaining exponent is within reach, and then by
what is left.  A value that has become zero stays zero. -/
def divideByPower? : (rounds : Nat) → Binary64 → (exponent : Nat) → Option Binary64
  | 0, number, exponent => do number.div? (← powerOfTen? (min exponent maxPower))
  | rounds + 1, number, exponent =>
      if exponent ≤ maxPower then do number.div? (← powerOfTen? exponent)
      else if number.isZero then some number
      else do
        let smaller ← number.div? (← powerOfTen? maxPower)
        divideByPower? rounds smaller (exponent - maxPower)

/-- The number read from a significand and a power of ten, or nothing if it is too large.  A zero
significand gives zero whatever the power. -/
def ofScaled? (negative : Bool) (significand : Nat) (exponent : Int) : Option Binary64 := do
  let base ← ofNat? significand
  let magnitude ←
    if base.isZero then some base
    else if 0 ≤ exponent then
      if exponent ≤ maxPower then do base.mul? (← powerOfTen? exponent.toNat) else none
    else divideByPower? ((-exponent).toNat / maxPower) base (-exponent).toNat
  return if negative then magnitude.neg else magnitude

end Assay.Binary64
