import Assay.Fraction

/-!
# Finite binary64 numbers

A JSON number that is not a 64-bit integer is a finite IEEE 754 binary64 number.  This module holds
those numbers as plain data and computes on them exactly: every operation forms the exact fraction
first and rounds once, to the nearest number and to the even significand on a tie.

The non-negative finite numbers are linearly ordered, so one of them is given by its *rank*, the
number of smaller ones.  The rank is also the lower 63 bits of the usual encoding, which is why the
significand and the exponent can be read off it by division.
-/

namespace Assay

namespace Binary64

/-- The number of magnitudes that share an exponent, `2 ^ 52`. -/
def binade : Nat := 4503599627370496

/-- The number of finite magnitudes: there are 2047 exponents, counting that of the subnormal
numbers. -/
def rankBound : Nat := 2047 * binade

/-- The lowest exponent of a significand of 53 bits. -/
def lowestExponent : Int := -1074

end Binary64

/-- A finite binary64 number: a sign and the rank of its magnitude.  Zero has rank 0 and keeps its
sign. -/
structure Binary64 where
  negative : Bool
  rank : Nat
  rank_lt : rank < Binary64.rankBound
  deriving DecidableEq, Repr

namespace Binary64

/-- Zero, with the given sign. -/
def zero (negative : Bool) : Binary64 := ⟨negative, 0, by decide⟩

instance : Inhabited Binary64 := ⟨zero false⟩

/-- The same magnitude with the other sign. -/
def neg (number : Binary64) : Binary64 := { number with negative := !number.negative }

/-- Whether the number is zero, of either sign. -/
def isZero (number : Binary64) : Bool := number.rank == 0

/-- The integer significand: the magnitude is the significand times two to the power of the
exponent. -/
def significand (number : Binary64) : Nat :=
  if number.rank < binade then number.rank else number.rank % binade + binade

/-- The exponent that belongs to the significand.  Subnormal numbers have the lowest one. -/
def exponent (number : Binary64) : Int :=
  if number.rank < binade then lowestExponent
  else lowestExponent + (number.rank / binade : Nat) - 1

/-- The magnitude as an exact fraction. -/
def magnitude (number : Binary64) : Fraction :=
  { numerator := number.significand : Fraction }.scale 2 number.exponent

/-- The exponent at which a positive fraction has a significand of 53 bits, or the lowest exponent
if the fraction is too small for that.  The logarithm leaves two exponents to choose from, and one
comparison tells them apart. -/
def unitExponent (fraction : Fraction) : Int :=
  let guess := max lowestExponent (fraction.logarithm - 53)
  if 2 * binade ≤ (fraction.scale 2 (-guess)).floor then guess + 1 else guess

/-- The rank of the magnitude nearest to a fraction.  A significand that rounds up to 54 bits carries
into the exponent by itself, because the ranks of neighbouring exponents follow each other. -/
def nearestRank (fraction : Fraction) : Nat :=
  if fraction.numerator = 0 then 0
  else
    let exponent := unitExponent fraction
    (exponent - lowestExponent).toNat * binade + (fraction.scale 2 (-exponent)).nearest

/-- The number nearest to a signed fraction, or nothing if the fraction rounds beyond the largest
finite number. -/
def ofFraction? (negative : Bool) (fraction : Fraction) : Option Binary64 :=
  let rank := nearestRank fraction
  if finite : rank < rankBound then some ⟨negative, rank, finite⟩ else none

/-- The number nearest to a natural number. -/
def ofNat? (value : Nat) : Option Binary64 := ofFraction? false { numerator := value }

/-- The product, rounded once. -/
def mul? (left right : Binary64) : Option Binary64 :=
  ofFraction? (left.negative != right.negative) (left.magnitude.mul right.magnitude)

/-- The quotient by a number other than zero, rounded once. -/
def div? (left right : Binary64) : Option Binary64 :=
  ofFraction? (left.negative != right.negative) (left.magnitude.div right.magnitude)

/-- Numeric equality: the two zeros are equal, and otherwise sign and magnitude agree. -/
def same (left right : Binary64) : Bool :=
  left.rank == right.rank && (left.negative == right.negative || left.isZero)

/-- Whether the number has no fractional part. -/
def isIntegral (number : Binary64) : Bool := number.magnitude.isWhole

end Binary64

end Assay
