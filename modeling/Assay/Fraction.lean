/-!
# Fractions

Non-negative fractions of natural numbers, not reduced.  They carry the exact results that are
rounded to binary64 or written in decimal.
-/

namespace Assay

/-- A non-negative fraction.  Its denominator is positive wherever one is used. -/
structure Fraction where
  numerator : Nat
  denominator : Nat := 1
  deriving DecidableEq, Repr

namespace Fraction

/-- The fraction times `radix` to the power `exponent`, which may be negative. -/
def scale (fraction : Fraction) (radix : Nat) (exponent : Int) : Fraction :=
  if 0 ≤ exponent then
    { fraction with numerator := fraction.numerator * Nat.pow radix exponent.toNat }
  else { fraction with denominator := fraction.denominator * Nat.pow radix (-exponent).toNat }

/-- The product of two fractions. -/
def mul (left right : Fraction) : Fraction :=
  ⟨left.numerator * right.numerator, left.denominator * right.denominator⟩

/-- The quotient of two fractions, of which the second is not zero. -/
def div (left right : Fraction) : Fraction :=
  ⟨left.numerator * right.denominator, left.denominator * right.numerator⟩

/-- Whether one fraction is at most another. -/
def le (left right : Fraction) : Bool :=
  decide (left.numerator * right.denominator ≤ right.numerator * left.denominator)

/-- Whether one fraction is smaller than another. -/
def lt (left right : Fraction) : Bool :=
  decide (left.numerator * right.denominator < right.numerator * left.denominator)

/-- The greatest natural number that is not greater than a fraction. -/
def floor (fraction : Fraction) : Nat := fraction.numerator / fraction.denominator

/-- Whether a fraction is a natural number. -/
def isWhole (fraction : Fraction) : Bool := fraction.numerator % fraction.denominator == 0

/-- Whether a fraction is nearer to the natural number above it than to its floor.  If both are
equally near, the even one counts as nearer. -/
def roundsUp (fraction : Fraction) : Bool :=
  let twice := 2 * (fraction.numerator % fraction.denominator)
  decide (fraction.denominator < twice) ||
    (decide (fraction.denominator = twice) && decide (fraction.floor % 2 = 1))

/-- The natural number nearest to a fraction, the even one of two equally near. -/
def nearest (fraction : Fraction) : Nat :=
  if fraction.roundsUp then fraction.floor + 1 else fraction.floor

/-- The difference of the binary logarithms of numerator and denominator.  A positive fraction lies
strictly between the powers of two whose exponents are one smaller and one greater. -/
def logarithm (fraction : Fraction) : Int :=
  (fraction.numerator.log2 : Int) - fraction.denominator.log2

end Fraction

end Assay
