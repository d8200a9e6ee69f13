import Assay.Binary64
import Assay.Digits

/-!
# The shortest decimal form of a binary64 number

A number is written with the fewest significant digits that still read back as the same number, and
among those with the digits nearest to its exact value.  The search is exact: it compares the two
decimal neighbours of the value on ever finer decimal grids with the interval of fractions that
round to the number.

How the digits are laid out, positionally or with an exponent, is a separate choice recorded in
`Layout`.
-/

namespace Assay.Binary64

/-- A positive decimal number, its digits times ten to the power of its exponent. -/
structure Decimal where
  digits : Nat
  exponent : Int
  deriving DecidableEq, Repr

/-- The exact value of a decimal number. -/
def Decimal.value (decimal : Decimal) : Fraction :=
  { numerator := decimal.digits : Fraction }.scale 10 decimal.exponent

/-- The fractions that round to a positive number.  The ends belong to them exactly if the
significand is even, since a tie goes to the even significand. -/
structure Interval where
  lower : Fraction
  value : Fraction
  upper : Fraction
  closed : Bool

/-- The interval of a number, measured in quarters of its last binary place.  Below a power of two
the next number is only half as far away, except at the lowest exponent. -/
def interval (number : Binary64) : Interval :=
  let quarters := 4 * number.significand
  let below := if number.significand = binade ∧ number.exponent ≠ lowestExponent then 1 else 2
  let measured (count : Nat) : Fraction :=
    { numerator := count : Fraction }.scale 2 (number.exponent - 2)
  { lower := measured (quarters - below)
    value := measured quarters
    upper := measured (quarters + 2)
    closed := number.significand % 2 = 0 }

/-- Whether a fraction belongs to the interval. -/
def Interval.contains (interval : Interval) (fraction : Fraction) : Bool :=
  if interval.closed then interval.lower.le fraction && fraction.le interval.upper
  else interval.lower.lt fraction && fraction.lt interval.upper

/-- The number of digits before the decimal point: the least exponent of a power of ten that is
greater than the fraction.  The logarithm gives a start that is never too large. -/
def pointPosition (fraction : Fraction) : Int :=
  let start := ((fraction.logarithm - 1) * 30103) / 100000 - 1
  let candidates := (List.range 6).map fun step => start + (step : Nat)
  let isBelow (count : Int) : Bool := fraction.lt (Decimal.value ⟨1, count⟩)
  (candidates.find? isBelow).getD (start + 6)

/-- The better of the two neighbours of the value on the grid of multiples of a power of ten, if one
of them reads back.  Of two that do, the nearer is better, and the even one on a tie. -/
def Interval.onGrid? (interval : Interval) (exponent : Int) : Option Decimal :=
  let place := interval.value.scale 10 (-exponent)
  let below : Decimal := ⟨place.floor, exponent⟩
  let above : Decimal := ⟨place.floor + 1, exponent⟩
  match interval.contains below.value, interval.contains above.value with
  | true, true => some (if place.roundsUp then above else below)
  | true, false => some below
  | false, true => some above
  | false, false => none

/-- The decimal without trailing zeros among its digits.  At most `bound` zeros are removed. -/
def Decimal.trimmed : (bound : Nat) → Decimal → Decimal
  | 0, decimal => decimal
  | bound + 1, decimal =>
      if decimal.digits % 10 = 0 then
        Decimal.trimmed bound ⟨decimal.digits / 10, decimal.exponent + 1⟩
      else decimal

/-- The number of digits that always suffices. -/
def mostDigits : Nat := 17

/-- The shortest decimal that reads back as a number other than zero: the first hit on the grids for
one digit, two digits and so on. -/
def shortest (number : Binary64) : Decimal :=
  let interval := number.interval
  let position := pointPosition interval.value
  let grids := (List.range mostDigits).map fun fewer => position - 1 - (fewer : Nat)
  ((grids.findSome? interval.onGrid?).getD ⟨0, 0⟩).trimmed mostDigits

/-- Where positional notation ends.  The position of the point is the number of digits in front of
it, or minus the number of zeros that follow it if there are none in front.  From `lowest` to
`highest` a number is written positionally, and otherwise with an exponent. -/
structure Layout where
  lowest : Int
  highest : Int

/-- The text of `count` zeros. -/
def zeros (count : Nat) : String := String.ofList (List.replicate count '0')

/-- The text of a positive decimal without trailing zeros.  A whole number keeps the fraction `.0`,
and an exponent always carries its sign. -/
def Decimal.text (layout : Layout) (decimal : Decimal) : String :=
  let digits := Digits.decimal decimal.digits
  let position : Int := digits.length + decimal.exponent
  if layout.lowest ≤ position ∧ position ≤ layout.highest then
    if 0 ≤ decimal.exponent then
      String.ofList digits ++ zeros decimal.exponent.toNat ++ ".0"
    else if 0 < position then
      String.ofList (digits.take position.toNat) ++ "." ++
        String.ofList (digits.drop position.toNat)
    else "0." ++ zeros (-position).toNat ++ String.ofList digits
  else
    let fraction := if digits.length = 1 then "" else "." ++ String.ofList (digits.drop 1)
    let power := position - 1
    String.ofList (digits.take 1) ++ fraction ++ "e" ++
      (if power < 0 then "-" else "+") ++ toString power.natAbs

/-- The text of a number; zero is `0.0`, and a negative sign is always written. -/
def text (layout : Layout) (number : Binary64) : String :=
  (if number.negative then "-" else "") ++
    if number.isZero then "0.0" else number.shortest.text layout

end Assay.Binary64
