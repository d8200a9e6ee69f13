import Assay.Binary64.Shortest

/-!
# JSON numbers

A number has one of two representations, which its spelling decides: a 64-bit integer, signed or
unsigned, or a finite binary64 number.  `1` and `1.0` are different numbers in this sense, although
they compare equal and both count as integral.
-/

namespace Assay

namespace Number

/-- The least signed integer of 64 bits. -/
def least : Int := -9223372036854775808

/-- The first integer above the signed ones of 64 bits. -/
def signedBound : Int := 9223372036854775808

/-- The first integer above the unsigned ones of 64 bits. -/
def unsignedBound : Int := 18446744073709551616

end Number

/-- A JSON number: an integer that fits into 64 bits, signed or unsigned, or a binary64 number. -/
inductive Number where
  | integer (value : Int) (lower : Number.least ≤ value) (upper : value < Number.unsignedBound)
  | binary (value : Binary64)
  deriving DecidableEq, Repr

namespace Number

/-- The positional range of a binary64 number inside JSON text. -/
def layout : Binary64.Layout := { lowest := -4, highest := 16 }

/-- The binary64 number nearest to an integer.  Integers of 64 bits are far from overflow, so the
default is never used for them. -/
def nearestBinary (value : Int) : Binary64 :=
  let magnitude := (Binary64.ofNat? value.natAbs).getD default
  if value < 0 then magnitude.neg else magnitude

/-- An integer as a number; one that does not fit into 64 bits becomes a binary64 number. -/
def ofInt (value : Int) : Number :=
  if range : least ≤ value ∧ value < unsignedBound then .integer value range.1 range.2
  else .binary (nearestBinary value)

/-- The number as binary64; an integer is rounded. -/
def toBinary : Number → Binary64
  | .integer value _ _ => nearestBinary value
  | .binary value => value

/-- The integer value, if the number has the signed 64-bit representation. -/
def toSigned? : Number → Option Int
  | .integer value _ _ => if value < signedBound then some value else none
  | .binary _ => none

/-- Whether the number has no fractional part, in either representation. -/
def isIntegral : Number → Bool
  | .integer _ _ _ => true
  | .binary value => value.isIntegral

/-- Numeric equality.  Two integers compare exactly; as soon as one side is a binary64 number, both
are compared as such, so an integer is rounded first. -/
def same : Number → Number → Bool
  | .integer left _ _, .integer right _ _ => left == right
  | left, right => left.toBinary.same right.toBinary

/-- The text of a number in JSON: an integer in decimal, a binary64 number in its shortest form. -/
def text : Number → String
  | .integer value _ _ => toString value
  | .binary value => value.text layout

end Number

end Assay
