import Assay.Binary64.Scaling
import Assay.Digits
import Assay.Json.Number

/-!
# JSON numerals

Reads the spelling of a number.  A numeral without fraction and exponent is an integer if 64 bits
hold it; every other numeral is a binary64 number, and so is `-0`, which keeps its sign.  Digits are
taken into the significand as long as 64 bits hold it, and from then on only their count matters.
-/

namespace Assay.Json

/-- Takes digits into a significand until the first one that 64 bits no longer hold.  Gives the
significand and the number of digits taken. -/
def takeDigits (significand taken : Nat) : List Char → Nat × Nat
  | [] => (significand, taken)
  | digit :: rest =>
      let next := significand * 10 + (digit.toNat - 48)
      if next ≤ Binary64.maxSignificand then takeDigits next (taken + 1) rest
      else (significand, taken)

/-- The parts of a numeral: its sign, its digits before and after the point, and its exponent. -/
structure Numeral where
  negative : Bool
  whole : List Char
  fraction : Option (List Char)
  exponent : Option Int

/-- The whole part of a numeral has at least one digit, and begins with zero only if it is zero. -/
def isWholePart : List Char → Bool
  | [] => false
  | ['0'] => true
  | digit :: _ => digit != '0'

/-- Splits digits off the front of a text. -/
def spanDigits (chars : List Char) : List Char × List Char :=
  (chars.takeWhile Char.isDigit, chars.dropWhile Char.isDigit)

/-- Reads an optional fraction: a point and at least one digit. -/
def readFraction? (chars : List Char) : Option (Option (List Char) × List Char) :=
  match chars with
  | '.' :: rest =>
      match spanDigits rest with
      | ([], _) => none
      | (digits, rest) => some (some digits, rest)
  | _ => some (none, chars)

/-- Reads an optional exponent, which ends the numeral. -/
def readExponent? (chars : List Char) : Option (Option Int) :=
  match chars with
  | [] => some none
  | mark :: rest =>
      if mark = 'e' ∨ mark = 'E' then
        let (negative, digits) : Bool × List Char :=
          match rest with
          | '-' :: digits => (true, digits)
          | '+' :: digits => (false, digits)
          | digits => (false, digits)
        (Digits.read? 10 digits).map fun size => some (if negative then -size else size)
      else none

/-- Splits the spelling of a number into its parts. -/
def Numeral.ofChars? (chars : List Char) : Option Numeral := do
  let (negative, unsigned) : Bool × List Char :=
    match chars with
    | '-' :: rest => (true, rest)
    | _ => (false, chars)
  let (whole, rest) := spanDigits unsigned
  guard (isWholePart whole)
  let (fraction, rest) ← readFraction? rest
  let exponent ← readExponent? rest
  return { negative, whole, fraction, exponent }

/-- The number that a numeral denotes, or nothing if it is too large for binary64. -/
def Numeral.toNumber? (numeral : Numeral) : Option Number :=
  let (significand, taken) := takeDigits 0 0 numeral.whole
  let beyond := numeral.whole.length - taken
  match numeral.fraction, numeral.exponent with
  | none, none =>
      if beyond = 0 then
        if numeral.negative then
          some (if significand = 0 then .binary (.zero true) else .ofInt (-significand))
        else some (.ofInt significand)
      else (Binary64.ofScaled? numeral.negative significand beyond).map .binary
  | fraction, exponent =>
      let (significand, places) := takeDigits significand 0 (fraction.getD [])
      let power : Int := (beyond : Int) - places + exponent.getD 0
      (Binary64.ofScaled? numeral.negative significand power).map .binary

end Assay.Json
