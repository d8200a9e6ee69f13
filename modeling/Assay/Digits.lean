/-!
# Digits

Numbers as runs of digits, in a radix of at most sixteen.  Letters stand for the digits from ten on,
in either case when they are read and in lower case when they are written.
-/

namespace Assay.Digits

/-- The value of a digit, if it is one in the radix. -/
def value? (radix : Nat) (digit : Char) : Option Nat :=
  let value :=
    if digit.isDigit then digit.toNat - 48
    else if 'a' ≤ digit ∧ digit ≤ 'f' then digit.toNat - 87
    else if 'A' ≤ digit ∧ digit ≤ 'F' then digit.toNat - 55
    else radix
  if value < radix then some value else none

/-- The number that a run of digits spells.  There is at least one digit. -/
def read? (radix : Nat) (digits : List Char) : Option Nat :=
  if digits.isEmpty then none
  else digits.foldlM (fun number digit => do return number * radix + (← value? radix digit)) 0

/-- The decimal digits of a number. -/
def decimal (number : Nat) : List Char := Nat.toDigits 10 number

/-- The hexadecimal digits of a number. -/
def hexadecimal (number : Nat) : List Char := Nat.toDigits 16 number

end Assay.Digits
