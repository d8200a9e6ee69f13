import Assay.Digits

/-!
# RFC 3339 timestamps

Whether a text is a timestamp such as `2024-01-15T10:30:00Z`: a date of the Gregorian calendar, a
time of day, an optional fraction of a second and an offset from universal time.  Calendar and clock
fields have a fixed width, so the text is read by position up to the seconds.  A second may be 60 at
any minute, and an offset is less than a day.
-/

namespace Assay.Timestamp

/-- The number that a run of decimal digits spells. -/
def number? (digits : List Char) : Option Nat := Digits.read? 10 digits

/-- Whether a year of the Gregorian calendar, extended backwards, has a 29 February. -/
def isLeapYear (year : Nat) : Bool :=
  year % 4 == 0 && (year % 100 != 0 || year % 400 == 0)

/-- The number of days of a month, and 0 for a number that is no month. -/
def daysInMonth (year month : Nat) : Nat :=
  match month with
  | 1 | 3 | 5 | 7 | 8 | 10 | 12 => 31
  | 4 | 6 | 9 | 11 => 30
  | 2 => if isLeapYear year then 29 else 28
  | _ => 0

/-- Whether three numbers are a date. -/
def isDate (year month day : Nat) : Bool :=
  decide (1 ≤ day) && decide (day ≤ daysInMonth year month)

/-- Whether three numbers are a time of day. -/
def isTime (hour minute second : Nat) : Bool :=
  decide (hour < 24) && decide (minute < 60) && decide (second ≤ 60)

/-- Drops the fraction of a second from the front, if there is one.  A point needs a digit. -/
def dropFraction? (rest : List Char) : Option (List Char) :=
  match rest with
  | '.' :: digit :: rest => if digit.isDigit then some (rest.dropWhile Char.isDigit) else none
  | '.' :: [] => none
  | _ => some rest

/-- Whether a text is an offset: `Z`, or a sign, two digits for hours, a colon and two digits for
minutes.  The minus sign may also be U+2212. -/
def isOffset (offset : List Char) : Bool :=
  match offset with
  | ['Z'] | ['z'] => true
  | [sign, h₁, h₂, ':', m₁, m₂] =>
      (sign == '+' || sign == '-' || sign == '\u2212') &&
        match number? [h₁, h₂], number? [m₁, m₂] with
        | some hours, some minutes => decide (minutes < 60) && decide (hours < 24)
        | _, _ => false
  | _ => false

/-- Whether characters form a timestamp. -/
def isTimestampChars (chars : List Char) : Bool :=
  match chars with
  | y₁ :: y₂ :: y₃ :: y₄ :: '-' :: o₁ :: o₂ :: '-' :: d₁ :: d₂ :: gap ::
      h₁ :: h₂ :: ':' :: m₁ :: m₂ :: ':' :: s₁ :: s₂ :: rest =>
      let fields := do
        let year ← number? [y₁, y₂, y₃, y₄]
        let month ← number? [o₁, o₂]
        let day ← number? [d₁, d₂]
        let hour ← number? [h₁, h₂]
        let minute ← number? [m₁, m₂]
        let second ← number? [s₁, s₂]
        let offset ← dropFraction? rest
        return isDate year month day && isTime hour minute second && isOffset offset
      (gap == 'T' || gap == 't' || gap == ' ') && fields.getD false
  | _ => false

/-- Whether a text is a timestamp. -/
def isTimestamp (text : String) : Bool := isTimestampChars text.toList

end Assay.Timestamp
