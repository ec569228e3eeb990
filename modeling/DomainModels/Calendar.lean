/-!
The proleptic Gregorian calendar.

Days are numbered from 1 January of the year 0. A day number and a civil date determine each other.
-/

namespace DomainModels

/-- A civil date. -/
structure CivilDate where
  year : Int
  month : Nat
  day : Nat
  deriving DecidableEq, Repr

namespace Calendar

/-- Every fourth year is a leap year, except for centuries that are no multiple of 400. -/
def isLeapYear (year : Int) : Bool := year % 4 = 0 && (year % 100 != 0 || year % 400 = 0)

/-- Lengths of the months of a year. -/
def monthLengths (leap : Bool) : List Nat :=
  [31, if leap then 29 else 28, 31, 30, 31, 30, 31, 31, 30, 31, 30, 31]

/-- Number of days in a month, zero for a month that does not exist. -/
def monthLength (year : Int) (month : Nat) : Nat :=
  if month = 0 then 0 else (monthLengths (isLeapYear year)).getD (month - 1) 0

/-- Number of days in the years from 0 to before `year`, negative for years before 0. -/
def daysBeforeYear (year : Int) : Int :=
  365 * year + (year - 1) / 4 - (year - 1) / 100 + (year - 1) / 400 + 1

/-- Number of days in months of the given lengths. -/
def daysIn (lengths : List Nat) : Nat := lengths.foldr (· + ·) 0

/-- Number of days in the months before `month`. -/
def daysBeforeMonth (year : Int) (month : Nat) : Nat :=
  daysIn ((monthLengths (isLeapYear year)).take (month - 1))

/-- Whether the month and the day exist in the year. -/
def isValid (d : CivilDate) : Bool := 1 ≤ d.day && d.day ≤ monthLength d.year d.month

/-- The number of a date. -/
def dayNumber (d : CivilDate) : Int :=
  daysBeforeYear d.year + (daysBeforeMonth d.year d.month : Int) + d.day - 1

/-- The number of 1 January 1970. -/
def epochDay : Int := 719528

/-- The year that contains a day. The mean length of a year gives it up to one. -/
def yearOf (n : Int) : Int :=
  let guess := 400 * n / 146097
  if n < daysBeforeYear guess then guess - 1
  else if daysBeforeYear (guess + 1) ≤ n then guess + 1
  else guess

/-- The month and the day of the month, from the months that are left, the number of the first of
them and the days left. -/
def monthOf : List Nat → Nat → Nat → Nat × Nat
  | [], month, rest => (month, rest + 1)
  | length :: lengths, month, rest =>
    if rest < length then (month, rest + 1) else monthOf lengths (month + 1) (rest - length)

/-- The date with the given number. -/
def ofDayNumber (n : Int) : CivilDate :=
  let year := yearOf n
  let (month, day) := monthOf (monthLengths (isLeapYear year)) 1 (n - daysBeforeYear year).toNat
  ⟨year, month, day⟩

end Calendar

end DomainModels
