import DomainModels.Calendar

/-!
Instants with an offset from UTC, and their texts.
-/

namespace DomainModels

/-- An instant, as the seconds since the start of 1970 in UTC, and the offset in seconds at which
it was written. From one thousand million on, the nanoseconds stand for a leap second. -/
structure DateTime where
  seconds : Int
  nanos : Nat
  offset : Int
  deriving DecidableEq, Repr

/-- A date and a time of day without an offset. A leap second is second 60. -/
structure LocalTime where
  date : CivilDate
  hour : Nat
  minute : Nat
  second : Nat
  nanos : Nat
  deriving DecidableEq, Repr

namespace DateTime

/-- Seconds of a day. -/
def secondsPerDay : Int := 86400

/-- Nanoseconds of a second. -/
def nanosPerSecond : Nat := 1000000000

/-- The offset in seconds for a number of minutes. Offsets of a day or more count as none. -/
def effectiveOffset (minutes : Int) : Int :=
  if -secondsPerDay < minutes * 60 ∧ minutes * 60 < secondsPerDay then minutes * 60 else 0

/-- The local time at an offset. -/
def toLocal (t : DateTime) (offset : Int) : LocalTime :=
  let shifted := t.seconds + offset
  let inDay := (shifted % secondsPerDay).toNat
  { date := Calendar.ofDayNumber (shifted / secondsPerDay + Calendar.epochDay)
    hour := inDay / 3600
    minute := inDay / 60 % 60
    second := inDay % 60 + t.nanos / nanosPerSecond
    nanos := t.nanos % nanosPerSecond }

/-- First and last year that instants can have. -/
def minYear : Int := -262143

def maxYear : Int := 262142

/-- The instant of a local time at an offset, unless it falls outside of the years. -/
def ofLocal? (l : LocalTime) (offset : Int) : Option DateTime :=
  let leap := l.second = 60
  let second : Int := if leap then 59 else l.second
  let day := Calendar.dayNumber l.date - Calendar.epochDay
  let seconds :=
    day * secondsPerDay + (l.hour : Int) * 3600 + (l.minute : Int) * 60 + second - offset
  let year := (Calendar.ofDayNumber (seconds / secondsPerDay + Calendar.epochDay)).year
  if minYear ≤ year ∧ year ≤ maxYear then
    some ⟨seconds, l.nanos + (if leap then nanosPerSecond else 0), offset⟩
  else none

/-! ## Texts -/

/-- A number with at least `width` digits. -/
def padded (width n : Nat) : String :=
  let digits := toString n
  String.ofList (List.replicate (width - digits.length) '0') ++ digits

/-- A year; those outside of 0 to 9999 carry a sign. -/
def yearText (year : Int) : String :=
  if 0 ≤ year ∧ year ≤ 9999 then padded 4 year.toNat
  else (if year < 0 then "-" else "+") ++ padded 4 year.natAbs

/-- The date and the time to the second. -/
def clockText (l : LocalTime) : String :=
  yearText l.date.year ++ "-" ++ padded 2 l.date.month ++ "-" ++ padded 2 l.date.day ++ "T"
    ++ padded 2 l.hour ++ ":" ++ padded 2 l.minute ++ ":" ++ padded 2 l.second

/-- An offset as a sign, hours and minutes. -/
def offsetText (offset : Int) : String :=
  let minutes := offset.natAbs / 60
  (if offset < 0 then "-" else "+") ++ padded 2 (minutes / 60) ++ ":" ++ padded 2 (minutes % 60)

/-- The wire text at an offset in minutes, to the millisecond. Without an offset it ends in `Z`. -/
def render (t : DateTime) (utcOffset : Int) : String :=
  let offset := effectiveOffset utcOffset
  let l := t.toLocal offset
  let base := clockText l ++ "." ++ padded 3 (l.nanos / 1000000)
  if offset = 0 then base ++ "Z" else base ++ offsetText offset

/-- The text at its own offset, to the nanosecond. -/
def fullText (t : DateTime) : String :=
  let l := t.toLocal t.offset
  clockText l ++ "." ++ padded 9 l.nanos ++ offsetText t.offset

end DateTime

end DomainModels
