import DomainModels.DateTime.Parser
import DomainModels.Names
import DomainModels.Proofs.DateTime.Calendar
import Mathlib.Algebra.Group.Nat.Defs
import Mathlib.Data.List.Basic
import Mathlib.Data.List.Induction

/-!
The wire texts of instants.

An instant is written at an offset. Where its year there has at most four digits, the text is read
as the instant at the start of its millisecond, at this offset. Other years are written with a sign,
which the strict form does not have.
-/

namespace DomainModels

namespace Text

theorem hexValue?_of_isDigit {c : Char} (hDigit : c.isDigit = true) :
    hexValue? c = some (c.toNat - '0'.toNat) ∧ c.toNat - '0'.toNat < 10 := by
  simp only [Char.isDigit, Bool.and_eq_true, decide_eq_true_eq] at hDigit
  have hLast : c.toNat ≤ '9'.toNat := hDigit.2
  refine ⟨if_pos hDigit, ?_⟩
  have hZero : '0'.toNat = 48 := rfl
  have hNine : '9'.toNat = 57 := rfl
  omega

/-- Decimal digits are read as the standard library reads them. -/
theorem numeral_eq_ofDigitChars {digits : List Char} (hDigits : ∀ c ∈ digits, c.isDigit = true) :
    numeral 10 digits = Nat.ofDigitChars 10 digits 0 := by
  have hFold (start : Nat) : digits.foldl (fun n c => n * 10 + (hexValue? c).getD 0) start =
      digits.foldl (fun n c => 10 * n + (c.toNat - '0'.toNat)) start := by
    induction digits generalizing start with
    | nil => rfl
    | cons c rest ih =>
        have hDigit := hDigits c List.mem_cons_self
        rw [List.foldl_cons, List.foldl_cons, (hexValue?_of_isDigit hDigit).1, Option.getD_some,
          Nat.mul_comm]
        exact ih (fun d hMem => hDigits d (List.mem_cons_of_mem _ hMem)) _
  rw [Nat.ofDigitChars_eq_foldl]
  exact hFold 0

/-- A number is below the power of ten that its digits leave room for. -/
theorem numeral_lt {digits : List Char} (hDigits : ∀ c ∈ digits, c.isDigit = true) :
    numeral 10 digits < 10 ^ digits.length := by
  induction digits using List.reverseRecOn with
  | nil => simp
  | append_singleton front c ih =>
      have hFront := ih fun d hMem => hDigits d (List.mem_append_left _ hMem)
      obtain ⟨hValue, hSmall⟩ := hexValue?_of_isDigit (hDigits c (by simp))
      rw [numeral_concat, hValue, Option.getD_some, List.length_append, List.length_singleton,
        Nat.pow_succ]
      omega

end Text

namespace DateTime

/-! ## Numbers -/

section

variable {width n : Nat}

theorem toList_padded (width n : Nat) : (padded width n).toList =
    List.replicate (width - (Nat.toDigits 10 n).length) '0' ++ Nat.toDigits 10 n := by
  have hLength : (toString n).length = (Nat.toDigits 10 n).length := by
    rw [← String.length_toList, Nat.toString_eq_repr, Nat.toList_repr]
  simp only [padded, String.toList_append, String.toList_ofList, hLength]
  rw [Nat.toString_eq_repr, Nat.toList_repr]

theorem isDigit_of_mem_padded {c : Char} (hMem : c ∈ (padded width n).toList) :
    c.isDigit = true := by
  rw [toList_padded, List.mem_append] at hMem
  rcases hMem with hZero | hDigit
  · rw [(List.mem_replicate.mp hZero).2]
    rfl
  · exact Nat.isDigit_of_mem_toDigits (by decide) (by decide) hDigit

theorem length_padded (hWidth : 0 < width) (hSmall : n < 10 ^ width) :
    (padded width n).toList.length = width := by
  have hLength := (Nat.length_toDigits_le_iff (b := 10) (by decide) hWidth).mpr hSmall
  rw [toList_padded, List.length_append, List.length_replicate]
  omega

theorem exists_padded (hWidth : 0 < width) (hSmall : n < 10 ^ width) :
    ∃ c rest, (padded width n).toList = c :: rest ∧ c.isDigit = true := by
  have hLength := length_padded hWidth hSmall
  obtain ⟨c, rest, hText⟩ := List.exists_cons_of_length_pos (hLength ▸ hWidth)
  exact ⟨c, rest, hText, isDigit_of_mem_padded (hText ▸ List.mem_cons_self)⟩

theorem numeral_padded (width n : Nat) : Text.numeral 10 (padded width n).toList = n := by
  rw [Text.numeral_eq_ofDigitChars fun c hMem => isDigit_of_mem_padded hMem, toList_padded,
    Nat.ofDigitChars_append, Nat.ofDigitChars_replicate_zero, Nat.mul_zero,
    Nat.ofDigitChars_ten_toDigits]

/-- The digits at the start of a text are all that there are up to the limit, or up to another
character. -/
theorem leadingDigits_append {max : Nat} {digits rest : List Char}
    (hDigits : ∀ c ∈ digits, c.isDigit = true) (hLength : digits.length ≤ max)
    (hEnd : digits.length = max ∨ ∀ c later, rest = c :: later → c.isDigit = false) :
    leadingDigits max (digits ++ rest) = digits := by
  induction digits generalizing max with
  | nil =>
      cases max with
      | zero => rfl
      | succ max =>
          cases rest with
          | nil => rfl
          | cons c later =>
              have hOther := (hEnd.resolve_left (by simp)) c later rfl
              simp [leadingDigits, hOther]
  | cons d digits ih =>
      cases max with
      | zero => simp at hLength
      | succ max =>
          rw [List.cons_append, leadingDigits, if_pos (hDigits d List.mem_cons_self)]
          rw [ih (fun c hMem => hDigits c (List.mem_cons_of_mem _ hMem)) (by simpa using hLength)
            (hEnd.imp_left (by simp))]

/-- A padded number is read back by whoever takes no more digits than it has. -/
theorem scanNumber_padded_of_le {min : Nat} (hMin : min ≤ width) (hWidth : 0 < width)
    (hSmall : n < 10 ^ width) (rest : List Char) :
    scanNumber min width ((padded width n).toList ++ rest) = some (n, rest) := by
  have hLength := length_padded hWidth hSmall
  have hLeading : leadingDigits width ((padded width n).toList ++ rest) =
      (padded width n).toList :=
    leadingDigits_append (fun c hMem => isDigit_of_mem_padded hMem) (by omega) (.inl hLength)
  simp only [scanNumber, hLeading, hLength, Nat.not_lt.mpr hMin, if_false, numeral_padded]
  rw [List.drop_append_of_le_length (by omega), List.drop_of_length_le (by omega),
    List.nil_append]

theorem scanNumber_padded (hWidth : 0 < width) (hSmall : n < 10 ^ width) (rest : List Char) :
    scanNumber width width ((padded width n).toList ++ rest) = some (n, rest) :=
  scanNumber_padded_of_le (Nat.le_refl width) hWidth hSmall rest

theorem scanChar_cons (c : Char) (rest : List Char) : scanChar c (c :: rest) = some ((), rest) :=
  if_pos rfl

/-- What is read is handed on. As a rule for `simp`, this opens what follows only once it is
reached. -/
theorem bind_of_read {read : Option α} {found : α} (hRead : read = some found)
    (next : α → Option β) : read.bind next = next found := by
  rw [hRead, Option.bind_some]

/-- Milliseconds are read back as nanoseconds. -/
theorem scanFraction_padded (hSmall : n < 1000) {rest : List Char}
    (hEnd : ∀ c later, rest = c :: later → c.isDigit = false) :
    scanFraction ('.' :: ((padded 3 n).toList ++ rest)) = some (n * 1000000, rest) := by
  have hLength : (padded 3 n).toList.length = 3 := length_padded (by decide) hSmall
  have hLeading : leadingDigits 9 ((padded 3 n).toList ++ rest) = (padded 3 n).toList :=
    leadingDigits_append (fun c hMem => isDigit_of_mem_padded hMem) (by omega) (.inr hEnd)
  have hSome : (padded 3 n).toList.isEmpty = false := by
    rw [List.isEmpty_eq_false_iff]
    rintro hNil
    simp [hNil] at hLength
  have hRest : rest.dropWhile Char.isDigit = rest := by
    cases rest with
    | nil => rfl
    | cons c later => rw [List.dropWhile_cons_of_neg (by simp [hEnd c later rfl])]
  simp only [scanFraction, scanNanos, hLeading, hLength, hSome, numeral_padded]
  rw [List.drop_append_of_le_length (by omega), List.drop_of_length_le (by omega),
    List.nil_append, hRest]
  rfl

end

/-! ## Offsets -/

/-- Offsets in seconds that texts can show: whole minutes, below a day. -/
structure IsOffset (offset : Int) : Prop where
  minutes : offset % 60 = 0
  lower : -86400 < offset
  upper : offset < 86400

theorem isOffset_effectiveOffset (minutes : Int) : IsOffset (effectiveOffset minutes) := by
  unfold effectiveOffset secondsPerDay
  split
  · exact ⟨by omega, by omega, by omega⟩
  · exact ⟨rfl, by decide, by decide⟩

/-- What follows the time of day: `Z`, or the offset. -/
def zone (offset : Int) : List Char := if offset = 0 then ['Z'] else (offsetText offset).toList

/-- An offset that is not zero is written as a sign with two digits of hours and of minutes. -/
theorem exists_zone {offset : Int} (hOffset : IsOffset offset) (hSome : offset ≠ 0) :
    ∃ sign factor, (sign = '+' ∧ factor = 1 ∨ sign = '-' ∧ factor = -1) ∧
      ∃ hours minutes : Nat, hours < 24 ∧ minutes < 60 ∧
        factor * ((hours : Int) * 3600 + (minutes : Int) * 60) = offset ∧
        zone offset = sign :: ((padded 2 hours).toList ++ ':' :: (padded 2 minutes).toList) := by
  obtain ⟨hMinutes, hLower, hUpper⟩ := hOffset
  have hWhole : (offset.natAbs / 60 / 60 * 3600 + offset.natAbs / 60 % 60 * 60 : Nat) =
      offset.natAbs := by omega
  by_cases hNegative : offset < 0
  · refine ⟨'-', -1, .inr ⟨rfl, rfl⟩, offset.natAbs / 60 / 60, offset.natAbs / 60 % 60, by omega,
      by omega, by omega, ?_⟩
    simp [zone, hSome, offsetText, hNegative]
  · refine ⟨'+', 1, .inl ⟨rfl, rfl⟩, offset.natAbs / 60 / 60, offset.natAbs / 60 % 60, by omega,
      by omega, by omega, ?_⟩
    simp [zone, hSome, offsetText, hNegative]

/-- The offset is read back. -/
theorem scanOffset_zone {offset : Int} (hOffset : IsOffset offset) :
    scanOffset (zone offset) = some (offset, []) := by
  by_cases hNone : offset = 0
  · subst hNone
    rfl
  · obtain ⟨sign, factor, hSign, hours, minutes, hHours, hMinutes, hSame, hZone⟩ :=
      exists_zone hOffset hNone
    have hHoursRead := scanNumber_padded (by decide) (show hours < 10 ^ 2 by omega)
      (':' :: (padded 2 minutes).toList)
    have hMinutesRead := scanNumber_padded (by decide) (show minutes < 10 ^ 2 by omega) []
    rw [List.append_nil] at hMinutesRead
    rw [hZone]
    rcases hSign with ⟨rfl, rfl⟩ | ⟨rfl, rfl⟩
    · simp [scanOffset, hHoursRead, scanChar, hMinutesRead, hHours, hMinutes, ← hSame]
    · simp [scanOffset, hHoursRead, scanChar, hMinutesRead, hHours, hMinutes, ← hSame]

/-- An offset does not begin with a digit. -/
theorem isDigit_of_zone {offset : Int} (hOffset : IsOffset offset) {c : Char} {later : List Char}
    (hZone : zone offset = c :: later) : c.isDigit = false := by
  by_cases hNone : offset = 0
  · subst hNone
    cases hZone
    rfl
  · obtain ⟨sign, _, hSign, _, _, _, _, _, hText⟩ := exists_zone hOffset hNone
    rw [hText] at hZone
    cases hZone
    rcases hSign with ⟨rfl, _⟩ | ⟨rfl, _⟩ <;> rfl

/-- A text with a separator in the right place has the strict form if it ends in an offset. -/
theorem isStrictForm_of_zone {offset : Int} (hOffset : IsOffset offset) {text : String}
    {front : List Char} (hSeparator : text.toList[10]? = some 'T')
    (hText : text.toList = front ++ zone offset) : isStrictForm text = true := by
  simp only [isStrictForm, hSeparator, decide_true, Bool.true_and]
  by_cases hNone : offset = 0
  · subst hNone
    rw [hText, show zone 0 = ['Z'] from rfl, List.reverse_append]
    rfl
  · obtain ⟨sign, _, hSign, hours, minutes, hHours, hMinutes, _, hZone⟩ :=
      exists_zone hOffset hNone
    have hTwo {n : Nat} (hSmall : n < 10 ^ 2) : ∃ a b, (padded 2 n).toList = [a, b] :=
      List.length_eq_two.mp (length_padded (by decide) hSmall)
    obtain ⟨a, b, hFirst⟩ := hTwo (show hours < 10 ^ 2 by omega)
    obtain ⟨c, d, hLast⟩ := hTwo (show minutes < 10 ^ 2 by omega)
    have hReverse : text.toList.reverse = d :: c :: ':' :: b :: a :: sign :: front.reverse := by
      simp [hText, hZone, hFirst, hLast]
    rw [hReverse]
    split
    · rfl
    · rename_i hSame
      cases hSame
      rcases hSign with ⟨rfl, _⟩ | ⟨rfl, _⟩ <;> rfl
    · rename_i hOther
      exact absurd rfl (hOther d c b a sign front.reverse)

/-! ## Instants -/

/-- Instants that exist: a leap second can only follow a second 59. -/
structure IsProper (t : DateTime) : Prop where
  nanos : t.nanos < 2 * nanosPerSecond
  leap : nanosPerSecond ≤ t.nanos → t.seconds % 60 = 59

/-- Instants that the wire texts keep: those on a millisecond, in the years of four digits. -/
structure IsPortable (t : DateTime) : Prop where
  milliseconds : t.nanos % 1000000 = 0
  years : 0 ≤ (t.toLocal 0).date.year ∧ (t.toLocal 0).date.year ≤ 9999

/-- The instant at the start of its millisecond. -/
def truncated (t : DateTime) : DateTime := { t with nanos := t.nanos / 1000000 * 1000000 }

theorem IsProper.truncated {t : DateTime} (hProper : t.IsProper) : t.truncated.IsProper := by
  refine ⟨?_, fun hLeap => hProper.leap ?_⟩
  · have hNanos := hProper.nanos
    simp only [DateTime.truncated]
    omega
  · simp only [DateTime.truncated] at hLeap
    omega

theorem IsPortable.truncated {t : DateTime} (hPortable : t.IsPortable) : t.truncated = t := by
  have hNanos : t.nanos / 1000000 * 1000000 = t.nanos := by
    have := hPortable.milliseconds
    omega
  simp only [DateTime.truncated, hNanos]

/-- The fields stay, apart from what is below the milliseconds. -/
theorem toLocal_truncated (t : DateTime) (offset : Int) : t.truncated.toLocal offset =
    { t.toLocal offset with nanos := (t.toLocal offset).nanos / 1000000 * 1000000 } := by
  have hSecond : t.nanos / 1000000 * 1000000 / 1000000000 = t.nanos / 1000000000 := by omega
  have hMillis : t.nanos / 1000000 * 1000000 % 1000000000 =
      t.nanos % 1000000000 / 1000000 * 1000000 := by omega
  simp only [toLocal, truncated, nanosPerSecond, hSecond, hMillis]

variable {t : DateTime} {offset : Int}

/-- The fields of an instant at an offset of whole minutes. A leap second is second 60. -/
theorem toLocal_fields (hProper : t.IsProper) (hOffset : IsOffset offset) :
    ∃ inDay : Nat, (inDay : Int) = (t.seconds + offset) % 86400 ∧ inDay < 86400 ∧
      (t.toLocal offset).date =
        Calendar.ofDayNumber ((t.seconds + offset) / 86400 + Calendar.epochDay) ∧
      (t.toLocal offset).hour = inDay / 3600 ∧ (t.toLocal offset).minute = inDay / 60 % 60 ∧
      (if (t.toLocal offset).second = 60 then 59 else (t.toLocal offset).second) = inDay % 60 ∧
      (t.toLocal offset).second ≤ 60 ∧ (t.toLocal offset).nanos < nanosPerSecond ∧
      (t.toLocal offset).nanos + (if (t.toLocal offset).second = 60 then nanosPerSecond else 0) =
        t.nanos := by
  have hNanos : t.nanos < 2000000000 := hProper.nanos
  have hLeap : 1000000000 ≤ t.nanos → t.seconds % 60 = 59 := hProper.leap
  have hMinutes := hOffset.minutes
  have hSecond : (t.toLocal offset).second =
      ((t.seconds + offset) % 86400).toNat % 60 + t.nanos / 1000000000 := by
    simp [toLocal, secondsPerDay, nanosPerSecond]
  have hRest : (t.toLocal offset).nanos = t.nanos % 1000000000 := rfl
  have hBillion : nanosPerSecond = 1000000000 := rfl
  refine ⟨((t.seconds + offset) % 86400).toNat, by omega, by omega, ?_, ?_, ?_, ?_⟩
  · simp [toLocal, secondsPerDay]
  · simp [toLocal, secondsPerDay]
  · simp [toLocal, secondsPerDay]
  · rw [hSecond, hRest, hBillion]
    by_cases hLate : 1000000000 ≤ t.nanos
    · have hLast := hLeap hLate
      rw [if_pos (by omega), if_pos (by omega)]
      omega
    · rw [if_neg (by omega), if_neg (by omega)]
      omega

theorem isValidLocal_toLocal (hProper : t.IsProper) (hOffset : IsOffset offset)
    (hYears : 0 ≤ (t.toLocal offset).date.year ∧ (t.toLocal offset).date.year ≤ 9999) :
    isValidLocal (t.toLocal offset) = true := by
  obtain ⟨inDay, _, _, hDate, hHour, hMinute, _, hSecond, _⟩ := toLocal_fields hProper hOffset
  have hValid : Calendar.isValid (t.toLocal offset).date = true := by
    rw [hDate]
    exact Calendar.isValid_ofDayNumber _
  have hMin : minYear ≤ (t.toLocal offset).date.year := by
    unfold minYear
    omega
  have hMax : (t.toLocal offset).date.year ≤ maxYear := by
    unfold maxYear
    omega
  have hHours : (t.toLocal offset).hour < 24 := by omega
  have hMinutes : (t.toLocal offset).minute < 60 := by omega
  simp [isValidLocal, hValid, hMin, hMax, hHours, hMinutes, hSecond]

/-- The fields of an instant at an offset make the instant, with this offset. In UTC the year is at
most one off, so that it exists as well. -/
theorem ofLocal?_toLocal (hProper : t.IsProper) (hOffset : IsOffset offset)
    (hYears : 0 ≤ (t.toLocal offset).date.year ∧ (t.toLocal offset).date.year ≤ 9999) :
    ofLocal? (t.toLocal offset) offset = some { t with offset } := by
  obtain ⟨inDay, hInDay, hBound, hDate, hHour, hMinute, hSecond, _, _, hNanos⟩ :=
    toLocal_fields hProper hOffset
  obtain ⟨_, hLower, hUpper⟩ := hOffset
  have hDay : Calendar.dayNumber (t.toLocal offset).date - Calendar.epochDay =
      (t.seconds + offset) / 86400 := by
    rw [hDate, Calendar.dayNumber_ofDayNumber]
    omega
  have hSame : (if (t.toLocal offset).second = 60 then (59 : Int)
      else (t.toLocal offset).second) = ((inDay % 60 : Nat) : Int) := by
    rw [← hSecond]
    split <;> rfl
  have hSeconds : (t.seconds + offset) / 86400 * 86400 + ((t.toLocal offset).hour : Int) * 3600 +
      ((t.toLocal offset).minute : Int) * 60 + ((inDay % 60 : Nat) : Int) - offset =
        t.seconds := by
    rw [hHour, hMinute]
    omega
  have hAfter := Calendar.yearOf_le_succ (m := t.seconds / 86400 + Calendar.epochDay)
    (n := (t.seconds + offset) / 86400 + Calendar.epochDay) (by omega)
  have hBefore := Calendar.yearOf_le_succ (m := (t.seconds + offset) / 86400 + Calendar.epochDay)
    (n := t.seconds / 86400 + Calendar.epochDay) (by omega)
  rw [hDate] at hYears
  have hFirst : 0 ≤ Calendar.yearOf ((t.seconds + offset) / 86400 + Calendar.epochDay) := hYears.1
  have hLast : Calendar.yearOf ((t.seconds + offset) / 86400 + Calendar.epochDay) ≤ 9999 := hYears.2
  have hYear : (Calendar.ofDayNumber (t.seconds / 86400 + Calendar.epochDay)).year =
      Calendar.yearOf (t.seconds / 86400 + Calendar.epochDay) := rfl
  simp only [ofLocal?, secondsPerDay, hDay, hSame, hSeconds, hNanos, hYear]
  rw [if_pos (by unfold minYear maxYear; omega)]

/-! ## Texts of instants -/

variable {utcOffset : Int}

/-- The text of an instant, in its fields. -/
theorem toList_render {l : LocalTime} (hLocal : t.toLocal (effectiveOffset utcOffset) = l) :
    (t.render utcOffset).toList = (yearText l.date.year).toList ++ '-' ::
      ((padded 2 l.date.month).toList ++ '-' :: ((padded 2 l.date.day).toList ++ 'T' ::
      ((padded 2 l.hour).toList ++ ':' :: ((padded 2 l.minute).toList ++ ':' ::
      ((padded 2 l.second).toList ++ '.' :: ((padded 3 (l.nanos / 1000000)).toList ++
        zone (effectiveOffset utcOffset))))))) := by
  unfold render zone
  simp only [hLocal]
  split <;> simp [clockText]

/-- A year of at most four digits is written without a sign. -/
theorem yearText_of_years {year : Int} (hYears : 0 ≤ year ∧ year ≤ 9999) :
    yearText year = padded 4 year.toNat := if_pos hYears

/-- Other years are written with a sign. -/
theorem exists_yearText {year : Int} (hYears : ¬ (0 ≤ year ∧ year ≤ 9999)) :
    ∃ sign rest, (yearText year).toList = sign :: rest ∧ sign.isDigit = false := by
  rw [yearText, if_neg hYears]
  by_cases hNegative : year < 0
  · exact ⟨'-', (padded 4 year.natAbs).toList, by simp [hNegative], rfl⟩
  · exact ⟨'+', (padded 4 year.natAbs).toList, by simp [hNegative], rfl⟩

/-- The text of a portable instant starts with a digit, so that it is no name of the system. -/
theorem isSystemName_render (hPortable : t.IsPortable) : isSystemName (t.render 0) = false := by
  have hYears := hPortable.years
  generalize hLocal : t.toLocal 0 = l at hYears
  have hText := toList_render (show t.toLocal (effectiveOffset 0) = l from hLocal)
  rw [yearText_of_years hYears] at hText
  obtain ⟨first, rest, hYear, hDigit⟩ := exists_padded (show 0 < 4 by decide)
    (show l.date.year.toNat < 10 ^ 4 by omega)
  have hOther : first ≠ '$' := by
    rintro rfl
    exact absurd hDigit (by decide)
  simp [isSystemName, hText, hYear, hOther]

/-- The fields of a local time in a text, and what follows them. -/
def fieldsText (l : LocalTime) (rest : List Char) : List Char :=
  (padded 4 l.date.year.toNat).toList ++ '-' ::
    ((padded 2 l.date.month).toList ++ '-' :: ((padded 2 l.date.day).toList ++ 'T' ::
    ((padded 2 l.hour).toList ++ ':' :: ((padded 2 l.minute).toList ++ ':' ::
    ((padded 2 l.second).toList ++ '.' :: ((padded 3 (l.nanos / 1000000)).toList ++ rest))))))

/-- Fields that have their places in a text. -/
structure HasPlaces (l : LocalTime) : Prop where
  years : 0 ≤ l.date.year ∧ l.date.year ≤ 9999
  month : l.date.month < 100
  day : l.date.day < 100
  hour : l.hour < 100
  minute : l.minute < 100
  second : l.second < 100
  nanos : l.nanos < nanosPerSecond

/-- After the fields, an offset is read. What is below the milliseconds is lost. -/
theorem parseQualified?_of_fieldsText {l : LocalTime} (hPlaces : HasPlaces l) {text : String}
    {rest : List Char} (hText : text.toList = fieldsText l rest)
    (hEnd : ∀ c later, rest = c :: later → c.isDigit = false) :
    parseQualified? text = (scanOffset rest).bind fun found =>
      if found.2.isEmpty then
        (checkLocal? { l with nanos := l.nanos / 1000000 * 1000000 }).bind (ofLocal? · found.1)
      else none := by
  obtain ⟨hYears, hMonth, hDay, hHour, hMinute, hSecond, hNanos⟩ := hPlaces
  have hBillion : nanosPerSecond = 1000000000 := rfl
  rw [hBillion] at hNanos
  have hYear : ((l.date.year.toNat : Nat) : Int) = l.date.year := by omega
  have hYearRead (rest : List Char) :
      scanNumber 4 4 ((padded 4 l.date.year.toNat).toList ++ rest) =
        some (l.date.year.toNat, rest) := scanNumber_padded (by decide) (by omega) rest
  have hTwo {n : Nat} (hSmall : n < 100) (rest : List Char) :
      scanNumber 2 2 ((padded 2 n).toList ++ rest) = some (n, rest) :=
    scanNumber_padded (by decide) hSmall rest
  have hFraction := scanFraction_padded (show l.nanos / 1000000 < 1000 by omega) hEnd
  unfold parseQualified?
  rw [hText, fieldsText]
  -- Each field is read before what comes after it is looked at.
  simp only [↓Option.bind_eq_bind, ↓bind_of_read (hYearRead _),
    ↓bind_of_read (scanChar_cons _ _), ↓bind_of_read (hTwo hMonth _),
    ↓bind_of_read (hTwo hDay _), ↓bind_of_read (hTwo hHour _),
    ↓bind_of_read (hTwo hMinute _), ↓bind_of_read (hTwo hSecond _),
    ↓bind_of_read hFraction, ↓Option.bind_some, hYear]

/-- The text of an instant is read as the instant at the start of its millisecond, at the offset at
which it is written. -/
theorem parseQualified?_render (hProper : t.IsProper)
    (hYears : 0 ≤ (t.toLocal (effectiveOffset utcOffset)).date.year ∧
      (t.toLocal (effectiveOffset utcOffset)).date.year ≤ 9999) :
    parseQualified? (t.render utcOffset) =
      some { t.truncated with offset := effectiveOffset utcOffset } := by
  have hOffset := isOffset_effectiveOffset utcOffset
  obtain ⟨inDay, _, hBound, hDate, hHour, hMinute, _, hSecond, hNanos, _⟩ :=
    toLocal_fields hProper hOffset
  obtain ⟨_, _, _, hMonth, hDay⟩ := Calendar.ofDayNumber_spec
    ((t.seconds + effectiveOffset utcOffset) / 86400 + Calendar.epochDay)
  rw [← hDate] at hMonth hDay
  have hFields := toLocal_truncated t (effectiveOffset utcOffset)
  have hTruncatedYears : 0 ≤ (t.truncated.toLocal (effectiveOffset utcOffset)).date.year ∧
      (t.truncated.toLocal (effectiveOffset utcOffset)).date.year ≤ 9999 := by
    rw [hFields]
    exact hYears
  have hValid := isValidLocal_toLocal hProper.truncated hOffset hTruncatedYears
  have hLocal := ofLocal?_toLocal hProper.truncated hOffset hTruncatedYears
  rw [hFields] at hValid hLocal
  generalize hLocalTime : t.toLocal (effectiveOffset utcOffset) = l at *
  have hText := toList_render hLocalTime
  rw [yearText_of_years hYears] at hText
  have hPlaces : HasPlaces l :=
    ⟨hYears, by omega, by omega, by omega, by omega, by omega, hNanos⟩
  have hRead := parseQualified?_of_fieldsText hPlaces hText fun _ _ => isDigit_of_zone hOffset
  have hChecked : checkLocal? { l with nanos := l.nanos / 1000000 * 1000000 } = some _ :=
    if_pos hValid
  rw [hRead, scanOffset_zone hOffset, Option.bind_some, hChecked]
  exact hLocal

/-- In a year of at most four digits, the separator of the date and the time has its place. -/
theorem getElem?_render (hProper : t.IsProper)
    (hYears : 0 ≤ (t.toLocal (effectiveOffset utcOffset)).date.year ∧
      (t.toLocal (effectiveOffset utcOffset)).date.year ≤ 9999) :
    (t.render utcOffset).toList[10]? = some 'T' := by
  obtain ⟨_, _, _, hDate, _⟩ := toLocal_fields hProper (isOffset_effectiveOffset utcOffset)
  obtain ⟨_, _, _, hMonth, hDay⟩ := Calendar.ofDayNumber_spec
    ((t.seconds + effectiveOffset utcOffset) / 86400 + Calendar.epochDay)
  rw [← hDate] at hMonth hDay
  generalize hLocal : t.toLocal (effectiveOffset utcOffset) = l at *
  have hText := toList_render hLocal
  rw [yearText_of_years hYears] at hText
  have hYearLength : (padded 4 l.date.year.toNat).toList.length = 4 :=
    length_padded (by decide) (by omega)
  have hMonthLength : (padded 2 l.date.month).toList.length = 2 :=
    length_padded (by decide) (by omega)
  have hDayLength : (padded 2 l.date.day).toList.length = 2 :=
    length_padded (by decide) (by omega)
  simp [hText, List.getElem?_append, hYearLength, hMonthLength, hDayLength]

/-- The strict form is written in the years of at most four digits, and the text is read as the
instant at the start of its millisecond. -/
theorem parse?_render (hProper : t.IsProper) (utcOffset : Int)
    (hYears : 0 ≤ (t.toLocal (effectiveOffset utcOffset)).date.year ∧
      (t.toLocal (effectiveOffset utcOffset)).date.year ≤ 9999) (defaultOffset : Int) :
    parse? (t.render utcOffset) true defaultOffset =
      some { t.truncated with offset := effectiveOffset utcOffset } := by
  have hText := toList_render (rfl : t.toLocal (effectiveOffset utcOffset) = _)
  simp only [← List.append_assoc, ← List.cons_append] at hText
  have hForm := isStrictForm_of_zone (isOffset_effectiveOffset utcOffset)
    (getElem?_render hProper hYears) hText
  rw [parse?, if_pos rfl, if_pos hForm]
  exact parseQualified?_render hProper hYears

/-- A text that does not begin with a digit is not of the strict form. -/
theorem parse?_eq_none_of_start {text : String} {c : Char} {rest : List Char}
    (hText : text.toList = c :: rest) (hStart : c.isDigit = false) (defaultOffset : Int) :
    parse? text true defaultOffset = none := by
  have hYear : scanNumber 4 4 text.toList = none := by
    rw [hText]
    simp [scanNumber, leadingDigits, hStart]
  have hQualified : parseQualified? text = none := by
    unfold parseQualified?
    rw [hYear]
    rfl
  rw [parse?, if_pos rfl, hQualified]
  split <;> rfl

/-- A portable instant is read from its text in UTC as it was, with UTC as its offset. -/
theorem IsPortable.parse?_render (hPortable : t.IsPortable) (hProper : t.IsProper) :
    parse? (t.render 0) true 0 = some { t with offset := 0 } := by
  rw [DateTime.parse?_render hProper 0 hPortable.years, hPortable.truncated]
  rfl

/-- The text of an instant in a year of four digits is read as an instant. -/
theorem exists_parse?_render (hProper : t.IsProper)
    (hYears : 0 ≤ (t.toLocal 0).date.year ∧ (t.toLocal 0).date.year ≤ 9999) :
    ∃ read, parse? (t.render 0) true 0 = some read :=
  ⟨_, parse?_render hProper 0 hYears 0⟩

/-! ## What is read -/

theorem leadingDigits_spec (max : Nat) (cs : List Char) :
    (leadingDigits max cs).length ≤ max ∧ ∀ c ∈ leadingDigits max cs, c.isDigit = true := by
  induction max generalizing cs with
  | zero => simp [leadingDigits]
  | succ max ih =>
      cases cs with
      | nil => simp [leadingDigits]
      | cons c rest =>
          rw [leadingDigits]
          split
          · rename_i hDigit
            obtain ⟨hLength, hDigits⟩ := ih rest
            refine ⟨by simpa using hLength, ?_⟩
            intro d hMem
            rcases List.mem_cons.mp hMem with rfl | hMem
            · exact hDigit
            · exact hDigits d hMem
          · simp

/-- A fraction is less than a second. -/
theorem scanNanos_lt {cs rest : List Char} {nanos : Nat}
    (hScan : scanNanos cs = some (nanos, rest)) : nanos < nanosPerSecond := by
  obtain ⟨hLength, hDigits⟩ := leadingDigits_spec 9 cs
  simp only [scanNanos] at hScan
  split at hScan
  · cases hScan
  · cases hScan
    have hValue := Text.numeral_lt hDigits
    calc Text.numeral 10 (leadingDigits 9 cs) * 10 ^ (9 - (leadingDigits 9 cs).length)
        < 10 ^ (leadingDigits 9 cs).length * 10 ^ (9 - (leadingDigits 9 cs).length) :=
          Nat.mul_lt_mul_of_pos_right hValue (Nat.pow_pos (by decide))
      _ = nanosPerSecond := by
          rw [← Nat.pow_add, Nat.add_sub_cancel' hLength]
          rfl

theorem scanFraction_lt {cs rest : List Char} {nanos : Nat}
    (hScan : scanFraction cs = some (nanos, rest)) : nanos < nanosPerSecond := by
  unfold scanFraction at hScan
  split at hScan
  · exact scanNanos_lt hScan
  · cases hScan
    decide

/-- Offsets are whole minutes. -/
theorem scanOffset_minutes {cs rest : List Char} {offset : Int}
    (hScan : scanOffset cs = some (offset, rest)) : offset % 60 = 0 := by
  have hSigned (sign : Int) (hours minutes : Nat) :
      sign * ((hours : Int) * 3600 + (minutes : Int) * 60) % 60 = 0 := by
    have hWhole : (hours : Int) * 3600 + (minutes : Int) * 60 = (hours * 60 + minutes) * 60 := by
      omega
    rw [hWhole, ← Int.mul_assoc, Int.mul_emod_left]
  unfold scanOffset at hScan
  simp only [Option.bind_eq_bind] at hScan
  split at hScan
  · cases hScan
    rfl
  · cases hScan
    rfl
  · simp only [Option.bind_eq_some_iff, Option.ite_none_right_eq_some] at hScan
    obtain ⟨⟨hours, _⟩, _, _, _, ⟨minutes, _⟩, _, _, hSame⟩ := hScan
    cases hSame
    exact hSigned 1 hours minutes
  · simp only [Option.bind_eq_some_iff, Option.ite_none_right_eq_some] at hScan
    obtain ⟨⟨hours, _⟩, _, _, _, ⟨minutes, _⟩, _, _, hSame⟩ := hScan
    cases hSame
    exact hSigned (-1) hours minutes
  · simp only [Option.bind_eq_some_iff, Option.ite_none_right_eq_some] at hScan
    obtain ⟨⟨hours, _⟩, _, _, _, ⟨minutes, _⟩, _, _, hSame⟩ := hScan
    cases hSame
    exact hSigned (-1) hours minutes
  · cases hScan

/-- The fields of a local time make an instant that exists. -/
theorem isProper_of_ofLocal? {l : LocalTime} {offset : Int} {t : DateTime}
    (hNanos : l.nanos < nanosPerSecond) (hOffset : offset % 60 = 0)
    (hLocal : ofLocal? l offset = some t) : t.IsProper := by
  have hBillion : nanosPerSecond = 1000000000 := rfl
  rw [hBillion] at hNanos
  unfold ofLocal? at hLocal
  simp only [secondsPerDay, hBillion] at hLocal
  generalize Calendar.dayNumber l.date - Calendar.epochDay = day at hLocal
  by_cases hLeap : l.second = 60
  · simp only [hLeap, if_true] at hLocal
    obtain ⟨-, hSame⟩ := Option.ite_none_right_eq_some.mp hLocal
    cases hSame
    refine ⟨?_, fun _ => ?_⟩
    · show l.nanos + 1000000000 < 2 * 1000000000
      omega
    · show (day * 86400 + (l.hour : Int) * 3600 + (l.minute : Int) * 60 + 59 - offset) % 60 = 59
      omega
  · simp only [hLeap, if_false] at hLocal
    obtain ⟨-, hSame⟩ := Option.ite_none_right_eq_some.mp hLocal
    cases hSame
    refine ⟨?_, fun hLate => absurd hLate ?_⟩
    · show l.nanos + 0 < 2 * 1000000000
      omega
    · show ¬ 1000000000 ≤ l.nanos + 0
      omega

/-- The text of a date-time with an offset gives an instant that exists. -/
theorem isProper_of_parseQualified? {text : String} {t : DateTime}
    (hParse : parseQualified? text = some t) : t.IsProper := by
  unfold parseQualified? at hParse
  obtain ⟨⟨year, _⟩, _, hParse⟩ := Option.bind_eq_some_iff.mp hParse
  obtain ⟨_, _, hParse⟩ := Option.bind_eq_some_iff.mp hParse
  obtain ⟨⟨month, _⟩, _, hParse⟩ := Option.bind_eq_some_iff.mp hParse
  obtain ⟨_, _, hParse⟩ := Option.bind_eq_some_iff.mp hParse
  obtain ⟨⟨day, cs⟩, _, hParse⟩ := Option.bind_eq_some_iff.mp hParse
  -- Whichever of the separators there is, the rest is the same.
  dsimp only at hParse
  split at hParse
  case h_4 => cases hParse
  all_goals
    obtain ⟨_, _, hParse⟩ := Option.bind_eq_some_iff.mp hParse
    obtain ⟨⟨hour, _⟩, _, hParse⟩ := Option.bind_eq_some_iff.mp hParse
    obtain ⟨_, _, hParse⟩ := Option.bind_eq_some_iff.mp hParse
    obtain ⟨⟨minute, _⟩, _, hParse⟩ := Option.bind_eq_some_iff.mp hParse
    obtain ⟨_, _, hParse⟩ := Option.bind_eq_some_iff.mp hParse
    obtain ⟨⟨second, _⟩, _, hParse⟩ := Option.bind_eq_some_iff.mp hParse
    obtain ⟨⟨nanos, _⟩, hFraction, hParse⟩ := Option.bind_eq_some_iff.mp hParse
    obtain ⟨⟨offset, _⟩, hOffset, hParse⟩ := Option.bind_eq_some_iff.mp hParse
    obtain ⟨_, hParse⟩ := Option.ite_none_right_eq_some.mp hParse
    obtain ⟨l, hChecked, hLocal⟩ := Option.bind_eq_some_iff.mp hParse
    obtain ⟨_, hSame⟩ := Option.ite_none_right_eq_some.mp hChecked
    cases hSame
    exact isProper_of_ofLocal? (scanFraction_lt hFraction) (scanOffset_minutes hOffset) hLocal

/-- Times of day are below a second in their last field. -/
theorem parseLocal?_nanos {blank toSecond : Bool} {text : String} {l : LocalTime}
    (hParse : parseLocal? blank toSecond text = some l) : l.nanos < nanosPerSecond := by
  have hNone : 0 < nanosPerSecond := by decide
  simp only [parseLocal?, Option.bind_eq_bind, Option.bind_eq_some_iff] at hParse
  obtain ⟨⟨date, _⟩, _, _, _, ⟨hour, _⟩, _, _, _, ⟨minute, cs⟩, _, hParse⟩ := hParse
  simp only at hParse
  split at hParse
  · simp only [Option.bind_some, Option.bind_eq_some_iff, Option.ite_none_right_eq_some,
      checkLocal?] at hParse
    obtain ⟨_, _, ⟨second, _⟩, _, ⟨nanos, _⟩, hFraction, _, _, hSame⟩ := hParse
    cases hSame
    exact scanFraction_lt hFraction
  · simp only [Option.bind_some, Option.ite_none_right_eq_some, checkLocal?] at hParse
    obtain ⟨_, _, hSame⟩ := hParse
    cases hSame
    exact hNone

theorem parseAnyLocal?_nanos {text : String} {l : LocalTime}
    (hParse : parseAnyLocal? text = some l) : l.nanos < nanosPerSecond := by
  have hNone : 0 < nanosPerSecond := by decide
  simp only [parseAnyLocal?, Option.or_eq_some_iff] at hParse
  rcases hParse with h | ⟨_, h | ⟨_, h | ⟨_, h | ⟨_, hDate⟩⟩⟩⟩
  · exact parseLocal?_nanos h
  · exact parseLocal?_nanos h
  · exact parseLocal?_nanos h
  · exact parseLocal?_nanos h
  · simp only [parseDate?, Option.bind_eq_bind, Option.bind_eq_some_iff,
      Option.ite_none_right_eq_some, checkLocal?] at hDate
    obtain ⟨_, _, _, _, hSame⟩ := hDate
    cases hSame
    exact hNone

/-- What is read is an instant that exists. -/
theorem isProper_of_parse? {text : String} {strict : Bool} {defaultOffset : Int} {t : DateTime}
    (hParse : parse? text strict defaultOffset = some t) : t.IsProper := by
  have hDefault : effectiveOffset defaultOffset % 60 = 0 := by
    unfold effectiveOffset
    split
    · omega
    · rfl
  unfold parse? at hParse
  split at hParse
  · obtain ⟨_, hParse⟩ := Option.ite_none_right_eq_some.mp hParse
    exact isProper_of_parseQualified? hParse
  · rcases Option.or_eq_some_iff.mp hParse with hParse | ⟨_, hParse⟩
    · exact isProper_of_parseQualified? hParse
    · obtain ⟨l, hAny, hLocal⟩ := Option.bind_eq_some_iff.mp hParse
      exact isProper_of_ofLocal? (parseAnyLocal?_nanos hAny) hDefault hLocal

end DateTime

end DomainModels
