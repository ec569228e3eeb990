import DomainModels.Proofs.DateTime.Text

/-!
Local times that are read at an offset.

A text without an offset is none of the strict form, so that the lenient reader takes its fields as
a local time at the offset that it is given. Written at the same offset, the instant has this local
time again: going to UTC and back changes no field, whatever days and years lie between them.
-/

namespace DomainModels.DateTime

variable {l : LocalTime} {t : DateTime} {offset : Int}

/-! ## To an instant and back -/

theorem isValidLocal_iff : isValidLocal l = true ↔ Calendar.isValid l.date = true ∧
    minYear ≤ l.date.year ∧ l.date.year ≤ maxYear ∧ l.hour < 24 ∧ l.minute < 60 ∧
      l.second ≤ 60 := by
  simp only [isValidLocal, Bool.and_eq_true, decide_eq_true_eq, and_assoc]

/-- The second of the day. A leap second counts as the one before it. -/
def secondOfDay (l : LocalTime) : Nat :=
  l.hour * 3600 + l.minute * 60 + (if l.second = 60 then 59 else l.second)

theorem secondOfDay_lt (hValid : isValidLocal l = true) : secondOfDay l < 86400 := by
  obtain ⟨_, _, _, hHour, hMinute, hSecond⟩ := isValidLocal_iff.mp hValid
  unfold secondOfDay
  split <;> omega

/-- The seconds from the start of 1970 to a local time. -/
def localSeconds (l : LocalTime) : Int :=
  (Calendar.dayNumber l.date - Calendar.epochDay) * 86400 + (secondOfDay l : Int)

/-- A local time is taken to UTC, with what a leap second has beyond the second before it among the
nanoseconds. -/
theorem ofLocal?_eq_some : ofLocal? l offset = some t ↔
    (minYear ≤ Calendar.yearOf ((localSeconds l - offset) / 86400 + Calendar.epochDay) ∧
      Calendar.yearOf ((localSeconds l - offset) / 86400 + Calendar.epochDay) ≤ maxYear) ∧
    t = ⟨localSeconds l - offset, l.nanos + (if l.second = 60 then nanosPerSecond else 0),
      offset⟩ := by
  have hSeconds : (Calendar.dayNumber l.date - Calendar.epochDay) * 86400 + (l.hour : Int) * 3600 +
      (l.minute : Int) * 60 + (if l.second = 60 then 59 else (l.second : Int)) =
        localSeconds l := by
    unfold localSeconds secondOfDay
    split <;> omega
  simp only [ofLocal?, secondsPerDay, hSeconds, Option.ite_none_right_eq_some, Option.some.injEq,
    eq_comm (a := t)]
  rfl

/-- The local time of an instant that was made of a local time, at the same offset. -/
theorem toLocal_of_ofLocal? (hValid : isValidLocal l = true) (hNanos : l.nanos < nanosPerSecond)
    (hLocal : ofLocal? l offset = some t) : t.toLocal offset = l := by
  obtain ⟨hDate, _, _, hHour, hMinute, hSecond⟩ := isValidLocal_iff.mp hValid
  obtain ⟨_, hInstant⟩ := ofLocal?_eq_some.mp hLocal
  have hBound := secondOfDay_lt hValid
  have hBillion : nanosPerSecond = 1000000000 := rfl
  have hDay : (t.seconds + offset) / 86400 + Calendar.epochDay = Calendar.dayNumber l.date := by
    rw [hInstant]
    simp only [localSeconds]
    omega
  have hInDay : ((t.seconds + offset) % 86400).toNat = secondOfDay l := by
    rw [hInstant]
    simp only [localSeconds]
    omega
  have hTime : secondOfDay l / 3600 = l.hour ∧ secondOfDay l / 60 % 60 = l.minute ∧
      secondOfDay l % 60 = if l.second = 60 then 59 else l.second := by
    unfold secondOfDay
    split <;> refine ⟨?_, ?_, ?_⟩ <;> omega
  have hNanoseconds : t.nanos / nanosPerSecond = (if l.second = 60 then 1 else 0) ∧
      t.nanos % nanosPerSecond = l.nanos := by
    rw [hBillion] at hNanos
    rw [hInstant, hBillion]
    simp only
    split <;> omega
  have hLast : (if l.second = 60 then 59 else l.second) + (if l.second = 60 then 1 else 0) =
      l.second := by
    split <;> omega
  unfold toLocal
  simp only [secondsPerDay, hDay, hInDay, hTime, hNanoseconds, hLast,
    Calendar.ofDayNumber_dayNumber hDate]

/-- Offsets of less than a day lead to the year before or after at most, so that a local time in the
years of four digits stands for an instant. -/
theorem exists_ofLocal? (hValid : isValidLocal l = true)
    (hYears : 0 ≤ l.date.year ∧ l.date.year ≤ 9999) (hOffset : IsOffset offset) :
    ∃ t, ofLocal? l offset = some t := by
  obtain ⟨hDate, _⟩ := isValidLocal_iff.mp hValid
  have hBound := secondOfDay_lt hValid
  obtain ⟨_, hLower, hUpper⟩ := hOffset
  have hYear : Calendar.yearOf (Calendar.dayNumber l.date) = l.date.year :=
    congrArg CivilDate.year (Calendar.ofDayNumber_dayNumber hDate)
  have hAfter := Calendar.yearOf_le_succ
    (m := (localSeconds l - offset) / 86400 + Calendar.epochDay)
    (n := Calendar.dayNumber l.date) (by unfold localSeconds; omega)
  have hBefore := Calendar.yearOf_le_succ (m := Calendar.dayNumber l.date)
    (n := (localSeconds l - offset) / 86400 + Calendar.epochDay) (by unfold localSeconds; omega)
  refine ⟨_, ofLocal?_eq_some.mpr ⟨?_, rfl⟩⟩
  unfold minYear maxYear
  omega

/-! ## Texts without an offset -/

/-- A local time to the millisecond, without an offset. -/
def localText (l : LocalTime) : String :=
  padded 4 l.date.year.toNat ++ "-" ++ padded 2 l.date.month ++ "-" ++ padded 2 l.date.day ++ "T"
    ++ padded 2 l.hour ++ ":" ++ padded 2 l.minute ++ ":" ++ padded 2 l.second ++ "."
    ++ padded 3 (l.nanos / 1000000)

theorem toList_localText (l : LocalTime) : (localText l).toList = fieldsText l [] := by
  simp [localText, fieldsText]

/-- Digits are no blanks. -/
theorem isSpace_of_isDigit {c : Char} (hDigit : c.isDigit = true) :
    Unicode.isSpace c = false := by
  have hTable : ∀ n < 10, Unicode.isSpace (Char.ofNat (n + 48)) = false := by decide +kernel
  simp only [Char.isDigit, Bool.and_eq_true, decide_eq_true_eq] at hDigit
  have hFirst : 48 ≤ c.toNat := hDigit.1
  have hLast : c.toNat ≤ 57 := hDigit.2
  have hSame : Char.ofNat (c.toNat - 48 + 48) = c := by
    rw [Nat.sub_add_cancel hFirst, Char.ofNat_toNat]
  rw [← hSame]
  exact hTable _ (by omega)

section

variable {width n : Nat}

/-- There are no blanks before a number. -/
theorem dropWhile_padded (hWidth : 0 < width) (hSmall : n < 10 ^ width) (rest : List Char) :
    ((padded width n).toList ++ rest).dropWhile Unicode.isSpace =
      (padded width n).toList ++ rest := by
  obtain ⟨c, later, hText, hDigit⟩ := exists_padded hWidth hSmall
  rw [hText, List.cons_append, List.dropWhile_cons_of_neg (by simp [isSpace_of_isDigit hDigit])]

/-- Two digits are read where blanks and one digit would do as well. -/
theorem scanField_padded (hSmall : n < 100) (rest : List Char) :
    scanField ((padded 2 n).toList ++ rest) = some (n, rest) := by
  rw [scanField, dropWhile_padded (by decide) hSmall]
  exact scanNumber_padded_of_le (by decide) (by decide) hSmall rest

/-- Four digits are read where blanks, a sign and another number of digits would do as well. -/
theorem scanYear_padded (hSmall : n < 10000) (rest : List Char) :
    scanYear ((padded 4 n).toList ++ rest) = some ((n : Int), rest) := by
  have hRead := scanNumber_padded_of_le (show 1 ≤ 4 by decide) (by decide) hSmall rest
  rw [scanYear, dropWhile_padded (by decide) hSmall]
  obtain ⟨c, later, hText, hDigit⟩ := exists_padded (show 0 < 4 by decide) hSmall
  rw [hText, List.cons_append] at hRead ⊢
  split
  · rename_i hSign
    cases hSign
    cases hDigit
  · rename_i hSign
    cases hSign
    cases hDigit
  · rw [hRead]
    rfl

end

/-- The fields that are written are read, and nothing else is left. -/
theorem parseLocal?_localText (hValid : isValidLocal l = true) (hPlaces : HasPlaces l)
    (hMillis : l.nanos % 1000000 = 0) : parseLocal? false true (localText l) = some l := by
  obtain ⟨hYears, hMonth, hDay, hHour, hMinute, hSecond, hNanos⟩ := hPlaces
  have hBillion : nanosPerSecond = 1000000000 := rfl
  rw [hBillion] at hNanos
  have hYear : ((l.date.year.toNat : Nat) : Int) = l.date.year := by omega
  have hWhole : l.nanos / 1000000 * 1000000 = l.nanos := by omega
  have hYearRead := scanYear_padded (show l.date.year.toNat < 10000 by omega)
  have hDate (rest : List Char) : scanDate ((padded 4 l.date.year.toNat).toList ++ '-' ::
      ((padded 2 l.date.month).toList ++ '-' :: ((padded 2 l.date.day).toList ++ rest))) =
        some (l.date, rest) := by
    simp only [scanDate, ↓Option.bind_eq_bind, ↓bind_of_read (hYearRead _),
      ↓bind_of_read (scanChar_cons _ _), ↓bind_of_read (scanField_padded hMonth _),
      scanField_padded hDay, Option.bind_some, hYear]
  have hSeparator (rest : List Char) : scanSeparator false ('T' :: rest) = some ((), rest) := rfl
  have hFraction : scanFraction ('.' :: ((padded 3 (l.nanos / 1000000)).toList ++ [])) =
      some (l.nanos / 1000000 * 1000000, []) := scanFraction_padded (by omega) nofun
  unfold parseLocal?
  rw [toList_localText, fieldsText]
  simp only [↓Option.bind_eq_bind, ↓bind_of_read (hDate _), ↓bind_of_read (hSeparator _),
    ↓bind_of_read (scanChar_cons _ _), ↓bind_of_read (scanField_padded hHour _),
    ↓bind_of_read (scanField_padded hMinute _), ↓bind_of_read (scanField_padded hSecond _),
    ↓bind_of_read hFraction, ↓Option.bind_some, if_true, hWhole]
  exact if_pos hValid

/-- A text without an offset is not taken for one that has an offset. -/
theorem parseQualified?_localText (hPlaces : HasPlaces l) :
    parseQualified? (localText l) = none := by
  rw [parseQualified?_of_fieldsText hPlaces (toList_localText l) nofun]
  rfl

/-! ## The text again -/

theorem hasPlaces_of_isValidLocal (hValid : isValidLocal l = true)
    (hYears : 0 ≤ l.date.year ∧ l.date.year ≤ 9999) (hNanos : l.nanos < nanosPerSecond) :
    HasPlaces l := by
  obtain ⟨hDate, _, _, hHour, hMinute, hSecond⟩ := isValidLocal_iff.mp hValid
  obtain ⟨_, _, _, hMonth, hDay⟩ := Calendar.ofDayNumber_spec (Calendar.dayNumber l.date)
  rw [Calendar.ofDayNumber_dayNumber hDate] at hMonth hDay
  exact ⟨hYears, by omega, by omega, by omega, by omega, by omega, hNanos⟩

/-- An instant with the local time at an offset is written as the local text with the offset. -/
theorem render_of_toLocal {minutes : Int} (hYears : 0 ≤ l.date.year ∧ l.date.year ≤ 9999)
    (hLocal : t.toLocal (effectiveOffset minutes) = l) :
    (t.render minutes).toList = (localText l).toList ++ zone (effectiveOffset minutes) := by
  rw [toList_render hLocal, yearText_of_years hYears, toList_localText]
  simp [fieldsText]

/-- In the years of four digits, a local time of whole milliseconds is read from its text at
whatever number of minutes is given as the offset. At the same offset it is written as the same
text, which is followed by `Z` where the number comes to no offset, and by the sign, the hours and
the minutes of the offset otherwise. -/
theorem render_of_localText (hValid : isValidLocal l = true)
    (hYears : 0 ≤ l.date.year ∧ l.date.year ≤ 9999) (hNanos : l.nanos < nanosPerSecond)
    (hMillis : l.nanos % 1000000 = 0) (minutes : Int) :
    ∃ t, parse? (localText l) false minutes = some t ∧
      (effectiveOffset minutes = 0 → t.render minutes = localText l ++ "Z") ∧
      (effectiveOffset minutes ≠ 0 → ∃ sign factor,
        (sign = "+" ∧ factor = 1 ∨ sign = "-" ∧ factor = -1) ∧
        ∃ hours rest : Nat, hours < 24 ∧ rest < 60 ∧
          factor * ((hours : Int) * 3600 + (rest : Int) * 60) = effectiveOffset minutes ∧
          t.render minutes = localText l ++ sign ++ padded 2 hours ++ ":" ++ padded 2 rest) := by
  have hOffset := isOffset_effectiveOffset minutes
  have hPlaces := hasPlaces_of_isValidLocal hValid hYears hNanos
  obtain ⟨t, hLocal⟩ := exists_ofLocal? hValid hYears hOffset
  have hRead : parse? (localText l) false minutes = some t := by
    simp only [parse?, parseAnyLocal?, parseQualified?_localText hPlaces,
      parseLocal?_localText hValid hPlaces hMillis, Option.none_or, Option.some_or,
      Option.bind_some, hLocal]
    rfl
  have hText := render_of_toLocal hYears (toLocal_of_ofLocal? hValid hNanos hLocal)
  refine ⟨t, hRead, fun hNone => ?_, fun hSome => ?_⟩
  · rw [← String.toList_inj, hText, hNone, String.toList_append]
    rfl
  · obtain ⟨sign, factor, hSign, hours, rest, hHours, hRest, hSame, hZone⟩ :=
      exists_zone hOffset hSome
    refine ⟨String.singleton sign, factor, ?_, hours, rest, hHours, hRest, hSame, ?_⟩
    · rcases hSign with ⟨rfl, rfl⟩ | ⟨rfl, rfl⟩
      · exact .inl ⟨rfl, rfl⟩
      · exact .inr ⟨rfl, rfl⟩
    · rw [← String.toList_inj, hText, hZone]
      simp

/-- The first hour of the year 0 at one hour east of Greenwich, which lies in the year before in
UTC, and the end of a leap day at an offset that is out of range. -/
theorem render_of_newYear :
    isValidLocal ⟨⟨0, 1, 1⟩, 0, 30, 0, 7000000⟩ = true ∧
      (∃ t, parse? "0000-01-01T00:30:00.007" false 60 = some t ∧
        t.render 60 = "0000-01-01T00:30:00.007+01:00") ∧
      isValidLocal ⟨⟨2000, 2, 29⟩, 23, 59, 59, 999000000⟩ = true ∧
      ∃ t, parse? "2000-02-29T23:59:59.999" false (-1440) = some t ∧
        t.render (-1440) = "2000-02-29T23:59:59.999Z" := by
  have hNewYear : isValidLocal ⟨⟨0, 1, 1⟩, 0, 30, 0, 7000000⟩ = true := by decide
  have hLeapDay : isValidLocal ⟨⟨2000, 2, 29⟩, 23, 59, 59, 999000000⟩ = true := by decide
  have hFirst : localText ⟨⟨0, 1, 1⟩, 0, 30, 0, 7000000⟩ = "0000-01-01T00:30:00.007" := by
    decide +kernel
  have hSecond : localText ⟨⟨2000, 2, 29⟩, 23, 59, 59, 999000000⟩ = "2000-02-29T23:59:59.999" := by
    decide +kernel
  refine ⟨hNewYear, ?_, hLeapDay, ?_⟩
  · obtain ⟨t, hRead, _, hRender⟩ :=
      render_of_localText hNewYear (by decide) (by decide) (by decide) 60
    rw [hFirst] at hRead hRender
    obtain ⟨sign, factor, hSign, hours, rest, _, _, hSame, hText⟩ := hRender (by decide)
    have hHour : effectiveOffset 60 = 3600 := by decide
    rw [hHour] at hSame
    refine ⟨t, hRead, ?_⟩
    rcases hSign with ⟨rfl, rfl⟩ | ⟨rfl, rfl⟩
    · obtain rfl : hours = 1 := by omega
      obtain rfl : rest = 0 := by omega
      exact hText.trans (by decide +kernel)
    · omega
  · obtain ⟨t, hRead, hRender, _⟩ :=
      render_of_localText hLeapDay (by decide) (by decide) (by decide) (-1440)
    rw [hSecond] at hRead hRender
    exact ⟨t, hRead, (hRender (by decide)).trans (by decide +kernel)⟩

end DomainModels.DateTime
