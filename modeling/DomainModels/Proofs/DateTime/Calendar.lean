import DomainModels.Calendar

/-!
Day numbers and civil dates.

The year of a day is the one whose days the day is among, and the month is found by taking away the
lengths of those before it. What is found is a date that exists and that has the number of the day.
-/

namespace DomainModels.Calendar

theorem daysIn_cons (length : Nat) (lengths : List Nat) :
    daysIn (length :: lengths) = length + daysIn lengths := rfl

/-- Years follow each other without a gap, leap years with one day more. -/
theorem daysBeforeYear_succ (year : Int) :
    daysBeforeYear (year + 1) =
      daysBeforeYear year + (daysIn (monthLengths (isLeapYear year)) : Nat) := by
  have hSum (leap : Bool) : daysIn (monthLengths leap) = if leap then 366 else 365 := by
    cases leap <;> rfl
  rw [hSum]
  by_cases hLeap : isLeapYear year = true
  · rw [if_pos hLeap]
    simp only [isLeapYear, Bool.and_eq_true, Bool.or_eq_true, decide_eq_true_eq,
      bne_iff_ne] at hLeap
    unfold daysBeforeYear
    omega
  · rw [if_neg hLeap]
    simp only [isLeapYear, Bool.and_eq_true, Bool.or_eq_true, decide_eq_true_eq,
      bne_iff_ne] at hLeap
    unfold daysBeforeYear
    omega

/-- The mean length of a year gives the year of a day up to one. -/
theorem yearOf_bounds (n : Int) :
    daysBeforeYear (yearOf n) ≤ n ∧ n < daysBeforeYear (yearOf n + 1) := by
  unfold yearOf
  simp only
  generalize hGuess : 400 * n / 146097 = guess
  have hLower : 146097 * guess ≤ 400 * n := by omega
  have hUpper : 400 * n < 146097 * (guess + 1) := by omega
  have hBefore : daysBeforeYear (guess - 1) ≤ n := by
    unfold daysBeforeYear
    omega
  have hAfter : n < daysBeforeYear (guess + 1 + 1) := by
    unfold daysBeforeYear
    omega
  split
  · rename_i hEarly
    refine ⟨hBefore, ?_⟩
    rwa [Int.sub_add_cancel]
  · rename_i hNotEarly
    split
    · rename_i hLate
      exact ⟨hLate, hAfter⟩
    · rename_i hNotLate
      exact ⟨Int.not_lt.mp hNotEarly, Int.not_le.mp hNotLate⟩

/-- From one day to the next, the year is the same or the next one. -/
theorem yearOf_le_succ {m n : Int} (hNear : m ≤ n + 1) : yearOf m ≤ yearOf n + 1 := by
  obtain ⟨hLower, _⟩ := yearOf_bounds m
  obtain ⟨_, hUpper⟩ := yearOf_bounds n
  unfold daysBeforeYear at hLower hUpper
  omega

/-- A day among those of some months lies in one of them. -/
theorem monthOf_spec {lengths : List Nat} {rest : Nat} (hRest : rest < daysIn lengths)
    (month : Nat) :
    ∃ k < lengths.length, ∃ day, monthOf lengths month rest = (month + k, day + 1) ∧
      daysIn (lengths.take k) + day = rest ∧ day < lengths.getD k 0 := by
  induction lengths generalizing month rest with
  | nil => exact absurd hRest (Nat.not_lt_zero _)
  | cons length lengths ih =>
      rw [monthOf]
      by_cases hHere : rest < length
      · refine ⟨0, by simp, rest, ?_, by simp [daysIn], by simpa using hHere⟩
        rw [if_pos hHere]
        rfl
      · have hLater : rest - length < daysIn lengths := by
          rw [daysIn_cons] at hRest
          omega
        obtain ⟨k, hK, day, hMonth, hDays, hDay⟩ := ih hLater (month + 1)
        refine ⟨k + 1, by simpa using hK, day, ?_, ?_, by simpa using hDay⟩
        · rw [if_neg hHere, hMonth]
          congr 1
          omega
        · rw [List.take_succ_cons, daysIn_cons]
          omega

/-- The date of a number exists, and has the number. -/
theorem ofDayNumber_spec (n : Int) :
    isValid (ofDayNumber n) = true ∧ dayNumber (ofDayNumber n) = n ∧
      1 ≤ (ofDayNumber n).month ∧ (ofDayNumber n).month ≤ 12 ∧ (ofDayNumber n).day ≤ 31 := by
  obtain ⟨hLower, hUpper⟩ := yearOf_bounds n
  rw [daysBeforeYear_succ] at hUpper
  have hRest : (n - daysBeforeYear (yearOf n)).toNat <
      daysIn (monthLengths (isLeapYear (yearOf n))) := by omega
  obtain ⟨k, hK, day, hMonth, hDays, hDay⟩ := monthOf_spec hRest 1
  have hTwelve : (monthLengths (isLeapYear (yearOf n))).length = 12 := rfl
  have hDate : ofDayNumber n = ⟨yearOf n, 1 + k, day + 1⟩ := by
    unfold ofDayNumber
    simp only [hMonth]
  have hLength : monthLength (yearOf n) (1 + k) =
      (monthLengths (isLeapYear (yearOf n))).getD k 0 := by
    rw [monthLength, if_neg (by omega), Nat.add_sub_cancel_left]
  have hLongest : (monthLengths (isLeapYear (yearOf n))).getD k 0 ≤ 31 := by
    have hTable : ∀ leap, ∀ k < 12, (monthLengths leap).getD k 0 ≤ 31 := by decide
    exact hTable _ k (hTwelve ▸ hK)
  rw [hDate]
  refine ⟨?_, ?_, by simp, by simp; omega, by simp; omega⟩
  · simp only [isValid, hLength, Bool.and_eq_true, decide_eq_true_eq]
    omega
  · simp only [dayNumber, daysBeforeMonth, Nat.add_sub_cancel_left]
    omega

theorem isValid_ofDayNumber (n : Int) : isValid (ofDayNumber n) = true := (ofDayNumber_spec n).1

theorem dayNumber_ofDayNumber (n : Int) : dayNumber (ofDayNumber n) = n := (ofDayNumber_spec n).2.1

/-! ## From dates to numbers and back -/

theorem daysBeforeYear_mono {year later : Int} (hYears : year ≤ later) :
    daysBeforeYear year ≤ daysBeforeYear later := by
  have hFourth : (year - 1) / 4 ≤ (later - 1) / 4 := by omega
  have hCentury : (later - 1) / 100 ≤ (year - 1) / 100 + (later - year) := by omega
  have hFourCenturies : (year - 1) / 400 ≤ (later - 1) / 400 := by omega
  unfold daysBeforeYear
  omega

/-- A day lies in one year alone. -/
theorem yearOf_eq {n year : Int} (hLower : daysBeforeYear year ≤ n)
    (hUpper : n < daysBeforeYear (year + 1)) : yearOf n = year := by
  obtain ⟨hFirst, hLast⟩ := yearOf_bounds n
  rcases Int.lt_trichotomy (yearOf n) year with hBefore | hSame | hAfter
  · have hNext := daysBeforeYear_mono (show yearOf n + 1 ≤ year by omega)
    omega
  · exact hSame
  · have hNext := daysBeforeYear_mono (show year + 1 ≤ yearOf n by omega)
    omega

/-- The days up to the end of one of some months are among the days of all of them. -/
theorem daysIn_take_le {lengths : List Nat} {k : Nat} (hK : k < lengths.length) :
    daysIn (lengths.take k) + lengths.getD k 0 ≤ daysIn lengths := by
  induction lengths generalizing k with
  | nil => exact absurd hK (Nat.not_lt_zero _)
  | cons length lengths ih =>
      cases k with
      | zero => simp [daysIn]
      | succ k =>
          have hLater := ih (Nat.lt_of_succ_lt_succ hK)
          rw [List.take_succ_cons, daysIn_cons, daysIn_cons, List.getD_cons_succ]
          omega

/-- A day of one of some months is found there. -/
theorem monthOf_of_take {lengths : List Nat} {k day : Nat} (hK : k < lengths.length)
    (hDay : day < lengths.getD k 0) (month : Nat) :
    monthOf lengths month (daysIn (lengths.take k) + day) = (month + k, day + 1) := by
  induction lengths generalizing k month with
  | nil => exact absurd hK (Nat.not_lt_zero _)
  | cons length lengths ih =>
      cases k with
      | zero =>
          have hHere : day < length := hDay
          simp [monthOf, daysIn, hHere]
      | succ k =>
          have hLater := ih (Nat.lt_of_succ_lt_succ hK) hDay (month + 1)
          rw [List.take_succ_cons, daysIn_cons, monthOf, if_neg (by omega), Nat.add_assoc,
            Nat.add_sub_cancel_left, hLater, Nat.add_right_comm, Nat.add_assoc]

/-- A date that exists is the one that has its number. -/
theorem ofDayNumber_dayNumber {d : CivilDate} (hValid : isValid d = true) :
    ofDayNumber (dayNumber d) = d := by
  obtain ⟨year, month, day⟩ := d
  simp only [isValid, Bool.and_eq_true, decide_eq_true_eq] at hValid
  obtain ⟨hFirst, hLast⟩ := hValid
  have hMonth : month ≠ 0 := by
    rintro rfl
    rw [monthLength, if_pos rfl] at hLast
    omega
  rw [monthLength, if_neg hMonth] at hLast
  have hTwelve : (monthLengths (isLeapYear year)).length = 12 := rfl
  have hK : month - 1 < (monthLengths (isLeapYear year)).length := by
    refine Nat.lt_of_not_le fun hBeyond => ?_
    rw [List.getD_eq_getElem?_getD, List.getElem?_eq_none hBeyond, Option.getD_none] at hLast
    omega
  have hWithin := daysIn_take_le hK
  have hNumber : dayNumber ⟨year, month, day⟩ = daysBeforeYear year +
      ((daysIn ((monthLengths (isLeapYear year)).take (month - 1)) + (day - 1) : Nat) : Int) := by
    simp only [dayNumber, daysBeforeMonth]
    omega
  have hYear : yearOf (dayNumber ⟨year, month, day⟩) = year := by
    refine yearOf_eq ?_ ?_
    · rw [hNumber]
      omega
    · rw [hNumber, daysBeforeYear_succ]
      omega
  have hRest : (dayNumber ⟨year, month, day⟩ - daysBeforeYear year).toNat =
      daysIn ((monthLengths (isLeapYear year)).take (month - 1)) + (day - 1) := by
    rw [hNumber]
    omega
  unfold ofDayNumber
  simp only [hYear, hRest, monthOf_of_take hK (show day - 1 < _ by omega) 1]
  congr 1 <;> omega

end DomainModels.Calendar
