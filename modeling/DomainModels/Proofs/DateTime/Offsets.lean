import DomainModels.Proofs.DateTime.Text

/-!
Accepted date-times, written at other offsets.

An instant that was read in the strict form can be written at any offset, and its text is accepted
again as long as the year at this offset has at most four digits. Only near both ends of these years
can an offset lead out of them.
-/

namespace DomainModels.DateTime

/-- What the strict form accepts is written at any offset so that it is accepted again, as the same
instant without what is below the milliseconds, provided that its year at this offset has at most
four digits. Otherwise the text is refused. -/
theorem parse?_render_of_parse? {text : String} {defaultOffset : Int} {t : DateTime}
    (hParse : parse? text true defaultOffset = some t) (utcOffset other : Int) :
    parse? (t.render utcOffset) true other =
      if 0 ≤ (t.toLocal (effectiveOffset utcOffset)).date.year ∧
          (t.toLocal (effectiveOffset utcOffset)).date.year ≤ 9999 then
        some { t with
          nanos := t.nanos / 1000000 * 1000000
          offset := effectiveOffset utcOffset }
      else none := by
  have hProper := isProper_of_parse? hParse
  split
  · rename_i hYears
    exact parse?_render hProper utcOffset hYears other
  · rename_i hYears
    obtain ⟨sign, rest, hYear, hSign⟩ := exists_yearText hYears
    have hText := toList_render (rfl : t.toLocal (effectiveOffset utcOffset) = _)
    rw [hYear, List.cons_append] at hText
    exact parse?_eq_none_of_start hText hSign other

/-- A leap second is written in another year than the one in which it was read. -/
theorem parse?_render_leapSecond :
    parse? "2016-12-31T18:29:60.9876-05:30" true 0 = some ⟨1483228799, 1987600000, -19800⟩ ∧
    render ⟨1483228799, 1987600000, -19800⟩ 345 = "2017-01-01T05:44:60.987+05:45" ∧
    parse? "2017-01-01T05:44:60.987+05:45" true 0 = some ⟨1483228799, 1987000000, 20700⟩ := by
  have hParse : parse? "2016-12-31T18:29:60.9876-05:30" true 0 =
      some ⟨1483228799, 1987600000, -19800⟩ := by decide +kernel
  have hRender : render ⟨1483228799, 1987600000, -19800⟩ 345 =
      "2017-01-01T05:44:60.987+05:45" := by decide +kernel
  have hAgain := parse?_render_of_parse? hParse 345 0
  rw [hRender, if_pos (by decide +kernel)] at hAgain
  exact ⟨hParse, hRender, hAgain⟩

/-- The first hour of the year 0 east of Greenwich lies in the year before in UTC, whose text is not
accepted. -/
theorem parse?_render_yearZero :
    parse? "0000-01-01T00:00:00+01:00" true 0 = some ⟨-62167222800, 0, 3600⟩ ∧
    render ⟨-62167222800, 0, 3600⟩ 0 = "-0001-12-31T23:00:00.000Z" ∧
    parse? "-0001-12-31T23:00:00.000Z" true 0 = none := by
  refine ⟨?_, ?_, ?_⟩ <;> decide +kernel

end DomainModels.DateTime
