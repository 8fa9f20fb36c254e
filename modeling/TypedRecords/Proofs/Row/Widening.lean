import TypedRecords.Proofs.Calendar.Agreement
import TypedRecords.Proofs.Row.Range
/-!
# Date columns read as timestamps

A calendar date means the same day to the readers of both column types, so its instant is kept where a date column
becomes one of timestamps. A time of day means the same instant with a `Z` behind it and without it.
-/

namespace TypedRecords.Decode

open Calendar (plainDate? looseDateTime? microsPerDay)

variable {s : String} {d : Calendar.CivilDate}

theorem date_plain (h : plainDate? s.toList = some d) : date s = .ok d.dayNumber := by
  rw [date, Calendar.read_date_plain h]

theorem timestamp_plain (h : plainDate? s.toList = some d) : timestamp s = .ok (d.dayNumber * microsPerDay) := by
  rw [timestamp, Calendar.read_timestamp_plain h]

/-- The text of a date is not empty, so no column reads it as null. -/
theorem plain_not_null (o : Options) (t : DataType) (h : plainDate? s.toList = some d) :
    isNullFor o t (.str s) = false := by
  have hne : s.isEmpty = false := by
    rw [Bool.eq_false_iff, ne_eq, String.isEmpty_iff]
    rintro rfl
    contradiction
  rw [isNullFor, hne, Bool.false_and, Bool.false_and]

theorem value_plain (o : Options) (h : plainDate? s.toList = some d) : ∃ (days : Int32) (micros : Int64),
    value o .date (.str s) = .ok (.date days) ∧ value o .timestamp (.str s) = .ok (.timestamp micros) ∧
      micros.toInt = days.toInt * microsPerDay := by
  have hdays := (date_inv (date_plain h)).2
  have hmicros := (timestamp_inv (timestamp_plain h)).2
  refine ⟨Int32.ofInt d.dayNumber, Int64.ofInt (d.dayNumber * microsPerDay), ?_, ?_, ?_⟩
  · have hscalar : IsScalar .date := trivial
    rw [value_scalar hscalar (plain_not_null o .date h), scalar, date_plain h]
    rfl
  · have hscalar : IsScalar .timestamp := trivial
    rw [value_scalar hscalar (plain_not_null o .timestamp h), scalar, timestamp_plain h]
    rfl
  · rw [Int32.toInt_ofInt_of_le hdays.1 hdays.2, Int64.toInt_ofInt_of_le hmicros.1 hmicros.2]

/-- A calendar date without a time of day is a day to one reader and the midnight of that day to the other, also in the
columns that dates and timestamps merge to. A date and a time of day mean one instant, whether or not a `Z` follows. -/
theorem temporal_readers_agree :
    (∀ s d, plainDate? s.toList = some d →
      ∃ days, date s = .ok days ∧ timestamp s = .ok (days * 86400000000)) ∧
    (∀ o s d, plainDate? s.toList = some d → ∃ (days : Int32) (micros : Int64),
      value o .date (.str s) = .ok (.date days) ∧
        value o (DataType.merge .date .timestamp) (.str s) = .ok (.timestamp micros) ∧
          micros.toInt = days.toInt * 86400000000) ∧
    (∀ s d clock, looseDateTime? s.toList = some (d, clock) →
      ∃ micros, timestamp s = .ok micros ∧ timestamp (s ++ "Z") = .ok micros) := by
  have hday : microsPerDay = 86400000000 := rfl
  refine ⟨?_, ?_, ?_⟩
  · intro s d h
    have hmidnight := timestamp_plain h
    rw [hday] at hmidnight
    exact ⟨d.dayNumber, date_plain h, hmidnight⟩
  · intro o s d h
    have hmerge : DataType.merge .date .timestamp = .timestamp := rfl
    rw [hmerge]
    exact value_plain o h
  · intro s d clock h
    refine ⟨Calendar.instant d clock, ?_, ?_⟩
    · rw [timestamp, Calendar.read_timestamp_loose h]
    · rw [timestamp, Calendar.read_timestamp_zulu h]

/-- A signed year with a blank in front of the day, and a leap second behind a blank, which is no strict timestamp until a
`Z` makes it one. -/
theorem temporal_readers_agree_forms :
    (plainDate? "+12024-1- 05".toList = some ⟨12024, 1, 5⟩ ∧ date "+12024-1- 05" = .ok 3672152 ∧
      timestamp "+12024-1- 05" = .ok (3672152 * 86400000000) ∧
      value {} .date (.str "+12024-1- 05") = .ok (.date 3672152) ∧
      value {} (DataType.merge .date .timestamp) (.str "+12024-1- 05") = .ok (.timestamp 317273932800000000)) ∧
    (looseDateTime? "2016-12-31 23:59:60.5".toList = some (⟨2016, 12, 31⟩, 86400500000) ∧
      Calendar.strictTimestamp? "2016-12-31 23:59:60.5".toList = none ∧
      Calendar.strictTimestamp? "2016-12-31 23:59:60.5Z".toList = some 1483228800500000 ∧
      timestamp "2016-12-31 23:59:60.5Z" = timestamp "2016-12-31 23:59:60.5") := by
  obtain ⟨hreaders, hcolumns, hzulu⟩ := temporal_readers_agree
  have hplain : plainDate? "+12024-1- 05".toList = some ⟨12024, 1, 5⟩ := by decide
  have hloose : looseDateTime? "2016-12-31 23:59:60.5".toList = some (⟨2016, 12, 31⟩, 86400500000) := by decide
  have hdate : date "+12024-1- 05" = .ok 3672152 := by decide
  have hcolumn : value {} .date (.str "+12024-1- 05") = .ok (.date 3672152) := by rfl
  obtain ⟨days, hdays, hmidnight⟩ := hreaders _ _ hplain
  obtain rfl := Except.ok.inj (hdate.symm.trans hdays)
  obtain ⟨word, micros, hword, hmicros, heq⟩ := hcolumns {} _ _ hplain
  obtain rfl := Value.date.inj (Except.ok.inj (hcolumn.symm.trans hword))
  obtain rfl : micros = 317273932800000000 := Int64.toInt_inj.mp heq
  obtain ⟨instant, hwithout, hwith⟩ := hzulu _ _ _ hloose
  refine ⟨⟨hplain, hdate, hmidnight, hcolumn, hmicros⟩, hloose, by decide, by decide, ?_⟩
  rw [hwithout]
  exact hwith

end TypedRecords.Decode
