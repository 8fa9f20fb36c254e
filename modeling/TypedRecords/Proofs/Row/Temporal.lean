import TypedRecords.Proofs.Calendar.RoundTrip
import TypedRecords.Row.Decode
import TypedRecords.Row.Encode
/-!
# Dates and timestamps as texts

The text of a date or a timestamp is read as what it was written for. Only the years of the calendar have texts, which
are fewer than the days and instants of a machine word.
-/

namespace TypedRecords

namespace Encode

theorem date_ok_iff {days : Int} :
    (∃ text, date days = .ok text) ↔ Calendar.minDay ≤ days ∧ days ≤ Calendar.maxDay := by
  by_cases h : Calendar.minDay ≤ days ∧ days ≤ Calendar.maxDay
  · simp [date, Calendar.dateText?, h]
  · simp [date, Calendar.dateText?, h]

theorem timestamp_ok_iff {micros : Int} : (∃ text, timestamp micros = .ok text) ↔ Calendar.Writable micros := by
  unfold Calendar.Writable
  by_cases h : Calendar.minDay ≤ micros / Calendar.microsPerDay ∧ micros / Calendar.microsPerDay ≤ Calendar.maxDay
  · simp [timestamp, Calendar.timestampText?, h]
  · simp [timestamp, Calendar.timestampText?, h]

end Encode

namespace Decode

theorem date_text {days : Int} {text : String} (h : Encode.date days = .ok text) : date text = .ok days := by
  unfold Encode.date at h
  split at h
  · next s hs =>
    obtain rfl := Except.ok.inj h
    rw [date, Calendar.read_date_text hs]
  · contradiction

theorem timestamp_text {micros : Int} {text : String} (h : Encode.timestamp micros = .ok text) :
    timestamp text = .ok micros := by
  unfold Encode.timestamp at h
  split at h
  · next s hs =>
    obtain rfl := Except.ok.inj h
    rw [timestamp, Calendar.read_timestamp_text hs]
  · contradiction

/-- Each text of a date or a timestamp is read back exactly, whatever its year and its fraction of a second. There are
texts for the days of the calendar and for the instants on them, and for no others. -/
theorem temporal_texts_back :
    (∀ (days : Int) text, Encode.date days = .ok text → date text = .ok days) ∧
      (∀ (micros : Int) text, Encode.timestamp micros = .ok text → timestamp text = .ok micros) ∧
      (∀ days : Int, (∃ text, Encode.date days = .ok text) ↔ Calendar.minDay ≤ days ∧ days ≤ Calendar.maxDay) ∧
      ∀ micros : Int, (∃ text, Encode.timestamp micros = .ok text) ↔ Calendar.Writable micros := by
  refine ⟨?_, ?_, ?_, ?_⟩
  · intro days text h
    exact date_text h
  · intro micros text h
    exact timestamp_text h
  · intro days
    exact Encode.date_ok_iff
  · intro micros
    exact Encode.timestamp_ok_iff

/-- The year before the first year, a negative year with milliseconds, a microsecond before the epoch, and a year of
five digits. -/
theorem temporal_texts_back_years :
    Encode.date (-719528) = .ok "0000-01-01" ∧ date "0000-01-01" = .ok (-719528) ∧
      Encode.timestamp (-62299108799750000) = .ok "-0005-10-27T12:00:00.250Z" ∧
      timestamp "-0005-10-27T12:00:00.250Z" = .ok (-62299108799750000) ∧
      Encode.timestamp (-1) = .ok "1969-12-31T23:59:59.999999Z" ∧
      timestamp "1969-12-31T23:59:59.999999Z" = .ok (-1) ∧
      Encode.timestamp 300000000000000000 = .ok "+11476-08-15T05:20:00Z" ∧
      timestamp "+11476-08-15T05:20:00Z" = .ok 300000000000000000 := by
  obtain ⟨hdate, htimestamp, -, -⟩ := temporal_texts_back
  have hzero : Encode.date (-719528) = .ok "0000-01-01" := rfl
  have hnegative : Encode.timestamp (-62299108799750000) = .ok "-0005-10-27T12:00:00.250Z" := rfl
  have hbefore : Encode.timestamp (-1) = .ok "1969-12-31T23:59:59.999999Z" := rfl
  have hfar : Encode.timestamp 300000000000000000 = .ok "+11476-08-15T05:20:00Z" := rfl
  exact ⟨hzero, hdate _ _ hzero, hnegative, htimestamp _ _ hnegative, hbefore, htimestamp _ _ hbefore, hfar,
    htimestamp _ _ hfar⟩

end Decode

end TypedRecords
