import TypedRecords.Calendar.Printer
import TypedRecords.Proofs.Calendar.Reader
/-!
# Dates and timestamps round trip

The text of a day or of an instant means that day or instant, whatever its year.
-/

namespace TypedRecords.Calendar

open Text (isDigit digitsOf digitsValue padDigits)

variable {d : CivilDate} {rest : List Char} {n : Nat}

theorem pad_digits_run {width : Nat} (hw : 0 < width) (hn : n < 10 ^ width) :
    (padDigits width (digitsOf n)).all isDigit = true ∧ (padDigits width (digitsOf n)).length = width ∧
      digitsValue (padDigits width (digitsOf n)) = n := by
  refine ⟨Text.pad_digits_all width (Text.digits_of_all n), ?_, ?_⟩
  · exact Text.pad_digits_length ((Text.digits_of_length_le hw).mpr hn)
  · rw [Text.digits_value_pad, Text.digits_value_digits_of]

theorem two_digits_run (hn : n < 100) : (twoDigits n).all isDigit = true ∧ (twoDigits n).length = 2 ∧
    digitsValue (twoDigits n) = n :=
  pad_digits_run (by decide) hn

theorem year_field_text (year : Int) :
    yearField (yearText year ++ '-' :: rest) = some (year, '-' :: rest) := by
  have hall : (padDigits 4 (digitsOf year.natAbs)).all isDigit = true :=
    Text.pad_digits_all 4 (Text.digits_of_all _)
  have hvalue : digitsValue (padDigits 4 (digitsOf year.natAbs)) = year.natAbs := by
    rw [Text.digits_value_pad, Text.digits_value_digits_of]
  have hne : padDigits 4 (digitsOf year.natAbs) ≠ [] := by
    have := Text.digits_of_ne_nil year.natAbs
    simp [padDigits, this]
  unfold yearText
  split
  · next hyear =>
    have hlen : (padDigits 4 (digitsOf year.natAbs)).length = 4 :=
      (pad_digits_run (by decide) (by omega)).2.1
    rw [year_field_run hall hlen, hvalue]
    exact congrArg some (Prod.ext (by dsimp only; omega) rfl)
  · next hyear =>
    generalize padDigits 4 (digitsOf year.natAbs) = ds at hall hvalue hne
    have hrun : upTo (ds ++ '-' :: rest).length (ds ++ '-' :: rest) = some (digitsValue ds, '-' :: rest) := by
      refine up_to_run hne hall ?_ (Or.inr rfl)
      rw [List.length_append]
      exact Nat.le_add_right _ _
    split
    · have htrim : Text.trimStart ('-' :: (ds ++ '-' :: rest)) = '-' :: (ds ++ '-' :: rest) := rfl
      rw [List.cons_append, yearField, htrim]
      simp only [hrun, hvalue, Option.map_some]
      exact congrArg some (Prod.ext (by dsimp only; omega) rfl)
    · have htrim : Text.trimStart ('+' :: (ds ++ '-' :: rest)) = '+' :: (ds ++ '-' :: rest) := rfl
      rw [List.cons_append, yearField, htrim]
      simp only [hrun, hvalue, Option.map_some]
      exact congrArg some (Prod.ext (by dsimp only; omega) rfl)

theorem valid_some (h : d.IsValid) : d.valid? = some d := if_pos h

theorem chars_append (d : CivilDate) (rest : List Char) : d.chars ++ rest =
    yearText d.year ++ '-' :: (twoDigits d.month ++ '-' :: (twoDigits d.day ++ rest)) := by
  simp [CivilDate.chars]

theorem IsValid.small (h : d.IsValid) : d.month < 100 ∧ d.day < 100 := by
  obtain ⟨-, ⟨-, hm⟩, -, hd⟩ := h
  have : daysInMonth d.year d.month ≤ 31 := by
    unfold daysInMonth
    repeat' split
    all_goals decide
  omega

theorem date_fields_chars (h : d.IsValid) : dateFields (d.chars ++ rest) = some (d, rest) := by
  obtain ⟨hm, hd⟩ := IsValid.small h
  obtain ⟨hmall, hmlen, hmvalue⟩ := two_digits_run hm
  obtain ⟨hdall, hdlen, hdvalue⟩ := two_digits_run hd
  rw [chars_append, date_fields_run (year_field_text d.year) hmall hmlen hdall hdlen, hmvalue, hdvalue,
    valid_some h, Option.map_some]

theorem strict_fields_chars (h : d.IsValid) (hyear : 0 ≤ d.year ∧ d.year ≤ 9999) :
    strictDateFields (d.chars ++ rest) = some (d, rest) := by
  obtain ⟨hm, hd⟩ := IsValid.small h
  obtain ⟨hmall, hmlen, hmvalue⟩ := two_digits_run hm
  obtain ⟨hdall, hdlen, hdvalue⟩ := two_digits_run hd
  obtain ⟨hyall, hylen, hyvalue⟩ := pad_digits_run (show 0 < 4 by decide)
    (show d.year.natAbs < 10 ^ 4 by omega)
  have htext : yearText d.year = padDigits 4 (digitsOf d.year.natAbs) := if_pos hyear
  have hvalue : ((d.year.natAbs : Nat) : Int) = d.year := by omega
  rw [chars_append, htext]
  refine strict_date_fields_iff.mpr ⟨_, _, _, _, _, exactly_run hyall hylen, exactly_run hmall hmlen,
    exactly_run hdall hdlen, ?_⟩
  rw [hyvalue, hmvalue, hdvalue, hvalue]
  exact valid_some h

theorem strict_fields_signed (hyear : ¬ (0 ≤ d.year ∧ d.year ≤ 9999)) :
    strictDateFields (d.chars ++ rest) = none := by
  obtain ⟨c, cs, hc, hdigit⟩ : ∃ c cs, d.chars ++ rest = c :: cs ∧ isDigit c = false := by
    rw [chars_append, yearText, if_neg hyear]
    split
    · exact ⟨'-', _, rfl, rfl⟩
    · exact ⟨'+', _, rfl, rfl⟩
  have hnone : exactly 4 (c :: cs) = none := by
    simp [exactly, hdigit]
  rw [hc, strictDateFields, hnone]
  rfl

theorem contains_minus (d : CivilDate) : d.chars.contains '-' = true := by
  have h := chars_append d []
  rw [List.append_nil] at h
  rw [h]
  simp

theorem read_date_text {days : Int} {s : String} (h : dateText? days = some s) : readDate? s = some days := by
  unfold dateText? at h
  split at h
  · next hdays =>
    obtain rfl := Option.some.inj h
    have hvalid := CivilDate.of_day_number_valid hdays.1 hdays.2
    have hfields : dateFields ((CivilDate.ofDayNumber days).chars ++ []) = _ := date_fields_chars hvalid
    rw [List.append_nil] at hfields
    have hplain := plain_date_iff.mpr hfields
    rw [readDate?, String.toList_ofList, if_pos (contains_minus _), hplain]
    exact congrArg some (CivilDate.day_number_of_day_number days)
  · contradiction

theorem fraction_run {ds : List Char} (hall : ds.all isDigit = true) (hpos : 0 < ds.length) (hlen : ds.length ≤ 6)
    (hrest : rest.head?.any isDigit = false) :
    fractionField ('.' :: (ds ++ rest)) = some (digitsValue ds * 10 ^ (6 - ds.length), rest) := by
  have hvalue : digitsValue (microDigits ds) = digitsValue ds * 10 ^ (6 - ds.length) := by
    rw [microDigits, List.take_of_length_le hlen, Text.digits_value_append_zeros]
  rw [← hvalue]
  exact fraction_iff.mpr (.point (List.length_pos_iff.mp hpos) hall hrest)

theorem fraction_field_text (hn : n < 1000000)
    (hrest : rest.head?.any (fun c => isDigit c || c == '.') = false) :
    fractionField (fractionText n ++ rest) = some (n, rest) := by
  have hdigit : rest.head?.any isDigit = false := by
    cases rest <;> simp_all
  unfold fractionText
  split
  · next hzero =>
    rw [List.nil_append, hzero]
    refine fraction_iff.mpr (.none fun hhead => ?_)
    rw [hhead] at hrest
    contradiction
  split
  · obtain ⟨hall, hlen, hvalue⟩ := pad_digits_run (show 0 < 3 by decide) (show n / 1000 < 10 ^ 3 by omega)
    rw [List.cons_append, fraction_run hall (by omega) (by omega) hdigit, hvalue, hlen]
    exact congrArg some (Prod.ext (by dsimp only; omega) rfl)
  · obtain ⟨hall, hlen, hvalue⟩ := pad_digits_run (show 0 < 6 by decide) (show n < 10 ^ 6 by omega)
    rw [List.cons_append, fraction_run hall (by omega) (by omega) hdigit, hvalue, hlen]
    exact congrArg some (Prod.ext (by dsimp only; omega) rfl)

structure Clock (n : Nat) : Prop where
  hour_lt : n / 1000000 / 3600 < 24
  minute_lt : n / 1000000 / 60 % 60 < 60
  second_lt : n / 1000000 % 60 < 60
  micros_lt : n % 1000000 < 1000000
  clock : clockMicros? (n / 1000000 / 3600) (n / 1000000 / 60 % 60) (n / 1000000 % 60) (n % 1000000) = some n

theorem clock_of_lt (h : n < 86400000000) : Clock n := by
  refine ⟨by omega, by omega, by omega, by omega, ?_⟩
  rw [clockMicros?, if_pos (by omega)]
  exact congrArg some (by omega)

theorem clock_append (n : Nat) (rest : List Char) : clockText n ++ rest =
    twoDigits (n / 1000000 / 3600) ++ ':' :: (twoDigits (n / 1000000 / 60 % 60) ++ ':' ::
      (twoDigits (n / 1000000 % 60) ++ (fractionText (n % 1000000) ++ rest))) := by
  simp [clockText]

theorem loose_clock_text (c : Clock n) : looseClock (clockText n) = some (n, []) := by
  obtain ⟨hhall, hhlen, hhvalue⟩ := two_digits_run (show n / 1000000 / 3600 < 100 by have := c.hour_lt; omega)
  obtain ⟨hmall, hmlen, hmvalue⟩ := two_digits_run (show n / 1000000 / 60 % 60 < 100 by omega)
  obtain ⟨hsall, hslen, hsvalue⟩ := two_digits_run (show n / 1000000 % 60 < 100 by omega)
  have hfraction : fractionField (fractionText (n % 1000000) ++ []) = _ :=
    fraction_field_text c.micros_lt rfl
  have htext := clock_append n []
  rw [List.append_nil] at htext
  rw [htext]
  refine loose_clock_iff.mpr ⟨_, _, _, _, _, _, _, short_field_run hhall hhlen, short_field_run hmall hmlen,
    short_field_run hsall hslen, hfraction, ?_⟩
  rw [hhvalue, hmvalue, hsvalue]
  exact c.clock

theorem strict_timestamp_text (hd : d.IsValid) (hyear : 0 ≤ d.year ∧ d.year ≤ 9999) (c : Clock n) :
    strictTimestamp? (d.chars ++ 'T' :: (clockText n ++ ['Z'])) = some (instant d n) := by
  obtain ⟨hhall, hhlen, hhvalue⟩ := two_digits_run (show n / 1000000 / 3600 < 100 by have := c.hour_lt; omega)
  obtain ⟨hmall, hmlen, hmvalue⟩ := two_digits_run (show n / 1000000 / 60 % 60 < 100 by omega)
  obtain ⟨hsall, hslen, hsvalue⟩ := two_digits_run (show n / 1000000 % 60 < 100 by omega)
  have hfraction : fractionField (fractionText (n % 1000000) ++ ['Z']) = some (n % 1000000, ['Z']) :=
    fraction_field_text c.micros_lt rfl
  have hzero : instant d n - 0 * 60 * microsPerSecond = instant d n := by omega
  rw [clock_append]
  refine strict_timestamp_iff.mpr ⟨d, _, _, _, _, _, _, _, _, _, _, n, 0, strict_fields_chars hd hyear, rfl,
    ⟨exactly_run hhall hhlen, exactly_run hmall hmlen, exactly_run hsall hslen, hfraction, ?_⟩, rfl, hzero⟩
  rw [hhvalue, hmvalue, hsvalue]
  exact c.clock

theorem loose_date_time_text (hd : d.IsValid) (c : Clock n) :
    looseDateTime? (d.chars ++ 'T' :: clockText n) = some (d, n) :=
  loose_date_time_iff.mpr ⟨_, date_fields_chars hd, loose_clock_text c⟩

section Instants

variable {micros : Int}

theorem clock_of_micros (micros : Int) : Clock (micros % microsPerDay).toNat := by
  refine clock_of_lt ?_
  simp only [microsPerDay, microsPerSecond]
  omega

theorem instant_of_micros (micros : Int) :
    instant (CivilDate.ofDayNumber (micros / microsPerDay)) (micros % microsPerDay).toNat = micros := by
  rw [instant, CivilDate.day_number_of_day_number]
  simp only [microsPerDay, microsPerSecond]
  omega

theorem read_timestamp_text {s : String} (h : timestampText? micros = some s) : readTimestamp? s = some micros := by
  unfold timestampText? at h
  dsimp only at h
  split at h
  · next hdays =>
    obtain rfl := Option.some.inj h
    have hvalid := CivilDate.of_day_number_valid hdays.1 hdays.2
    have hclock := clock_of_micros micros
    have hinstant := instant_of_micros micros
    generalize CivilDate.ofDayNumber (micros / microsPerDay) = date at hvalid hinstant
    rw [readTimestamp?, String.toList_ofList]
    by_cases hyear : 0 ≤ date.year ∧ date.year ≤ 9999
    · rw [strict_timestamp_text hvalid hyear hclock, hinstant]
    · have hstrict : strictTimestamp? (date.chars ++ 'T' :: (clockText (micros % microsPerDay).toNat ++ ['Z'])) =
          none := by
        rw [strictTimestamp?, strict_fields_signed hyear]
        rfl
      have hzulu : dropZulu (date.chars ++ 'T' :: (clockText (micros % microsPerDay).toNat ++ ['Z'])) =
          date.chars ++ 'T' :: clockText (micros % microsPerDay).toNat := by
        have hsplit (cs ds : List Char) : cs ++ 'T' :: (ds ++ ['Z']) = cs ++ 'T' :: ds ++ ['Z'] := by simp
        rw [dropZulu, hsplit, List.getLast?_concat, if_pos rfl, List.dropLast_concat]
      rw [hstrict, hzulu, loose_date_time_text hvalid hclock]
      exact congrArg some hinstant
  · contradiction

end Instants

structure FourDigitYear (days : Int) : Prop where
  day_ge : minDay ≤ days
  day_le : days ≤ maxDay
  year_nonneg : 0 ≤ (CivilDate.ofDayNumber days).year
  year_le : (CivilDate.ofDayNumber days).year ≤ 9999

theorem FourDigitYear.strict_date {days : Int} (h : FourDigitYear days) : ∃ s, dateText? days = some s ∧
    strictDate? s.toList = some (CivilDate.ofDayNumber days) := by
  refine ⟨_, if_pos ⟨h.day_ge, h.day_le⟩, ?_⟩
  have hvalid := CivilDate.of_day_number_valid h.day_ge h.day_le
  have hfields : strictDateFields ((CivilDate.ofDayNumber days).chars ++ []) = _ :=
    strict_fields_chars hvalid ⟨h.year_nonneg, h.year_le⟩
  rw [List.append_nil] at hfields
  rw [String.toList_ofList, strictDate?, hfields]
  rfl

theorem FourDigitYear.strict_timestamp {micros : Int} (h : FourDigitYear (micros / microsPerDay)) :
    ∃ s, timestampText? micros = some s ∧ strictTimestamp? s.toList = some micros := by
  refine ⟨_, if_pos ⟨h.day_ge, h.day_le⟩, ?_⟩
  have hvalid := CivilDate.of_day_number_valid h.day_ge h.day_le
  rw [String.toList_ofList, strict_timestamp_text hvalid ⟨h.year_nonneg, h.year_le⟩ (clock_of_micros micros),
    instant_of_micros]

end TypedRecords.Calendar
