import Mathlib.Data.List.TakeWhile
import TypedRecords.Calendar.Reader
import TypedRecords.Proofs.Calendar.Day
import TypedRecords.Proofs.Text.Digits
/-!
# Laws of the date and timestamp readers

What is read is a day of the calendar. Texts that begin with a digit have years of at most four digits, so their
instants lie within the days that can be written.
-/

namespace TypedRecords.Calendar

open Text (isDigit isBlank trimStart digitsValue)

variable {cs ds rest : List Char} {n : Nat} {d : CivilDate} {micros : Int}

section Fields

theorem up_to_run {most : Nat} (hne : ds ≠ []) (hall : ds.all isDigit = true) (hlen : ds.length ≤ most)
    (hrest : ds.length = most ∨ rest.head?.any isDigit = false) :
    upTo most (ds ++ rest) = some (digitsValue ds, rest) := by
  have htake : ((ds ++ rest).take most).takeWhile isDigit = ds := by
    rw [List.take_append, List.take_of_length_le hlen,
      List.takeWhile_append_of_pos fun c hc => List.all_eq_true.mp hall c hc]
    rcases hrest with hfull | hstop
    · simp [hfull]
    · cases rest with
      | nil => simp
      | cons c rest =>
        cases hk : most - ds.length <;> simp_all
  simp only [upTo, htake, List.isEmpty_eq_false_iff.mpr hne, Bool.false_eq_true, if_false,
    List.drop_left]

theorem up_to_inv {most : Nat} (h : upTo most cs = some (n, rest)) :
    ∃ ds, cs = ds ++ rest ∧ ds ≠ [] ∧ ds.all isDigit = true ∧ ds.length ≤ most ∧ n = digitsValue ds ∧
      (ds.length = most ∨ rest.head?.any isDigit = false) := by
  unfold upTo at h
  dsimp only at h
  split at h
  · contradiction
  · next hne =>
    obtain ⟨rfl, rfl⟩ := Prod.mk.inj (Option.some.inj h)
    have hsplit : (cs.take most).takeWhile isDigit ++ (cs.take most).dropWhile isDigit = cs.take most :=
      List.takeWhile_append_dropWhile
    have hstop := List.head?_dropWhile_not isDigit (cs.take most)
    have hall : ((cs.take most).takeWhile isDigit).all isDigit = true := List.all_takeWhile
    generalize (cs.take most).takeWhile isDigit = ds at hne hsplit hall ⊢
    generalize (cs.take most).dropWhile isDigit = others at hsplit hstop
    have hcs : cs = ds ++ (others ++ cs.drop most) := by
      rw [← List.append_assoc, hsplit, List.take_append_drop]
    have hrest : cs.drop ds.length = others ++ cs.drop most := by
      conv_lhs => rw [hcs]
      exact List.drop_left
    have hlen := congrArg List.length hsplit
    rw [List.length_append, List.length_take] at hlen
    refine ⟨ds, ?_, ?_, hall, by omega, rfl, ?_⟩
    · rw [hrest]
      exact hcs
    · rintro rfl
      exact hne rfl
    · rw [hrest]
      cases others with
      | nil =>
        -- The text ends before the number of digits is reached.
        by_cases hmost : ds.length = most
        · exact Or.inl hmost
        · rw [List.length_nil] at hlen
          right
          rw [List.nil_append, List.drop_of_length_le (by omega)]
          rfl
      | cons c others =>
        right
        simpa using hstop

theorem up_to_lt {most : Nat} (h : upTo most cs = some (n, rest)) : n < 10 ^ most := by
  obtain ⟨ds, -, -, hall, hlen, rfl, -⟩ := up_to_inv h
  exact (Text.digits_value_lt hall).trans_le (Nat.pow_le_pow_right (by decide) hlen)

theorem exactly_run {count : Nat} (hall : ds.all isDigit = true) (hlen : ds.length = count) :
    exactly count (ds ++ rest) = some (digitsValue ds, rest) := by
  subst hlen
  simp only [exactly, List.take_left', List.drop_left', hall, and_self, if_true]

theorem exactly_inv {count : Nat} (h : exactly count cs = some (n, rest)) :
    ∃ ds, cs = ds ++ rest ∧ ds.all isDigit = true ∧ ds.length = count ∧ n = digitsValue ds := by
  unfold exactly at h
  dsimp only at h
  split at h
  · next hdigits =>
    obtain ⟨rfl, rfl⟩ := Prod.mk.inj (Option.some.inj h)
    exact ⟨_, (List.take_append_drop count cs).symm, hdigits.2, hdigits.1, rfl⟩
  · contradiction

theorem exactly_lt {count : Nat} (h : exactly count cs = some (n, rest)) : n < 10 ^ count := by
  obtain ⟨ds, -, hall, rfl, rfl⟩ := exactly_inv h
  exact Text.digits_value_lt hall

theorem expect_iff {c : Char} : expect c cs = some rest ↔ cs = c :: rest := by
  cases cs with
  | nil => simp [expect]
  | cons d cs =>
    rw [expect, List.cons.injEq]
    split
    · next hd => simp [hd]
    · next hd => simp [hd]

theorem digit_not_blank {c : Char} (h : isDigit c = true) : isBlank c = false := by
  have hc := Text.is_digit_iff.mp h
  simp only [isBlank, Bool.or_eq_false_iff, Bool.and_eq_false_iff, decide_eq_false_iff_not,
    beq_eq_false_iff_ne, ne_eq]
  omega

theorem trim_start_digit (h : cs.head?.any isDigit = true) : trimStart cs = cs := by
  cases cs with
  | nil => rfl
  | cons c cs =>
    have hc : isBlank c = false := digit_not_blank (by simpa using h)
    simp [trimStart, hc]

theorem year_field_digit (h : cs.head?.any isDigit = true) :
    yearField cs = (upTo 4 cs).map fun (n, r) => ((n : Int), r) := by
  unfold yearField
  rw [trim_start_digit h]
  split
  · simp [isDigit] at h
  · simp [isDigit] at h
  · rfl

theorem run_head (hall : ds.all isDigit = true) (hne : ds ≠ []) : (ds ++ rest).head?.any isDigit = true := by
  cases ds with
  | nil => contradiction
  | cons c ds => simp_all

theorem year_field_run (hall : ds.all isDigit = true) (hlen : ds.length = 4) :
    yearField (ds ++ rest) = some ((digitsValue ds : Int), rest) := by
  have hne : ds ≠ [] := List.length_pos_iff.mp (by omega)
  rw [year_field_digit (run_head hall hne), up_to_run hne hall hlen.le (Or.inl hlen), Option.map_some]

theorem short_field_run (hall : ds.all isDigit = true) (hlen : ds.length = 2) :
    shortField (ds ++ rest) = some (digitsValue ds, rest) := by
  have hne : ds ≠ [] := List.length_pos_iff.mp (by omega)
  rw [shortField, trim_start_digit (run_head hall hne)]
  exact up_to_run hne hall hlen.le (Or.inl hlen)

end Fields

section Dates

theorem date_fields_iff : dateFields cs = some (d, rest) ↔ ∃ year r₁ month r₂ day,
    yearField cs = some (year, '-' :: r₁) ∧ shortField r₁ = some (month, '-' :: r₂) ∧
      shortField r₂ = some (day, rest) ∧ CivilDate.valid? ⟨year, month, day⟩ = some d := by
  simp only [dateFields, Option.bind_eq_bind, Option.bind_eq_some_iff, Prod.exists, expect_iff, pure,
    Option.some.injEq, Prod.mk.injEq]
  constructor
  · rintro ⟨year, _, hyear, r₁, rfl, month, _, hmonth, r₂, rfl, day, _, hday, _, hvalid, rfl, rfl⟩
    exact ⟨year, r₁, month, r₂, day, hyear, hmonth, hday, hvalid⟩
  · rintro ⟨year, r₁, month, r₂, day, hyear, hmonth, hday, hvalid⟩
    exact ⟨year, _, hyear, r₁, rfl, month, _, hmonth, r₂, rfl, day, _, hday, d, hvalid, rfl, rfl⟩

theorem date_fields_run {year : Int} {ms : List Char}
    (hy : yearField cs = some (year, '-' :: (ms ++ '-' :: (ds ++ rest)))) (hms : ms.all isDigit = true)
    (hm : ms.length = 2) (hds : ds.all isDigit = true) (hd : ds.length = 2) :
    dateFields cs =
      (CivilDate.valid? ⟨year, digitsValue ms, digitsValue ds⟩).map fun date => (date, rest) := by
  simp only [dateFields, hy, expect, short_field_run hms hm, short_field_run hds hd, Option.bind_eq_bind,
    Option.bind_some, if_true]
  cases CivilDate.valid? ⟨year, digitsValue ms, digitsValue ds⟩ <;> rfl

theorem strict_date_fields_iff : strictDateFields cs = some (d, rest) ↔ ∃ year r₁ month r₂ day,
    exactly 4 cs = some (year, '-' :: r₁) ∧ exactly 2 r₁ = some (month, '-' :: r₂) ∧
      exactly 2 r₂ = some (day, rest) ∧ CivilDate.valid? ⟨year, month, day⟩ = some d := by
  simp only [strictDateFields, Option.bind_eq_bind, Option.bind_eq_some_iff, Prod.exists, expect_iff, pure,
    Option.some.injEq, Prod.mk.injEq]
  constructor
  · rintro ⟨year, _, hyear, r₁, rfl, month, _, hmonth, r₂, rfl, day, _, hday, _, hvalid, rfl, rfl⟩
    exact ⟨year, r₁, month, r₂, day, hyear, hmonth, hday, hvalid⟩
  · rintro ⟨year, r₁, month, r₂, day, hyear, hmonth, hday, hvalid⟩
    exact ⟨year, _, hyear, r₁, rfl, month, _, hmonth, r₂, rfl, day, _, hday, d, hvalid, rfl, rfl⟩

theorem valid_inv {d d' : CivilDate} (h : d.valid? = some d') : d'.IsValid ∧ d' = d := by
  unfold CivilDate.valid? at h
  split at h
  · next hd =>
    obtain rfl := Option.some.inj h
    exact ⟨hd, rfl⟩
  · contradiction

theorem date_fields_valid (h : dateFields cs = some (d, rest)) : d.IsValid := by
  obtain ⟨year, r₁, month, r₂, day, -, -, -, hd⟩ := date_fields_iff.mp h
  exact (valid_inv hd).1

def Common (d : CivilDate) : Prop := d.IsValid ∧ 0 ≤ d.year ∧ d.year ≤ 9999

theorem date_fields_common (hc : cs.head?.any isDigit = true) (h : dateFields cs = some (d, rest)) :
    Common d := by
  obtain ⟨year, r₁, month, r₂, day, hy, -, -, hd⟩ := date_fields_iff.mp h
  obtain ⟨hvalid, rfl⟩ := valid_inv hd
  rw [year_field_digit hc, Option.map_eq_some_iff] at hy
  obtain ⟨⟨n, r⟩, hn, heq⟩ := hy
  obtain ⟨rfl, -⟩ := Prod.mk.inj heq
  have hlt := up_to_lt hn
  refine ⟨hvalid, ?_, ?_⟩
  · dsimp only
    omega
  · dsimp only
    omega

theorem strict_date_common (h : strictDateFields cs = some (d, rest)) : Common d := by
  obtain ⟨year, r₁, month, r₂, day, hy, -, -, hd⟩ := strict_date_fields_iff.mp h
  obtain ⟨hvalid, rfl⟩ := valid_inv hd
  have hlt := exactly_lt hy
  refine ⟨hvalid, ?_, ?_⟩
  · dsimp only
    omega
  · dsimp only
    omega

theorem Common.day_number (h : Common d) : -720000 ≤ d.dayNumber ∧ d.dayNumber ≤ 3000000 := by
  obtain ⟨hvalid, hmin, hmax⟩ := h
  have hstart := CivilDate.year_start_mono (show -1 ≤ d.marchYear by
    unfold CivilDate.marchYear
    split <;> omega)
  have hend := CivilDate.year_start_mono (show d.marchYear ≤ 9999 by
    unfold CivilDate.marchYear
    split <;> omega)
  have hday : d.dayOfYear ≤ 365 := by
    rcases hvalid.day_of_year with h | h <;> omega
  have hfirst : CivilDate.yearStart (-1) = -719834 := by decide
  have hlast : CivilDate.yearStart 9999 = 2932591 := by decide
  rw [CivilDate.day_number_eq]
  omega

end Dates

section Clocks

def microDigits (ds : List Char) : List Char := ds.take 6 ++ List.replicate (6 - (ds.take 6).length) '0'

theorem micro_digits_all (h : ds.all isDigit = true) : (microDigits ds).all isDigit = true := by
  rw [microDigits, List.all_append, Bool.and_eq_true]
  refine ⟨List.all_eq_true.mpr fun c hc => List.all_eq_true.mp h c (List.mem_of_mem_take hc), ?_⟩
  exact List.all_eq_true.mpr fun c hc => (List.mem_replicate.mp hc).2 ▸ rfl

theorem micro_digits_length (ds : List Char) : (microDigits ds).length = 6 := by
  simp only [microDigits, List.length_append, List.length_replicate, List.length_take]
  omega

inductive FractionForm : List Char → Nat → List Char → Prop where
  | none {cs : List Char} : cs.head? ≠ some '.' → FractionForm cs 0 cs
  | point {ds rest : List Char} : ds ≠ [] → ds.all isDigit = true → rest.head?.any isDigit = false →
    FractionForm ('.' :: (ds ++ rest)) (digitsValue (microDigits ds)) rest

theorem fraction_iff : fractionField cs = some (n, rest) ↔ FractionForm cs n rest := by
  unfold fractionField
  constructor
  · intro h
    split at h
    · next cs =>
      dsimp only at h
      split at h
      · contradiction
      · next hne =>
        obtain ⟨rfl, rfl⟩ := Prod.mk.inj (Option.some.inj h)
        have hform := FractionForm.point (by simpa using hne) (Text.span_digits_all cs) (Text.span_digits_stop cs)
        rwa [Text.span_digits_append] at hform
    · next hpoint =>
      obtain ⟨rfl, rfl⟩ := Prod.mk.inj (Option.some.inj h)
      refine .none fun hhead => ?_
      obtain ⟨r, rfl⟩ := List.head?_eq_some_iff.mp hhead
      exact hpoint r rfl
  · intro h
    cases h with
    | none hhead =>
      split
      · exact absurd rfl hhead
      · rfl
    | point hne hall hstop =>
      have hempty := List.isEmpty_eq_false_iff.mpr hne
      simp only [Text.span_digits_run hall hstop, hempty, Bool.false_eq_true, if_false]
      rfl

theorem fraction_lt (h : fractionField cs = some (n, rest)) : n < 1000000 := by
  cases fraction_iff.mp h with
  | none => decide
  | @point ds _ _ hall =>
    have hlt := Text.digits_value_lt (micro_digits_all hall)
    rwa [micro_digits_length] at hlt

theorem clock_lt {hour minute second clock : Nat} (hn : n < 1000000)
    (h : clockMicros? hour minute second n = some clock) : (clock : Int) < 2 * microsPerDay := by
  unfold clockMicros? at h
  split at h
  · obtain rfl := Option.some.inj h
    simp only [microsPerDay, microsPerSecond]
    omega
  · contradiction

theorem loose_clock_iff : looseClock cs = some (n, rest) ↔ ∃ hour r₁ minute r₂ second r₃ fraction,
    shortField cs = some (hour, ':' :: r₁) ∧ shortField r₁ = some (minute, ':' :: r₂) ∧
      shortField r₂ = some (second, r₃) ∧ fractionField r₃ = some (fraction, rest) ∧
        clockMicros? hour minute second fraction = some n := by
  simp only [looseClock, Option.bind_eq_bind, Option.bind_eq_some_iff, Prod.exists, expect_iff, pure,
    Option.some.injEq, Prod.mk.injEq]
  constructor
  · rintro ⟨hour, _, hhour, r₁, rfl, minute, _, hminute, r₂, rfl, second, r₃, hsecond, fraction, _, hfraction, _,
      hclock, rfl, rfl⟩
    exact ⟨hour, r₁, minute, r₂, second, r₃, fraction, hhour, hminute, hsecond, hfraction, hclock⟩
  · rintro ⟨hour, r₁, minute, r₂, second, r₃, fraction, hhour, hminute, hsecond, hfraction, hclock⟩
    exact ⟨hour, _, hhour, r₁, rfl, minute, _, hminute, r₂, rfl, second, r₃, hsecond, fraction, _, hfraction, n,
      hclock, rfl, rfl⟩

theorem loose_clock_lt (h : looseClock cs = some (n, rest)) : (n : Int) < 2 * microsPerDay := by
  obtain ⟨hour, r₁, minute, r₂, second, r₃, fraction, -, -, -, hfraction, hclock⟩ := loose_clock_iff.mp h
  exact clock_lt (fraction_lt hfraction) hclock

theorem offset_bounds {offset : Int} (h : offsetField cs = some (offset, rest)) :
    -1440 ≤ offset ∧ offset ≤ 1440 := by
  unfold offsetField at h
  split at h
  · obtain ⟨rfl, -⟩ := Prod.mk.inj (Option.some.inj h)
    decide
  · obtain ⟨rfl, -⟩ := Prod.mk.inj (Option.some.inj h)
    decide
  · simp only [Option.bind_eq_bind, Option.bind_eq_some_iff, Prod.exists] at h
    obtain ⟨sign, hsign, hours, r₁, -, r₂, -, minutes, r₃, -, h⟩ := h
    have hone : sign = 1 ∨ sign = -1 := by
      unfold offsetSign at hsign
      split at hsign
      · exact Or.inl (Option.some.inj hsign).symm
      · split at hsign
        · exact Or.inr (Option.some.inj hsign).symm
        · contradiction
    split at h
    · obtain ⟨rfl, -⟩ := Prod.mk.inj (Option.some.inj h)
      rcases hone with rfl | rfl <;> omega
    · contradiction
  · contradiction

end Clocks

def Writable (micros : Int) : Prop := minDay ≤ micros / microsPerDay ∧ micros / microsPerDay ≤ maxDay

theorem Common.writable (hd : Common d) {n : Nat} (hn : (n : Int) < 2 * microsPerDay) (shift : Int)
    (hshift : -microsPerDay ≤ shift ∧ shift ≤ microsPerDay) : Writable (instant d n - shift) := by
  have hmin : minDay < -720002 := by decide
  have hmax : 3000004 < maxDay := by decide
  have hday := hd.day_number
  simp only [Writable, instant, microsPerDay, microsPerSecond] at *
  omega

theorem complete_iff {α : Type} {x : α × List Char} {y : α} : complete x = some y ↔ x = (y, []) := by
  obtain ⟨x, cs⟩ := x
  cases cs <;> simp [complete]

theorem strict_timestamp_iff : strictTimestamp? cs = some micros ↔
    ∃ date r₁ r₂ hour r₃ minute r₄ second r₅ fraction r₆ clock offset,
      strictDateFields cs = some (date, r₁) ∧ timeMark r₁ = some r₂ ∧
        (exactly 2 r₂ = some (hour, ':' :: r₃) ∧ exactly 2 r₃ = some (minute, ':' :: r₄) ∧
          exactly 2 r₄ = some (second, r₅) ∧ fractionField r₅ = some (fraction, r₆) ∧
            clockMicros? hour minute second fraction = some clock) ∧
        offsetField r₆ = some (offset, []) ∧ instant date clock - offset * 60 * microsPerSecond = micros := by
  simp only [strictTimestamp?, Option.bind_eq_bind, Option.bind_eq_some_iff, Prod.exists, expect_iff, complete_iff,
    Prod.mk.injEq]
  constructor
  · rintro ⟨date, r₁, hdate, r₂, hmark, hour, _, hhour, r₃, rfl, minute, _, hminute, r₄, rfl, second, r₅, hsecond,
      fraction, r₆, hfraction, clock, hclock, offset, _, hoffset, hmicros, rfl⟩
    exact ⟨date, r₁, r₂, hour, r₃, minute, r₄, second, r₅, fraction, r₆, clock, offset, hdate, hmark,
      ⟨hhour, hminute, hsecond, hfraction, hclock⟩, hoffset, hmicros⟩
  · rintro ⟨date, r₁, r₂, hour, r₃, minute, r₄, second, r₅, fraction, r₆, clock, offset, hdate, hmark,
      ⟨hhour, hminute, hsecond, hfraction, hclock⟩, hoffset, hmicros⟩
    exact ⟨date, r₁, hdate, r₂, hmark, hour, _, hhour, r₃, rfl, minute, _, hminute, r₄, rfl, second, r₅, hsecond,
      fraction, r₆, hfraction, clock, hclock, offset, _, hoffset, hmicros, rfl⟩

theorem strict_timestamp_writable (h : strictTimestamp? cs = some micros) : Writable micros := by
  obtain ⟨date, r₁, r₂, hour, r₃, minute, r₄, second, r₅, fraction, r₆, clock, offset, hdate, -,
    ⟨-, -, -, hfraction, hclock⟩, hoffset, rfl⟩ := strict_timestamp_iff.mp h
  have hbounds := offset_bounds hoffset
  refine (strict_date_common hdate).writable (clock_lt (fraction_lt hfraction) hclock) _ ?_
  simp only [microsPerDay, microsPerSecond]
  omega

theorem head_drop_zulu (h : cs.head?.any isDigit = true) : (dropZulu cs).head?.any isDigit = true := by
  unfold dropZulu
  split
  · next hlast =>
    cases cs with
    | nil => contradiction
    | cons c cs =>
      cases cs with
      | nil =>
        obtain rfl : c = 'Z' := Option.some.inj hlast
        simp [isDigit] at h
      | cons c' cs => exact h
  · exact h

def skipMark : List Char → List Char
  | 'T' :: r => r
  | r => r

theorem loose_date_time_iff {clock : Nat} : looseDateTime? cs = some (d, clock) ↔
    ∃ r, dateFields cs = some (d, r) ∧ looseClock (skipMark r) = some (clock, []) := by
  simp only [looseDateTime?, Option.bind_eq_bind, Option.bind_eq_some_iff, Prod.exists, complete_iff, Prod.mk.injEq]
  constructor
  · rintro ⟨_, r, hdate, _, _, hclock, ⟨rfl, rfl⟩, rfl⟩
    exact ⟨r, hdate, hclock⟩
  · rintro ⟨r, hdate, hclock⟩
    exact ⟨d, r, hdate, clock, [], hclock, ⟨rfl, rfl⟩, rfl⟩

theorem plain_date_iff : plainDate? cs = some d ↔ dateFields cs = some (d, []) := by
  simp only [plainDate?, Option.bind_eq_some_iff, complete_iff, exists_eq_right]

theorem read_timestamp_inv {text : String} (h : readTimestamp? text = some micros) :
    strictTimestamp? text.toList = some micros ∨
      ∃ cs d rest, ∃ clock : Nat, (cs = text.toList ∨ cs = dropZulu text.toList) ∧ dateFields cs = some (d, rest) ∧
        (clock : Int) < 2 * microsPerDay ∧ micros = instant d clock := by
  unfold readTimestamp? at h
  dsimp only at h
  split at h
  · next hs =>
    obtain rfl := Option.some.inj h
    exact Or.inl hs
  · split at h
    · next d clock hl =>
      obtain ⟨rest, hd, hclock⟩ := loose_date_time_iff.mp hl
      exact Or.inr ⟨_, d, rest, clock, Or.inr rfl, hd, loose_clock_lt hclock, (Option.some.inj h).symm⟩
    · obtain ⟨d, hd, rfl⟩ := Option.map_eq_some_iff.mp h
      have hzero : ((0 : Nat) : Int) < 2 * microsPerDay := by decide
      exact Or.inr ⟨_, d, [], 0, Or.inl rfl, plain_date_iff.mp hd, hzero, rfl⟩

/-- A text that begins with a digit means an instant that can be written, if it means any. -/
theorem read_timestamp_writable {text : String} (hc : text.toList.head?.any isDigit = true)
    (h : readTimestamp? text = some micros) : Writable micros := by
  rcases read_timestamp_inv h with hs | ⟨cs, d, rest, clock, hcs, hd, hclock, rfl⟩
  · exact strict_timestamp_writable hs
  · have hdigit : cs.head?.any isDigit = true := by
      rcases hcs with rfl | rfl
      · exact hc
      · exact head_drop_zulu hc
    have hw := (date_fields_common hdigit hd).writable hclock 0 (by decide)
    rwa [Int.sub_zero] at hw

theorem plain_date_valid (h : plainDate? cs = some d) : d.IsValid := date_fields_valid (plain_date_iff.mp h)

end TypedRecords.Calendar
