import TypedRecords.Proofs.Calendar.Reader
/-!
# Where the readers of dates and timestamps agree

Two grammars and a date alone take a text in turn. What the strict grammar takes, the loose one takes the same way up to
the offset, and no loose reading takes a `Z`. So a text is read alike by every reader that accepts it.
-/

namespace TypedRecords.Calendar

open Text (isDigit isBlank trimStart digitsValue)

variable {cs rest : List Char} {n : Nat} {d : CivilDate} {micros : Int}

section Strict

theorem exactly_short (h : exactly 2 cs = some (n, rest)) : shortField cs = some (n, rest) := by
  obtain ⟨ds, rfl, hall, hlen, rfl⟩ := exactly_inv h
  exact short_field_run hall hlen

theorem exactly_year (h : exactly 4 cs = some (n, rest)) : yearField cs = some ((n : Int), rest) := by
  obtain ⟨ds, rfl, hall, hlen, rfl⟩ := exactly_inv h
  exact year_field_run hall hlen

theorem strict_date_loose (h : strictDateFields cs = some (d, rest)) : dateFields cs = some (d, rest) := by
  obtain ⟨year, r₁, month, r₂, day, hyear, hmonth, hday, hvalid⟩ := strict_date_fields_iff.mp h
  exact date_fields_iff.mpr ⟨year, r₁, month, r₂, day, exactly_year hyear, exactly_short hmonth, exactly_short hday,
    hvalid⟩

/-- A strict timestamp is a date, a mark, a time of day and an offset, of which the loose grammar reads all but the
offset. -/
theorem strict_timestamp_inv (h : strictTimestamp? cs = some micros) : ∃ date r₁ r₂ clock r₃ offset,
    dateFields cs = some (date, r₁) ∧ timeMark r₁ = some r₂ ∧ looseClock r₂ = some (clock, r₃) ∧
      offsetField r₃ = some (offset, []) ∧ instant date clock - offset * 60 * microsPerSecond = micros := by
  obtain ⟨date, r₁, r₂, hour, r₃, minute, r₄, second, r₅, fraction, r₆, clock, offset, hdate, hmark,
    ⟨hhour, hminute, hsecond, hfraction, hclock⟩, hoffset, hmicros⟩ := strict_timestamp_iff.mp h
  have hloose : looseClock r₂ = some (clock, r₆) := loose_clock_iff.mpr ⟨hour, r₃, minute, r₄, second, r₅, fraction,
    exactly_short hhour, exactly_short hminute, exactly_short hsecond, hfraction, hclock⟩
  exact ⟨date, r₁, r₂, clock, r₆, offset, strict_date_loose hdate, hmark, hloose, hoffset, hmicros⟩

end Strict

section Zulu

/-- The reader takes no `Z`: none is in what it uses up, and one behind the text is left over. -/
structure PassesZulu {α : Type} (reader : List Char → Option (α × List Char)) : Prop where
  used : ∀ {cs x rest}, reader cs = some (x, rest) → ∃ used, cs = used ++ rest ∧ 'Z' ∉ used
  left : ∀ {cs x rest}, reader cs = some (x, rest) → reader (cs ++ ['Z']) = some (x, rest ++ ['Z'])

theorem digits_no_zulu {ds : List Char} (h : ds.all isDigit = true) : 'Z' ∉ ds := by
  intro hz
  have hdigit : isDigit 'Z' = true := List.all_eq_true.mp h 'Z' hz
  contradiction

theorem trim_start_inv (cs : List Char) : ∃ bs, cs = bs ++ trimStart cs ∧ 'Z' ∉ bs := by
  refine ⟨cs.takeWhile isBlank, List.takeWhile_append_dropWhile.symm, ?_⟩
  intro hz
  have hblank : isBlank 'Z' = true := List.mem_takeWhile_imp hz
  contradiction

theorem stop_zulu (h : rest.head?.any isDigit = false) : (rest ++ ['Z']).head?.any isDigit = false := by
  cases rest with
  | nil => rfl
  | cons c rest => exact h

theorem up_to_zulu {most most' : Nat} (hmost : most ≤ most') (hend : most' ≠ most → cs.length ≤ most)
    (h : upTo most cs = some (n, rest)) : upTo most' (cs ++ ['Z']) = some (n, rest ++ ['Z']) := by
  obtain ⟨ds, rfl, hne, hall, hlen, rfl, hstop⟩ := up_to_inv h
  rw [List.append_assoc]
  apply up_to_run hne hall (hlen.trans hmost)
  rcases hstop with hfull | hstop
  · by_cases heq : most' = most
    · exact Or.inl (hfull.trans heq.symm)
    · have hcs := hend heq
      rw [List.length_append, hfull] at hcs
      obtain rfl : rest = [] := List.length_eq_zero_iff.mp (by omega)
      exact Or.inr rfl
  · exact Or.inr (stop_zulu hstop)

theorem up_to_passes (most : Nat) : PassesZulu (upTo most) := by
  constructor
  · intro cs n rest h
    obtain ⟨ds, hcs, -, hall, -⟩ := up_to_inv h
    exact ⟨ds, hcs, digits_no_zulu hall⟩
  · intro cs n rest h
    exact up_to_zulu le_rfl (absurd rfl) h

theorem trim_start_zulu (h : trimStart cs ≠ []) : trimStart (cs ++ ['Z']) = trimStart cs ++ ['Z'] := by
  have hne : (cs.dropWhile isBlank).isEmpty = false := List.isEmpty_eq_false_iff.mpr h
  rw [trimStart, List.dropWhile_append, hne]
  rfl

theorem PassesZulu.trimmed {α : Type} {reader : List Char → Option (α × List Char)} (h : PassesZulu reader)
    (hnil : reader [] = none) : PassesZulu fun cs => reader (trimStart cs) := by
  constructor
  · intro cs x rest hread
    obtain ⟨bs, hbs, hblank⟩ := trim_start_inv cs
    obtain ⟨used, hused, hz⟩ := h.used hread
    refine ⟨bs ++ used, ?_, by simp [hblank, hz]⟩
    rw [List.append_assoc, ← hused]
    exact hbs
  · intro cs x rest hread
    have hne : trimStart cs ≠ [] := by
      intro hempty
      rw [hempty, hnil] at hread
      contradiction
    rw [trim_start_zulu hne]
    exact h.left hread

theorem short_passes : PassesZulu shortField := (up_to_passes 2).trimmed rfl

def signedYear : List Char → Option (Int × List Char)
  | '-' :: cs => (upTo cs.length cs).map fun (n, r) => (-(n : Int), r)
  | '+' :: cs => (upTo cs.length cs).map fun (n, r) => ((n : Int), r)
  | cs => (upTo 4 cs).map fun (n, r) => ((n : Int), r)

theorem year_field_eq : yearField = fun cs => signedYear (trimStart cs) := rfl

inductive YearForm : List Char → Int → List Char → Prop where
  | minus {r n rest} : upTo r.length r = some (n, rest) → YearForm ('-' :: r) (-(n : Int)) rest
  | plus {r n rest} : upTo r.length r = some (n, rest) → YearForm ('+' :: r) n rest
  | bare {r n rest} : upTo 4 r = some (n, rest) → YearForm r n rest

theorem signed_year_iff {year : Int} : signedYear cs = some (year, rest) ↔ YearForm cs year rest := by
  unfold signedYear
  constructor
  · intro h
    split at h
    · obtain ⟨⟨n, r'⟩, hn, hr⟩ := Option.map_eq_some_iff.mp h
      obtain ⟨rfl, rfl⟩ := Prod.mk.inj hr
      exact .minus hn
    · obtain ⟨⟨n, r'⟩, hn, hr⟩ := Option.map_eq_some_iff.mp h
      obtain ⟨rfl, rfl⟩ := Prod.mk.inj hr
      exact .plus hn
    · obtain ⟨⟨n, r'⟩, hn, hr⟩ := Option.map_eq_some_iff.mp h
      obtain ⟨rfl, rfl⟩ := Prod.mk.inj hr
      exact .bare hn
  · intro h
    cases h with
    | minus hn => simp only [hn, Option.map_some]
    | plus hn => simp only [hn, Option.map_some]
    | bare hn =>
      obtain ⟨ds, rfl, hne, hall, -⟩ := up_to_inv hn
      cases ds with
      | nil => contradiction
      | cons c ds =>
        have hc : isDigit c = true := List.all_eq_true.mp hall c List.mem_cons_self
        rw [List.cons_append] at hn ⊢
        split
        · simp_all [isDigit]
        · simp_all [isDigit]
        · rw [hn]
          rfl

theorem signed_year_passes : PassesZulu signedYear := by
  constructor
  · intro cs year rest h
    cases signed_year_iff.mp h with
    | minus hn =>
      obtain ⟨ds, rfl, hds⟩ := (up_to_passes _).used hn
      exact ⟨'-' :: ds, rfl, by simp [hds]⟩
    | plus hn =>
      obtain ⟨ds, rfl, hds⟩ := (up_to_passes _).used hn
      exact ⟨'+' :: ds, rfl, by simp [hds]⟩
    | bare hn => exact (up_to_passes 4).used hn
  · intro cs year rest h
    -- Behind a sign the number of digits is that of all characters, so the `Z` raises it.
    have hraise {r r' : List Char} {n : Nat} (hn : upTo r.length r = some (n, r')) :
        upTo (r ++ ['Z']).length (r ++ ['Z']) = some (n, r' ++ ['Z']) :=
      up_to_zulu (by simp) (fun _ => le_rfl) hn
    rw [signed_year_iff]
    cases signed_year_iff.mp h with
    | minus hn => exact .minus (hraise hn)
    | plus hn => exact .plus (hraise hn)
    | bare hn => exact .bare ((up_to_passes 4).left hn)

theorem year_passes : PassesZulu yearField := by
  rw [year_field_eq]
  exact signed_year_passes.trimmed rfl

theorem fraction_passes : PassesZulu fractionField := by
  constructor
  · intro cs n rest h
    cases fraction_iff.mp h with
    | none => exact ⟨[], rfl, List.not_mem_nil⟩
    | @point ds _ _ hall =>
      have hz := digits_no_zulu hall
      exact ⟨'.' :: ds, rfl, by simpa using hz⟩
  · intro cs n rest h
    rw [fraction_iff]
    cases fraction_iff.mp h with
    | none hhead =>
      refine .none ?_
      cases cs with
      | nil => decide
      | cons c cs => exact hhead
    | point hne hall hstop =>
      rw [List.cons_append, List.append_assoc]
      exact .point hne hall (stop_zulu hstop)

theorem date_fields_passes : PassesZulu dateFields := by
  constructor
  · intro cs date rest h
    obtain ⟨year, r₁, month, r₂, day, hyear, hmonth, hday, -⟩ := date_fields_iff.mp h
    obtain ⟨ys, rfl, hys⟩ := year_passes.used hyear
    obtain ⟨ms, rfl, hms⟩ := short_passes.used hmonth
    obtain ⟨ds, rfl, hds⟩ := short_passes.used hday
    exact ⟨ys ++ '-' :: (ms ++ '-' :: ds), by simp, by simp [hys, hms, hds]⟩
  · intro cs date rest h
    obtain ⟨year, r₁, month, r₂, day, hyear, hmonth, hday, hvalid⟩ := date_fields_iff.mp h
    exact date_fields_iff.mpr ⟨year, _, month, _, day, year_passes.left hyear, short_passes.left hmonth,
      short_passes.left hday, hvalid⟩

theorem loose_clock_passes : PassesZulu looseClock := by
  constructor
  · intro cs clock rest h
    obtain ⟨hour, r₁, minute, r₂, second, r₃, fraction, hhour, hminute, hsecond, hfraction, -⟩ := loose_clock_iff.mp h
    obtain ⟨hs, rfl, hhs⟩ := short_passes.used hhour
    obtain ⟨ms, rfl, hms⟩ := short_passes.used hminute
    obtain ⟨ss, rfl, hss⟩ := short_passes.used hsecond
    obtain ⟨fs, rfl, hfs⟩ := fraction_passes.used hfraction
    exact ⟨hs ++ ':' :: (ms ++ ':' :: (ss ++ fs)), by simp, by simp [hhs, hms, hss, hfs]⟩
  · intro cs clock rest h
    obtain ⟨hour, r₁, minute, r₂, second, r₃, fraction, hhour, hminute, hsecond, hfraction, hclock⟩ :=
      loose_clock_iff.mp h
    exact loose_clock_iff.mpr ⟨hour, _, minute, _, second, _, fraction, short_passes.left hhour,
      short_passes.left hminute, short_passes.left hsecond, fraction_passes.left hfraction, hclock⟩

end Zulu

section Readers

theorem skip_mark_used (cs : List Char) : ∃ used, cs = used ++ skipMark cs ∧ 'Z' ∉ used := by
  unfold skipMark
  split
  · exact ⟨['T'], rfl, by decide⟩
  · exact ⟨[], rfl, List.not_mem_nil⟩

/-- A time of day is read alike behind each mark of the strict grammar. -/
theorem mark_clock {r t : List Char} {x : Nat × List Char} (hmark : timeMark r = some t)
    (h : looseClock (skipMark r) = some x) : looseClock t = some x := by
  unfold timeMark at hmark
  split at hmark
  · next t' =>
    obtain rfl := Option.some.inj hmark
    exact h
  · next t' =>
    -- The loose grammar knows no small mark.
    have hnone : looseClock ('t' :: t') = none := rfl
    have hskip : skipMark ('t' :: t') = 't' :: t' := rfl
    rw [hskip, hnone] at h
    contradiction
  · next t' =>
    obtain rfl := Option.some.inj hmark
    -- A blank in front of the hours is skipped.
    exact h
  · contradiction

theorem loose_no_zulu {clock : Nat} (h : looseDateTime? cs = some (d, clock)) : 'Z' ∉ cs := by
  obtain ⟨r, hd, hclock⟩ := loose_date_time_iff.mp h
  obtain ⟨ds, rfl, hds⟩ := date_fields_passes.used hd
  obtain ⟨ms, hr, hms⟩ := skip_mark_used r
  obtain ⟨ts, ht, hts⟩ := loose_clock_passes.used hclock
  rw [hr, ht]
  simp [hds, hms, hts]

theorem plain_no_zulu (h : plainDate? cs = some d) : 'Z' ∉ cs := by
  obtain ⟨ds, rfl, hds⟩ := date_fields_passes.used (plain_date_iff.mp h)
  simpa using hds

theorem drop_zulu_self (h : 'Z' ∉ cs) : dropZulu cs = cs := by
  apply if_neg
  intro hlast
  exact h (List.mem_of_getLast? hlast)

theorem drop_zulu_append (cs : List Char) : dropZulu (cs ++ ['Z']) = cs := by
  rw [dropZulu, List.getLast?_concat, if_pos rfl, List.dropLast_concat]

theorem loose_not_strict {clock : Nat} (h : looseDateTime? cs = some (d, clock)) : strictTimestamp? cs = none := by
  obtain ⟨r, hd, hclock⟩ := loose_date_time_iff.mp h
  cases hs : strictTimestamp? cs with
  | none => rfl
  | some micros =>
    obtain ⟨date, r₁, r₂, clock, r₃, offset, hdate, hmark, hstrict, hoffset, -⟩ := strict_timestamp_inv hs
    obtain ⟨-, rfl⟩ := Prod.mk.inj (Option.some.inj (hd.symm.trans hdate))
    have hread := mark_clock hmark hclock
    obtain ⟨-, rfl⟩ := Prod.mk.inj (Option.some.inj (hread.symm.trans hstrict))
    contradiction

theorem plain_not_strict (h : plainDate? cs = some d) : strictTimestamp? cs = none := by
  cases hs : strictTimestamp? cs with
  | none => rfl
  | some micros =>
    obtain ⟨date, r₁, r₂, clock, r₃, offset, hdate, hmark, -⟩ := strict_timestamp_inv hs
    obtain ⟨-, rfl⟩ := Prod.mk.inj (Option.some.inj ((plain_date_iff.mp h).symm.trans hdate))
    contradiction

theorem plain_not_loose (h : plainDate? cs = some d) : looseDateTime? cs = none := by
  cases hl : looseDateTime? cs with
  | none => rfl
  | some x =>
    obtain ⟨date, clock⟩ := x
    obtain ⟨r, hd, hclock⟩ := loose_date_time_iff.mp hl
    obtain ⟨-, rfl⟩ := Prod.mk.inj (Option.some.inj ((plain_date_iff.mp h).symm.trans hd))
    contradiction

/-- With a `Z` a date and a time of day mean the same to the strict grammar as to the loose one. -/
theorem strict_of_loose_zulu {clock : Nat} (h : looseDateTime? cs = some (d, clock))
    (hs : strictTimestamp? (cs ++ ['Z']) = some micros) : micros = instant d clock := by
  obtain ⟨r, hd, hclock⟩ := loose_date_time_iff.mp h
  obtain ⟨date, r₁, r₂, clock', r₃, offset, hdate, hmark, hstrict, hoffset, rfl⟩ := strict_timestamp_inv hs
  obtain ⟨rfl, rfl⟩ := Prod.mk.inj (Option.some.inj ((date_fields_passes.left hd).symm.trans hdate))
  have hskip : skipMark (r ++ ['Z']) = skipMark r ++ ['Z'] := by
    cases r with
    | nil => rfl
    | cons c r =>
      by_cases hc : c = 'T'
      · rw [hc]
        rfl
      · simp [skipMark, hc]
  have hread : looseClock (skipMark (r ++ ['Z'])) = some (clock, ['Z']) := by
    rw [hskip]
    exact loose_clock_passes.left hclock
  obtain ⟨rfl, rfl⟩ := Prod.mk.inj (Option.some.inj ((mark_clock hmark hread).symm.trans hstrict))
  obtain ⟨rfl, -⟩ := Prod.mk.inj (Option.some.inj hoffset)
  simp

variable {s : String}

theorem read_date_plain (h : plainDate? s.toList = some d) : readDate? s = some d.dayNumber := by
  have hminus : s.toList.contains '-' = true := by
    obtain ⟨year, r₁, month, r₂, day, hyear, -⟩ := date_fields_iff.mp (plain_date_iff.mp h)
    obtain ⟨ys, hys, -⟩ := year_passes.used hyear
    rw [hys]
    simp
  rw [readDate?, if_pos hminus, h]

theorem read_timestamp_plain (h : plainDate? s.toList = some d) : readTimestamp? s = some (d.dayNumber * microsPerDay) := by
  have hstart : instant d 0 = d.dayNumber * microsPerDay := Int.add_zero _
  rw [readTimestamp?, plain_not_strict h, drop_zulu_self (plain_no_zulu h), plain_not_loose h]
  dsimp only
  rw [h, Option.map_some, hstart]

theorem read_timestamp_loose {clock : Nat} (h : looseDateTime? s.toList = some (d, clock)) :
    readTimestamp? s = some (instant d clock) := by
  rw [readTimestamp?, loose_not_strict h, drop_zulu_self (loose_no_zulu h), h]

theorem read_timestamp_zulu {clock : Nat} (h : looseDateTime? s.toList = some (d, clock)) :
    readTimestamp? (s ++ "Z") = some (instant d clock) := by
  have htext : (s ++ "Z").toList = s.toList ++ ['Z'] := String.toList_append
  rw [readTimestamp?, htext, drop_zulu_append, h]
  cases hs : strictTimestamp? (s.toList ++ ['Z']) with
  | none => rfl
  | some micros =>
    rw [strict_of_loose_zulu h hs]

end Readers

end TypedRecords.Calendar
