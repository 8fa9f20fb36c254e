import TypedRecords.Inference
import TypedRecords.Proofs.Calendar.Agreement
import TypedRecords.Proofs.Decimal.Literal
import TypedRecords.Proofs.Json.Numeral
/-!
# Types of literals

What the inferred type of a number or of a string tells about its text: which readers take it, and that what
they give can be written again.
-/

namespace TypedRecords.Inference

open Text (isDigit digitsValue signedOfDigits?)
open Literal Calendar

variable {o : Options}

section Numbers

open Json (Numeral)

theorem integral_numeral {n : Numeral} (h : isIntegral (String.ofList n.chars) = true) :
    n.chars = Numeral.signChars n.negative ++ n.whole := by
  have hmark : ∀ c ∈ n.chars, c ≠ '.' ∧ isExponentMark c = false := fun c hc => by
    have := List.all_eq_true.mp h c (by simpa using hc)
    simpa using this
  unfold Numeral.chars at hmark ⊢
  cases hf : n.fraction with
  | cons d ds => exact absurd rfl (hmark '.' (by simp [hf, Numeral.fractionChars])).1
  | nil =>
    cases he : n.exponent with
    | some e => exact absurd (hmark 'e' (by simp [he, Numeral.exponentChars])).2 (by decide)
    | none => simp [Numeral.fractionChars, Numeral.exponentChars]

theorem integral_digits_numeral {n : Numeral} (h : isIntegral (String.ofList n.chars) = true) :
    integralDigits (String.ofList n.chars) = max (n.whole.dropWhile (· == '0')).length 1 := by
  have hdrop : n.whole.dropWhile (fun c => c == '-' || c == '+') = n.whole := by
    obtain ⟨hne, hall⟩ := n.whole_run
    cases hw : n.whole with
    | nil => exact absurd hw hne
    | cons c cs =>
      rw [hw, List.all_cons, Bool.and_eq_true] at hall
      simp [Text.not_is_digit_sign hall.1]
  rw [integralDigits, integral_numeral h, String.toList_ofList]
  cases n.negative <;> simp [Numeral.signChars, hdrop]

theorem whole_lt_integral_digits {n : Numeral} (h : isIntegral (String.ofList n.chars) = true) :
    digitsValue n.whole < 10 ^ integralDigits (String.ofList n.chars) := by
  have hrest : (n.whole.dropWhile (· == '0')).all isDigit = true :=
    List.all_eq_true.mpr fun c hc =>
      List.all_eq_true.mp n.whole_run.2 c ((List.dropWhile_suffix _).subset hc)
  have hzeros := Text.digits_value_drop_zeros n.whole []
  rw [List.append_nil, List.append_nil] at hzeros
  rw [integral_digits_numeral h, ← hzeros]
  exact (Text.digits_value_lt hrest).trans_le (Nat.pow_le_pow_right (by decide) (le_max_left _ _))

theorem integral_value {n : Numeral} (h : isIntegral (String.ofList n.chars) = true) :
    ∃ z, signedOfDigits? n.chars = some z ∧ z.natAbs < 10 ^ integralDigits (String.ofList n.chars) := by
  have hrun := n.whole_run
  have hnat := Text.nat_of_digits_some hrun.1 hrun.2
  have hlt := whole_lt_integral_digits h
  have hchars := integral_numeral h
  cases hneg : n.negative with
  | true =>
    refine ⟨-(digitsValue n.whole : Int), ?_, by rwa [Int.natAbs_neg, Int.natAbs_natCast]⟩
    rw [hchars, hneg]
    simp only [Numeral.signChars, if_true, List.cons_append, List.nil_append, signedOfDigits?, hnat]
    rfl
  | false =>
    refine ⟨digitsValue n.whole, ?_, by rwa [Int.natAbs_natCast]⟩
    rw [hchars, hneg]
    simp only [Numeral.signChars, Bool.false_eq_true, if_false, List.nil_append]
    rw [Text.signed_of_digits_unsigned hrun.2, hnat]
    rfl

inductive NumberType (text : String) : DataType → Prop where
  | long {z} : long? text = some z → NumberType text .long
  | decimal {l p s} : parse? text = some l → 0 < p → l.scale = (s : Nat) → l.unscaled.natAbs < 10 ^ p →
      NumberType text (.decimal p s)
  | double : NumberType text .double

theorem number_type (n : Numeral) :
    NumberType (String.ofList n.chars) (typeOfNumber o (String.ofList n.chars)) := by
  unfold typeOfNumber
  split
  · next h =>
    obtain ⟨z, hz⟩ := Option.isSome_iff_exists.mp h
    exact .long hz
  · split
    · next h =>
      obtain ⟨z, hz, hlt⟩ := integral_value h
      dsimp only
      split
      · next hmax =>
        have htext : signedOfDigits? (String.ofList n.chars).toList = some z := by simpa using hz
        have hparse := parse_signed htext (hlt.trans_le (Nat.pow_le_pow_right (by decide) hmax))
        have hpos : 0 < integralDigits (String.ofList n.chars) := Nat.lt_of_lt_of_le Nat.one_pos (le_max_right _ _)
        exact .decimal hparse hpos rfl hlt
      · exact .double
    · split
      · split
        · next precision scale h =>
          obtain ⟨l, hl, hd⟩ := Option.bind_eq_some_iff.mp h
          obtain ⟨hpos, hscale, hlt⟩ := decimal_type_inv hd
          exact .decimal hl hpos hscale hlt
        · exact .double
      · exact .double

end Numbers

section Strings

theorem looks_like_date_chars {s : String} (h : looksLikeDate s = true) :
    ∃ ys ms ds, s.toList = ys ++ '-' :: (ms ++ '-' :: ds) ∧ ys.all isDigit = true ∧ ys.length = 4 ∧
      ms.all isDigit = true ∧ ms.length = 2 ∧ ds.all isDigit = true ∧ ds.length = 2 := by
  have hten : dateShape.length = 10 := by decide
  have hchars : dateShape = ['0', '0', '0', '0', '-', '0', '0', '-', '0', '0'] := by decide
  rw [looksLikeDate, Bool.and_eq_true, beq_iff_eq, hten, hchars] at h
  obtain ⟨hlen, hshape⟩ := h
  generalize s.toList = cs at hlen hshape
  match cs, hlen with
  | [a, b, c, d, e, f, g, i, j, k], _ =>
    simp [startsWithShape] at hshape
    obtain ⟨ha, hb, hc, hd, rfl, hf, hg, rfl, hj, hk⟩ := hshape
    exact ⟨[a, b, c, d], [f, g], [j, k], rfl, by simp [ha, hb, hc, hd], rfl, by simp [hf, hg], rfl,
      by simp [hj, hk], rfl⟩

/-- A date shape that can be read is a calendar date of its own. -/
theorem date_shape_plain {s : String} (h : looksLikeDate s = true) {days : Int}
    (hr : readDate? s = some days) : ∃ date, plainDate? s.toList = some date ∧ days = date.dayNumber := by
  obtain ⟨ys, ms, ds, hcs, hys, hy, hms, hm, hds, hd⟩ := looks_like_date_chars h
  have hyear : yearField s.toList = some ((digitsValue ys : Int), '-' :: (ms ++ '-' :: (ds ++ []))) := by
    rw [List.append_nil, hcs]
    exact year_field_run hys hy
  have hfields := date_fields_run hyear hms hm hds hd
  have hminus : s.toList.contains '-' = true := by
    rw [hcs]
    simp
  unfold readDate? at hr
  rw [if_pos hminus] at hr
  split at hr
  · next date hp => exact ⟨date, hp, (Option.some.inj hr).symm⟩
  · next hp =>
    rw [plainDate?, hfields] at hp
    cases hv : CivilDate.valid? ⟨(digitsValue ys : Int), digitsValue ms, digitsValue ds⟩ with
    | none => simp [looseDateTime?, hfields, hv] at hr
    | some date => simp [hv, complete] at hp

theorem head_of_date_shape {s : String} (h : looksLikeDate s = true) :
    s.toList.head?.any isDigit = true := by
  obtain ⟨ys, ms, ds, hcs, hys, hy, -⟩ := looks_like_date_chars h
  rw [hcs]
  exact run_head hys (List.length_pos_iff.mp (by omega))

theorem head_of_timestamp_shape {s : String} (h : looksLikeTimestamp s = true) :
    s.toList.head?.any isDigit = true := by
  have hchars : timestampShape = '0' :: "000-00-00_00:00:00".toList := by decide
  rw [looksLikeTimestamp, hchars] at h
  cases hcs : s.toList with
  | nil => simp [hcs, startsWithShape] at h
  | cons c cs =>
    simp [hcs, startsWithShape] at h
    simpa using h.1

inductive StringType (o : Options) (s : String) : DataType → Prop where
  | null : s.isEmpty = true → o.emptyStringAsNull = true → StringType o s .null
  | date {days micros} : readDate? s = some days → minDay ≤ days → days ≤ maxDay →
      readTimestamp? s = some micros → Writable micros → StringType o s .date
  | timestamp {micros} : readTimestamp? s = some micros → Writable micros → StringType o s .timestamp
  | string : StringType o s .string

theorem string_type (s : String) : StringType o s (typeOfString o s) := by
  unfold typeOfString
  split
  · next h =>
    rw [Bool.and_eq_true] at h
    exact .null h.1 h.2
  · split
    · next h =>
      simp only [Bool.and_eq_true] at h
      obtain ⟨days, hdays⟩ := Option.isSome_iff_exists.mp h.2
      obtain ⟨date, hplain, rfl⟩ := date_shape_plain h.1.2 hdays
      have hmicros := read_timestamp_plain hplain
      have hbounds := (plain_date_valid hplain).bounds
      exact .date hdays hbounds.1 hbounds.2 hmicros
        (read_timestamp_writable (head_of_date_shape h.1.2) hmicros)
    · split
      · next h =>
        simp only [Bool.and_eq_true] at h
        obtain ⟨micros, hmicros⟩ := Option.isSome_iff_exists.mp h.2
        exact .timestamp hmicros (read_timestamp_writable (head_of_timestamp_shape h.1.2) hmicros)
      · exact .string

end Strings

end TypedRecords.Inference
