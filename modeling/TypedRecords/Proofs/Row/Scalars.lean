import TypedRecords.Proofs.Decimal.RoundTrip
import TypedRecords.Proofs.Floating.Layout
import TypedRecords.Proofs.Json.Formed
import TypedRecords.Proofs.Row.Read
import TypedRecords.Proofs.Row.Temporal
import TypedRecords.Proofs.Row.Value
import TypedRecords.Proofs.Text.Base64
/-!
# Scalars round trip

The token of a scalar is read as the scalar again, and singles as their narrowed values.
-/

namespace TypedRecords

open Json (Numeral Formed)
open Text (intDigits digitsOf)

theorem int_numeral (z : Int) : ∃ n : Numeral, n.chars = intDigits z := by
  have hrun : Json.IsRun (digitsOf z.natAbs) := ⟨Text.digits_of_ne_nil _, Text.digits_of_all _⟩
  refine ⟨⟨decide (z < 0), digitsOf z.natAbs, [], none, hrun, Text.digits_of_lead, rfl, by simp⟩, ?_⟩
  unfold intDigits
  split <;> simp [Numeral.chars, Numeral.signChars, Numeral.fractionChars, Numeral.exponentChars, *]

theorem long_int_digits {z : Int} (h : Fits 64 z) : Literal.long? (String.ofList (intDigits z)) = some z := by
  rw [Literal.long?, String.toList_ofList, Text.signed_of_digits_int_digits, Option.bind_some,
    fitting_of_fits h]

theorem Fits.mono {a b : Nat} {z : Int} (hab : a ≤ b) (h : Fits a z) : Fits b z := by
  have hpow : (2 : Int) ^ (a - 1) ≤ 2 ^ (b - 1) := pow_le_pow_right₀ (by decide) (by omega)
  unfold Fits at h ⊢
  omega

namespace Decode

open DataType

variable {o : Options} {t : DataType} {x : Value} {token : Json}

structure ScalarBack (o : Options) (t : DataType) (x : Value) (token : Json) : Prop where
  read : scalar o t token = .ok x.reread
  present : isNullFor o t token = false
  formed : ∀ p, Formed p token

theorem integer_formed (z : Int) (p : List String → Prop) : Formed p (Encode.integer z) := by
  obtain ⟨n, hn⟩ := int_numeral z
  rw [Encode.integer, ← hn]
  exact .num n

theorem whole_within_int_digits {bits : Nat} {z : Int} (t : DataType) (hbits : bits ≤ 64) (h : Fits bits z) :
    wholeWithin bits t (String.ofList (intDigits z)) = .ok z := by
  have hwhole : whole t (String.ofList (intDigits z)) = .ok z := by
    rw [whole, long_int_digits (h.mono hbits)]
  simp only [wholeWithin, hwhole, bind, Except.bind, if_pos h]

theorem byte_back (v : Int8) : ScalarBack o .byte (.byte v) (Encode.integer v.toInt) := by
  refine ⟨?_, rfl, integer_formed _⟩
  have hfits : Fits 8 v.toInt := ⟨v.le_toInt, v.toInt_lt⟩
  simp only [Encode.integer, scalar, whole_within_int_digits _ (by decide) hfits, Except.map, Int8.ofInt_toInt]
  rfl

theorem short_back (v : Int16) : ScalarBack o .short (.short v) (Encode.integer v.toInt) := by
  refine ⟨?_, rfl, integer_formed _⟩
  have hfits : Fits 16 v.toInt := ⟨v.le_toInt, v.toInt_lt⟩
  simp only [Encode.integer, scalar, whole_within_int_digits _ (by decide) hfits, Except.map, Int16.ofInt_toInt]
  rfl

theorem integer_back (v : Int32) : ScalarBack o .integer (.integer v) (Encode.integer v.toInt) := by
  refine ⟨?_, rfl, integer_formed _⟩
  have hfits : Fits 32 v.toInt := ⟨v.le_toInt, v.toInt_lt⟩
  simp only [Encode.integer, scalar, whole_within_int_digits _ (by decide) hfits, Except.map, Int32.ofInt_toInt]
  rfl

theorem long_back (v : Int64) : ScalarBack o .long (.long v) (Encode.integer v.toInt) := by
  refine ⟨?_, rfl, integer_formed _⟩
  have hfits : Fits 64 v.toInt := ⟨v.le_toInt, v.toInt_lt⟩
  have hwhole : whole .long (String.ofList (intDigits v.toInt)) = .ok v.toInt := by
    rw [whole, long_int_digits hfits]
  simp only [Encode.integer, scalar, hwhole, Except.map, Int64.ofInt_toInt]
  rfl

theorem decimal_back (d : Decimal) : ScalarBack o (.decimal d.precision d.scale) (.decimal d) (.num d.text) := by
  obtain ⟨n, hn, -⟩ := d.text_numeral
  refine ⟨?_, rfl, fun p => ?_⟩
  · simp only [scalar, Decimal.of_literal_text]
    rfl
  · rw [Decimal.text, ← hn]
    exact .num n

theorem present_of_ne {s : String} (o : Options) (t : DataType) (h : s ≠ "") : isNullFor o t (.str s) = false := by
  have hempty : s.isEmpty = false := by
    rw [Bool.eq_false_iff, ne_eq, String.isEmpty_iff]
    exact h
  rw [isNullFor, hempty]
  rfl

theorem date_back {days : Int32} (h : Encode.scalar .date (.date days) = .ok token) :
    ScalarBack o .date (.date days) token := by
  obtain ⟨text, htext, rfl⟩ := map_ok_inv h
  have hread := date_text htext
  have hne : text ≠ "" := by
    rintro rfl
    cases hread
  refine ⟨?_, present_of_ne o _ hne, fun _ => .str text⟩
  simp only [scalar, hread, Except.map, Int32.ofInt_toInt]
  rfl

theorem timestamp_back {micros : Int64} (h : Encode.scalar .timestamp (.timestamp micros) = .ok token) :
    ScalarBack o .timestamp (.timestamp micros) token := by
  obtain ⟨text, htext, rfl⟩ := map_ok_inv h
  have hread := timestamp_text htext
  have hne : text ≠ "" := by
    rintro rfl
    cases hread
  refine ⟨?_, present_of_ne o _ hne, fun _ => .str text⟩
  simp only [scalar, hread, Except.map, Int64.ofInt_toInt]
  rfl

/-- Bytes come back, unless they are none and the empty string means null. -/
theorem binary_back {bytes : List UInt8} (h : o.emptyStringAsNull = true → bytes ≠ []) :
    ScalarBack o .binary (.binary bytes) (.str (Encode.bytesText bytes)) := by
  have hutf8 : (Encode.bytesText bytes).toUTF8.data.toList = Text.Base64.encode bytes :=
    Text.Base64.utf8_of_ascii (Text.Base64.encode_ascii bytes)
  refine ⟨?_, ?_, fun _ => .str _⟩
  · simp only [scalar, hutf8, Text.Base64.decode_encode]
    rfl
  · by_cases hbytes : bytes = []
    · have hoption : o.emptyStringAsNull = false := by
        by_contra ho
        exact h (by simpa using ho) hbytes
      simp [isNullFor, hoption]
    · refine present_of_ne o _ ?_
      intro hempty
      have htext := congrArg String.toList hempty
      rw [Encode.bytesText, String.toList_ofList] at htext
      exact Text.Base64.encode_ne_nil hbytes (List.map_eq_nil_iff.mp htext)

section Reals

open Floating (ofDecimal nan infinity)

variable {f : Format}

theorem real_formed (l : Layout) (x : Floating f) (p : List String → Prop) : Formed p (Encode.real l x) := by
  unfold Encode.real
  split
  · obtain ⟨n, hn, -⟩ := Floating.finite_text_numeral l x
    rw [← hn]
    exact .num n
  split
  · exact .str _
  · exact .str _

theorem real_present (o : Options) (t : DataType) (l : Layout) (x : Floating f) :
    isNullFor o t (Encode.real l x) = false := by
  unfold Encode.real
  split
  · rfl
  repeat' split
  all_goals rfl

theorem any_real_back (t : DataType) (l : Layout) {x : Floating f} (h : o.strictNumbers = true → x.isFinite = true) :
    anyReal o t (Encode.real l x) = .ok (if x.isFinite then
        ofDecimal x.isNegative (x.shortest l.tie).significand (x.shortest l.tie).exponent
      else if x.isNaN then nan else infinity x.isNegative) := by
  unfold Encode.real
  by_cases hx : x.isFinite = true
  · obtain ⟨n, hn, hread⟩ := Floating.finite_text_numeral l x
    rw [if_pos hx, if_pos hx, anyReal, real, String.toList_ofList, ← hn, hread, Option.getD_some]
  have hstrict : o.strictNumbers = false := by
    by_contra ho
    exact hx (h (by simpa using ho))
  have hword (s : String) : anyReal o t (.str s) = realWord o t s := rfl
  rw [if_neg hx, if_neg hx]
  split
  · rw [hword, realWord, hstrict]
    rfl
  · rw [hword, realWord, hstrict]
    cases x.isNegative <;> rfl

theorem infinity_self (hf : f.Proper) {x : Floating f} (hfinite : ¬ x.isFinite = true) (hnan : ¬ x.isNaN = true) :
    infinity x.isNegative = x := by
  have hmagnitude : x.magnitude = f.infinityBits := by
    simp only [Floating.isFinite, Floating.isNaN, decide_eq_true_eq] at hfinite hnan
    omega
  rw [infinity, ← hmagnitude, Floating.pack_self hf]

theorem double_back {x : Double} (h : o.strictNumbers = true → x.isFinite = true) :
    ScalarBack o .double (.double x) (Encode.real .recordDouble x) := by
  refine ⟨?_, real_present o _ _ x, real_formed _ x⟩
  have hreread : Value.reread (.double x) = .double x.quiet := rfl
  have hscalar (v : Json) : scalar o .double v = (anyReal o .double v).map fun x => .double x := rfl
  rw [hscalar, any_real_back _ _ h, hreread]
  refine congrArg (fun y => Except.ok (Value.double y)) ?_
  by_cases hx : x.isFinite = true
  · rw [if_pos hx, Floating.of_decimal_shortest Format.double_proper _ hx, Floating.quiet_finite hx]
  rw [if_neg hx, Floating.quiet]
  split
  · rfl
  · next hnan => exact infinity_self Format.double_proper hx hnan

theorem float_back {x : Single} (h : o.strictNumbers = true → x.isFinite = true) :
    ScalarBack o .float (.float x) (Encode.real .recordSingle x) := by
  refine ⟨?_, real_present o _ _ x, real_formed _ x⟩
  have hreread : Value.reread (.float x) = .float x.reread := rfl
  have hscalar (v : Json) : scalar o .float v = (anyReal o .float v).map fun x => .float x.convert := rfl
  rw [hscalar, any_real_back _ _ h, hreread]
  refine congrArg (fun y => Except.ok (Value.float y)) ?_
  unfold Floating.reread
  by_cases hx : x.isFinite = true
  · rw [if_pos hx, if_pos hx]
    rfl
  rw [if_neg hx, if_neg hx, Floating.quiet]
  split
  · decide
  · next hnan =>
    have hself := infinity_self Format.single_proper hx hnan
    have hconvert (negative : Bool) : (infinity negative : Double).convert = (infinity negative : Single) := by
      cases negative <;> decide
    rw [hconvert, hself]

end Reals

end Decode

end TypedRecords
