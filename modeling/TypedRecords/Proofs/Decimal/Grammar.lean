import TypedRecords.Proofs.Decimal.Words
/-!
# The grammar of literals

No text is a written number in two ways: the first exponent mark, the sign in front and the first point tell the parts
from each other. A text is read as a literal exactly when it is a written number and the parts fit their words, and then
the literal is the number that is written.
-/

namespace TypedRecords

open Text
open Json (IsRun)
open Literal (splitSign splitPoint whole_all chars_drop_mantissa chars_take_mantissa mantissa_head
  split_sign_written split_point_written)

namespace WrittenNumber

variable {s t : Option Bool} {cs ds : List Char} {f g : Option (List Char)}
  {e e' : Option (Char × Option Bool × List Char)} {w v : WrittenNumber}

theorem sign_chars_injective (h : signChars s = signChars t) : s = t := by
  rcases s with _ | _ | _ <;> rcases t with _ | _ | _ <;> simp_all [signChars]

theorem fraction_chars_injective (h : fractionChars f = fractionChars g) : f = g := by
  cases f with
  | none =>
    cases g with
    | none => rfl
    | some ds => contradiction
  | some cs =>
    cases g with
    | none => contradiction
    | some ds => rw [(List.cons.inj h).2]

theorem sign_append_injective (hcs : ∀ c ∈ cs.head?, c ≠ '-' ∧ c ≠ '+') (hds : ∀ c ∈ ds.head?, c ≠ '-' ∧ c ≠ '+')
    (h : signChars s ++ cs = signChars t ++ ds) : s = t ∧ cs = ds := by
  have hsplit := congrArg splitSign h
  rw [split_sign_written s hcs, split_sign_written t hds] at hsplit
  obtain ⟨-, rfl⟩ := Prod.mk.inj hsplit
  exact ⟨sign_chars_injective (List.append_cancel_right h), rfl⟩

theorem point_append_injective (hcs : cs.all isDigit = true) (hds : ds.all isDigit = true)
    (h : cs ++ fractionChars f = ds ++ fractionChars g) : cs = ds ∧ f = g := by
  have hsplit := congrArg splitPoint h
  rw [split_point_written hcs, split_point_written hds] at hsplit
  obtain ⟨rfl, -⟩ := Prod.mk.inj hsplit
  exact ⟨rfl, fraction_chars_injective (List.append_cancel_left h)⟩

theorem digits_head_no_sign (h : ds.all isDigit = true) : ∀ c ∈ ds.head?, c ≠ '-' ∧ c ≠ '+' := by
  intro c hc
  exact not_is_digit_sign (List.all_eq_true.mp h c (List.mem_of_mem_head? hc))

theorem exponent_chars_injective (he : ∀ x ∈ e, IsRun x.2.2) (he' : ∀ x ∈ e', IsRun x.2.2)
    (h : exponentChars e = exponentChars e') : e = e' := by
  cases e with
  | none =>
    cases e' with
    | none => rfl
    | some x => contradiction
  | some x =>
    cases e' with
    | none => contradiction
    | some y =>
      obtain ⟨hmark, hrest⟩ := List.cons.inj h
      obtain ⟨hsign, hdigits⟩ := sign_append_injective (digits_head_no_sign (he x rfl).2)
        (digits_head_no_sign (he' y rfl).2) hrest
      rw [Prod.ext hmark (Prod.ext hsign hdigits)]

theorem chars_injective (h : w.chars = v.chars) : w = v := by
  have hmantissa : w.mantissaChars = v.mantissaChars := by
    rw [← chars_take_mantissa w, h, chars_take_mantissa]
  have hexponent : exponentChars w.exponent = exponentChars v.exponent := by
    rw [← chars_drop_mantissa w, h, chars_drop_mantissa]
  obtain ⟨hsign, hbody⟩ := sign_append_injective (mantissa_head w) (mantissa_head v) hmantissa
  obtain ⟨hwhole, hfraction⟩ := point_append_injective (whole_all w) (whole_all v) hbody
  have hmarked := exponent_chars_injective (fun x hx => (w.exponent_run x hx).2) (fun x hx => (v.exponent_run x hx).2)
    hexponent
  exact WrittenNumber.ext hsign hwhole hfraction hmarked

theorem text_injective (h : w.text = v.text) : w = v := by
  apply chars_injective
  have hchars := congrArg String.toList h
  rwa [text, text, String.toList_ofList, String.toList_ofList] at hchars

theorem in_range_iff (w : WrittenNumber) :
    w.InRange ↔ digitsValue w.digits ≤ 2 ^ 127 - 1 ∧ Fits 32 w.power ∧ Fits 32 w.fractionDigits.length ∧
      Fits 32 (w.fractionDigits.length - w.power) := by
  have hword : Fits 128 (digitsValue w.digits : Int) ↔ digitsValue w.digits ≤ 2 ^ 127 - 1 := by
    unfold Fits
    norm_num
    omega
  constructor
  · rintro ⟨hdigits, hpower, hplaces, hscale⟩
    exact ⟨hword.mp hdigits, hpower, hplaces, hscale⟩
  · rintro ⟨hdigits, hpower, hplaces, hscale⟩
    exact ⟨hword.mpr hdigits, hpower, hplaces, hscale⟩

end WrittenNumber

namespace Literal

theorem parse_some_iff {text : String} : (∃ l, parse? text = some l) ↔ ∃ w : WrittenNumber, w.text = text ∧ w.InRange := by
  constructor
  · rintro ⟨l, h⟩
    obtain ⟨w, htext, hrange, -⟩ := parse_inv h
    exact ⟨w, htext, hrange⟩
  · rintro ⟨w, rfl, hrange⟩
    exact ⟨w.literal, (parse_written_iff w).mpr ⟨hrange, rfl⟩⟩

/-- A text is accepted exactly when it is a written number, in the one way that it can be, whose digits are at most the
largest word and whose exponent, fraction length and scale fit their words. Digit by digit in words it is accepted just
the same. The literal stands for the number that is written. -/
theorem parse_accepts_iff (text : String) :
    ((∃ l, parse? text = some l) ↔
      ∃! w : WrittenNumber, w.text = text ∧ digitsValue w.digits ≤ 2 ^ 127 - 1 ∧ Fits 32 w.power ∧
        Fits 32 w.fractionDigits.length ∧ Fits 32 (w.fractionDigits.length - w.power)) ∧
      (∀ l, Words.literal text = .ok l ↔ parse? text = some l) ∧
      ∀ l, parse? text = some l → ∀ w : WrittenNumber, w.text = text →
        (l.unscaled : ℚ) * 10 ^ (-l.scale) = w.value := by
  refine ⟨?_, fun l => Words.literal_ok_iff, ?_⟩
  · rw [parse_some_iff]
    constructor
    · rintro ⟨w, rfl, hrange⟩
      refine ⟨w, ⟨rfl, w.in_range_iff.mp hrange⟩, ?_⟩
      rintro v ⟨htext, -⟩
      exact WrittenNumber.text_injective htext
    · rintro ⟨w, ⟨rfl, hrange⟩, -⟩
      exact ⟨w, rfl, w.in_range_iff.mpr hrange⟩
  · rintro l h w rfl
    exact parse_value h

/-- The largest digits at the largest scale, without a whole part. -/
theorem parse_accepts_iff_largest :
    ∃ w : WrittenNumber, w.text = "-.170141183460469231731687303715884105727E-2147483608" ∧
      w.value = ((-170141183460469231731687303715884105727 : Int) : ℚ) * 10 ^ (-2147483647 : Int) ∧
      Words.literal w.text = .ok ⟨-170141183460469231731687303715884105727, 2147483647⟩ := by
  have hparse : parse? "-.170141183460469231731687303715884105727E-2147483608" =
      some ⟨-170141183460469231731687303715884105727, 2147483647⟩ := by decide
  obtain ⟨haccepts, hwords, hvalue⟩ := parse_accepts_iff "-.170141183460469231731687303715884105727E-2147483608"
  obtain ⟨w, ⟨htext, -⟩, -⟩ := haccepts.mp ⟨_, hparse⟩
  refine ⟨w, htext, (hvalue _ hparse w htext).symm, ?_⟩
  rw [htext]
  exact (hwords _).mpr hparse

/-- One more than the largest digits. -/
example : parse? "-.170141183460469231731687303715884105728E-2147483608" = none := by decide

/-- One place more than the largest scale. -/
example : parse? "-.170141183460469231731687303715884105727E-2147483609" = none := by decide

section Zeros

variable (places : Nat)

/-- A zero with so many places, times ten. -/
def tenZeros : WrittenNumber where
  sign := none
  whole := ['0']
  fraction := some (List.replicate places '0')
  exponent := some ('e', none, ['1'])
  digits_run := by
    refine ⟨List.cons_ne_nil _ _, ?_⟩
    rw [Option.getD_some, List.all_append, Text.zeros_all]
    rfl
  exponent_run := by decide

theorem ten_zeros_text :
    (tenZeros places).text = String.ofList ('0' :: '.' :: (List.replicate places '0' ++ ['e', '1'])) := rfl

theorem ten_zeros_length : (tenZeros places).fractionDigits.length = places := List.length_replicate

theorem ten_zeros_digits : digitsValue (tenZeros places).digits = 0 :=
  (digits_value_append_zeros ['0'] places).trans (Nat.zero_mul _)

theorem ten_zeros_power : (tenZeros places).power = 1 := rfl

/-- The number is refused for its length alone. -/
theorem ten_zeros_refused (h : ¬ Fits 32 (places : Int)) : parse? (tenZeros places).text = none := by
  rw [Option.eq_none_iff_forall_ne_some]
  intro l hparse
  obtain ⟨hrange, -⟩ := (parse_written_iff _).mp hparse
  apply h
  have hplaces := hrange.places
  rwa [ten_zeros_length] at hplaces

end Zeros

/-- The length of a fraction has a word of its own: `2 ^ 31` places are too many, although the scale, one less, has a
word. -/
theorem long_fraction_refused :
    let w := tenZeros (2 ^ 31)
    w.text = String.ofList ('0' :: '.' :: (List.replicate (2 ^ 31) '0' ++ ['e', '1'])) ∧
      digitsValue w.digits ≤ 2 ^ 127 - 1 ∧ Fits 32 w.power ∧ Fits 32 (w.fractionDigits.length - w.power) ∧
      parse? w.text = none := by
  intro w
  -- The places are counted, never written out.
  have hlength : w.fractionDigits.length = 2 ^ 31 := ten_zeros_length _
  have hpower : w.power = 1 := ten_zeros_power _
  refine ⟨ten_zeros_text _, ?_, ?_, ?_, ten_zeros_refused _ (by decide)⟩
  · rw [ten_zeros_digits]
    exact Nat.zero_le _
  · rw [hpower]
    decide
  · rw [hlength, hpower]
    decide

end Literal

end TypedRecords
