import TypedRecords.Proofs.Decimal.Literal
import TypedRecords.Proofs.Json.Numeral
/-!
# Decimals round trip

The text of a decimal is a numeral without exponent, and read at the same precision and scale it is the decimal
again.
-/

namespace TypedRecords

open Text (isDigit digitsOf digitsValue padDigits natOfDigits?)
open Json (Numeral IsRun)
open Json.Numeral (signChars fractionChars exponentChars)

namespace Literal

variable {ds cs : List Char} {c : Char}

theorem split_point_fraction (h : ds.all isDigit = true) (cs : List Char) :
    splitPoint (ds ++ fractionChars cs) = (ds, cs) := by
  have hpoint : ∀ c ∈ ds, (c != '.') = true := fun c hc => by
    simpa using (digit_no_mark (List.all_eq_true.mp h c hc)).2
  cases cs with
  | nil => rw [fractionChars, List.isEmpty_nil, if_pos rfl, List.append_nil, split_point_none h]
  | cons c cs =>
    rw [fractionChars, List.isEmpty_cons, if_neg (by simp), splitPoint,
      List.takeWhile_append_of_pos hpoint, List.dropWhile_append_of_pos hpoint]
    simp

theorem numeral_chars (n : Numeral) (hexp : n.exponent = none) :
    n.chars = signChars n.negative ++ (n.whole ++ fractionChars n.fraction) := by
  rw [Numeral.chars, hexp, exponentChars, List.append_nil, List.append_assoc]

theorem numeral_no_mark (n : Numeral) (hexp : n.exponent = none) :
    n.chars.all (fun c => !isExponentMark c) = true := by
  have hdigit {ds : List Char} (h : ds.all isDigit = true) : ∀ c ∈ ds, isExponentMark c = false :=
    fun c hc => (digit_no_mark (List.all_eq_true.mp h c hc)).1
  rw [numeral_chars n hexp, List.all_eq_true]
  intro c hc
  rw [Bool.not_eq_true']
  rcases List.mem_append.mp hc with hc | hc
  · cases hneg : n.negative <;> rw [hneg] at hc
    · contradiction
    · obtain rfl := List.mem_singleton.mp hc
      rfl
  rcases List.mem_append.mp hc with hc | hc
  · exact hdigit n.whole_run.2 c hc
  · unfold fractionChars at hc
    split at hc
    · contradiction
    rcases List.mem_cons.mp hc with rfl | hc
    · rfl
    · exact hdigit n.fraction_all c hc

theorem split_sign_numeral (n : Numeral) (hexp : n.exponent = none) :
    splitSign n.chars = (n.negative, n.whole ++ fractionChars n.fraction) := by
  obtain ⟨hne, hall⟩ := n.whole_run
  rw [numeral_chars n hexp]
  cases n.negative with
  | true => rfl
  | false =>
    refine split_sign_digit ?_
    cases hw : n.whole with
    | nil => exact absurd hw hne
    | cons c cs =>
      rw [hw] at hall
      exact (Bool.and_eq_true_iff.mp hall).1

theorem parse_numeral (n : Numeral) (hexp : n.exponent = none)
    (hvalue : digitsValue (n.whole ++ n.fraction) < 10 ^ maxPrecision) (hplaces : Fits 32 (n.fraction.length : Int)) :
    parse? (String.ofList n.chars) =
      some ⟨if n.negative then -(digitsValue (n.whole ++ n.fraction) : Int) else digitsValue (n.whole ++ n.fraction),
        n.fraction.length - 0⟩ := by
  obtain ⟨hne, hall⟩ := n.whole_run
  have hrun : (n.whole ++ n.fraction).all isDigit = true := by
    rw [List.all_append, hall, n.fraction_all]
    rfl
  have hsplit : splitExponent? (String.ofList n.chars).toList = some (n.chars, 0) := by
    rw [String.toList_ofList, split_exponent_none (numeral_no_mark n hexp)]
  exact parse_parts hsplit (split_sign_numeral n hexp) (split_point_fraction hall n.fraction)
    (Text.nat_of_digits_some (by simp [hne]) hrun) (fits_wide (by omega)) hplaces (by rwa [Int.sub_zero])

end Literal

namespace Decimal

theorem text_numeral (d : Decimal) : ∃ n : Numeral, n.chars = d.chars ∧ n.exponent = none ∧
    n.negative = decide (d.unscaled < 0) ∧ digitsValue (n.whole ++ n.fraction) = d.unscaled.natAbs ∧
      n.fraction.length = d.scale := by
  have hall : (padDigits (d.scale + 1) (digitsOf d.unscaled.natAbs)).all isDigit = true :=
    Text.pad_digits_all _ (Text.digits_of_all _)
  have hvalue : digitsValue (padDigits (d.scale + 1) (digitsOf d.unscaled.natAbs)) = d.unscaled.natAbs := by
    rw [Text.digits_value_pad, Text.digits_value_digits_of]
  have hlength : d.scale + 1 ≤ (padDigits (d.scale + 1) (digitsOf d.unscaled.natAbs)).length := by
    rw [padDigits, List.length_append, List.length_replicate]
    omega
  have hzero := Text.pad_digits_lead (n := d.unscaled.natAbs) (Nat.succ_pos d.scale)
  obtain ⟨n, hchars, hsign, hexp, hdigits, hcount⟩ :=
    Json.split_numeral (decide (d.unscaled < 0)) hall (Nat.lt_of_succ_le hlength) hzero
  refine ⟨n, ?_, hexp, hsign, hdigits ▸ hvalue, hcount⟩
  rw [hchars, chars, List.append_assoc]
  simp [signChars]

theorem parse_text (d : Decimal) : Literal.parse? d.text = some ⟨d.unscaled, d.scale⟩ := by
  obtain ⟨n, hchars, hexp, hsign, hvalue, hcount⟩ := d.text_numeral
  have hlt : d.unscaled.natAbs < 10 ^ maxPrecision :=
    Nat.lt_of_lt_of_le d.unscaled_lt (Nat.pow_le_pow_right (by decide) d.precision_le)
  have hscale : d.scale ≤ maxPrecision := Nat.le_trans d.scale_le d.precision_le
  have hfits : Fits 32 (n.fraction.length : Int) := by
    rw [hcount, Fits]
    simp only [maxPrecision] at hscale
    norm_num
    omega
  have hparse := Literal.parse_numeral n hexp (hvalue ▸ hlt) hfits
  have hunscaled : (if n.negative then -(digitsValue (n.whole ++ n.fraction) : Int)
      else digitsValue (n.whole ++ n.fraction)) = d.unscaled := by
    rw [hsign, hvalue, Text.signed_nat_abs]
  rw [hunscaled, hcount, hchars, Int.sub_zero] at hparse
  exact hparse

theorem of_literal_text (d : Decimal) : ofLiteral d.text d.precision d.scale = .ok d := by
  have hrescale : (⟨d.unscaled, d.scale⟩ : Literal).rescale d.scale = .ok d.unscaled := if_pos rfl
  exact of_literal_iff.mpr ⟨_, _, d.parse_text, hrescale, of_unscaled_iff.mpr ⟨rfl, rfl, rfl⟩⟩

end Decimal

end TypedRecords
