import Mathlib.Algebra.Field.Rat
import Mathlib.Tactic.FieldSimp
import Mathlib.Tactic.Ring
import TypedRecords.Proofs.Decimal.RoundTrip
/-!
# Written numbers

The texts that are read as literals, by their parts, and the number that such a text states. A text is read exactly when
it is written like this and its digits, its exponent and its scale fit their words; a number in a JSON text always is.
-/

namespace TypedRecords

open Text
open Json (IsRun)
open Literal (isExponentMark)

def Literal.value (l : Literal) : ℚ := l.unscaled * 10 ^ (-l.scale)

/-- A number as a text may state it. There is a digit on one side of the point at least; the sign, the point and the
exponent may be left out. -/
@[ext]
structure WrittenNumber where
  /-- Whether the sign is a minus. -/
  sign : Option Bool
  whole : List Char
  fraction : Option (List Char)
  /-- The mark, the sign and the digits. -/
  exponent : Option (Char × Option Bool × List Char)
  digits_run : IsRun (whole ++ fraction.getD [])
  exponent_run : ∀ e ∈ exponent, isExponentMark e.1 = true ∧ IsRun e.2.2

namespace WrittenNumber

def signChars : Option Bool → List Char
  | none => []
  | some true => ['-']
  | some false => ['+']

def signed (sign : Option Bool) (n : Nat) : Int := if sign = some true then -(n : Int) else n

def fractionChars : Option (List Char) → List Char
  | none => []
  | some ds => '.' :: ds

def exponentChars : Option (Char × Option Bool × List Char) → List Char
  | none => []
  | some (mark, sign, ds) => mark :: (signChars sign ++ ds)

def mantissaChars (w : WrittenNumber) : List Char := signChars w.sign ++ (w.whole ++ fractionChars w.fraction)

def chars (w : WrittenNumber) : List Char := w.mantissaChars ++ exponentChars w.exponent

def text (w : WrittenNumber) : String := String.ofList w.chars

def fractionDigits (w : WrittenNumber) : List Char := w.fraction.getD []

def digits (w : WrittenNumber) : List Char := w.whole ++ w.fractionDigits

def power (w : WrittenNumber) : Int :=
  match w.exponent with
  | none => 0
  | some (_, sign, ds) => signed sign (digitsValue ds)

/-- The number that the text states: its whole part and its fraction, under its sign, times a power of ten. -/
def value (w : WrittenNumber) : ℚ :=
  (if w.sign = some true then -1 else 1) *
    (digitsValue w.whole + digitsValue w.fractionDigits / 10 ^ w.fractionDigits.length) * 10 ^ w.power

def literal (w : WrittenNumber) : Literal :=
  ⟨signed w.sign (digitsValue w.digits), w.fractionDigits.length - w.power⟩

structure InRange (w : WrittenNumber) : Prop where
  digits : Fits 128 (digitsValue w.digits : Int)
  power : Fits 32 w.power
  places : Fits 32 (w.fractionDigits.length : Int)
  scale : Fits 32 (w.fractionDigits.length - w.power)

end WrittenNumber

open WrittenNumber

namespace Literal

variable {cs ds rest : List Char} {c : Char} {negative : Bool} {w : WrittenNumber}

section Reading

theorem sign_chars_no_mark (sign : Option Bool) : (signChars sign).all (fun c => !isExponentMark c) = true := by
  rcases sign with _ | _ | _
  all_goals rfl

theorem run_no_mark (h : ds.all isDigit = true) : ds.all (fun c => !isExponentMark c) = true := by
  rw [List.all_eq_true] at h ⊢
  intro c hc
  rw [(digit_no_mark (h c hc)).1]
  rfl

theorem whole_all (w : WrittenNumber) : w.whole.all isDigit = true := by
  have hall := w.digits_run.2
  rw [List.all_append, Bool.and_eq_true] at hall
  exact hall.1

theorem mantissa_no_mark (w : WrittenNumber) : w.mantissaChars.all (fun c => !isExponentMark c) = true := by
  have hdigits := run_no_mark w.digits_run.2
  rw [List.all_append, Bool.and_eq_true] at hdigits
  rw [mantissaChars, List.all_append, List.all_append, sign_chars_no_mark, hdigits.1, Bool.true_and, Bool.true_and]
  cases hf : w.fraction with
  | none => rfl
  | some ds =>
    rw [hf] at hdigits
    exact hdigits.2

theorem signed_of_digits_signed (sign : Option Bool) (h : IsRun ds) :
    signedOfDigits? (signChars sign ++ ds) = some (signed sign (digitsValue ds)) := by
  have hds := nat_of_digits_some h.1 h.2
  rcases sign with _ | _ | _
  · rw [signChars, List.nil_append, signed_of_digits_unsigned h.2, hds]
    rfl
  · simp [signChars, signedOfDigits?, hds, signed]
  · simp [signChars, signedOfDigits?, hds, signed]

theorem chars_drop_mantissa (w : WrittenNumber) :
    w.chars.dropWhile (fun c => !isExponentMark c) = exponentChars w.exponent := by
  rw [chars, List.dropWhile_append_of_pos (List.all_eq_true.mp (mantissa_no_mark w))]
  cases he : w.exponent with
  | none => rfl
  | some e =>
    obtain ⟨hmark, -⟩ := w.exponent_run e he
    apply List.dropWhile_cons_of_neg
    rw [hmark]
    decide

theorem chars_take_mantissa (w : WrittenNumber) :
    w.chars.takeWhile (fun c => !isExponentMark c) = w.mantissaChars := by
  have hsplit : w.chars.takeWhile (fun c => !isExponentMark c) ++ w.chars.dropWhile (fun c => !isExponentMark c) =
      w.mantissaChars ++ exponentChars w.exponent := List.takeWhile_append_dropWhile
  rw [chars_drop_mantissa] at hsplit
  exact List.append_cancel_right hsplit

theorem split_exponent_written (w : WrittenNumber) :
    splitExponent? w.chars = (fitting? 32 w.power).map (w.mantissaChars, ·) := by
  rw [splitExponent?, chars_drop_mantissa, chars_take_mantissa]
  cases he : w.exponent with
  | none =>
    have hnil : w.mantissaChars = w.chars := by
      rw [chars, he, exponentChars, List.append_nil]
    have hzero : fitting? 32 0 = some 0 := by decide
    rw [hnil, power, he]
    dsimp only
    rw [hzero]
    rfl
  | some e =>
    obtain ⟨mark, sign, ds⟩ := e
    obtain ⟨-, hrun⟩ := w.exponent_run _ he
    rw [exponentChars]
    dsimp only
    rw [signed_of_digits_signed sign hrun, power, he]
    rfl

theorem split_sign_written (sign : Option Bool) (hcs : ∀ c ∈ cs.head?, c ≠ '-' ∧ c ≠ '+') :
    splitSign (signChars sign ++ cs) = (decide (sign = some true), cs) := by
  rcases sign with _ | _ | _
  · rw [signChars, List.nil_append]
    unfold splitSign
    split
    · exact absurd rfl (hcs '-' rfl).1
    · exact absurd rfl (hcs '+' rfl).2
    · rfl
  · rfl
  · rfl

theorem split_point_written (h : ds.all isDigit = true) (fraction : Option (List Char)) :
    splitPoint (ds ++ WrittenNumber.fractionChars fraction) = (ds, fraction.getD []) := by
  cases fraction with
  | none => rw [WrittenNumber.fractionChars, List.append_nil, split_point_none h, Option.getD_none]
  | some cs =>
    have hpoint : ∀ c ∈ ds, (c != '.') = true := fun c hc => by
      simpa using (digit_no_mark (List.all_eq_true.mp h c hc)).2
    rw [WrittenNumber.fractionChars, splitPoint, List.takeWhile_append_of_pos hpoint,
      List.dropWhile_append_of_pos hpoint]
    simp

theorem mantissa_head (w : WrittenNumber) :
    ∀ c ∈ (w.whole ++ WrittenNumber.fractionChars w.fraction).head?, c ≠ '-' ∧ c ≠ '+' := by
  obtain ⟨hne, hall⟩ := w.digits_run
  intro c hc
  cases hw : w.whole with
  | cons d ds =>
    rw [hw] at hc hall
    obtain rfl := Option.some.inj hc
    rw [List.cons_append, List.all_cons, Bool.and_eq_true] at hall
    exact not_is_digit_sign hall.1
  | nil =>
    cases hf : w.fraction with
    | none => simp [hw, hf] at hne
    | some cs =>
      rw [hw, hf] at hc
      obtain rfl := Option.some.inj hc
      decide

end Reading

theorem fitting_iff {bits : Nat} {z u : Int} : fitting? bits z = some u ↔ Fits bits z ∧ u = z := by
  constructor
  · exact fitting_inv
  · rintro ⟨h, rfl⟩
    exact fitting_of_fits h

theorem parse_written_iff (w : WrittenNumber) {l : Literal} : parse? w.text = some l ↔ w.InRange ∧ l = w.literal := by
  obtain ⟨hne, hall⟩ := w.digits_run
  have hsign := split_sign_written w.sign (mantissa_head w)
  have hpoint := split_point_written (whole_all w) w.fraction
  have hdigits : natOfDigits? (w.whole ++ w.fractionDigits) = some (digitsValue w.digits) :=
    nat_of_digits_some hne hall
  have hsigned : (if decide (w.sign = some true) = true then -(digitsValue w.digits : Int) else digitsValue w.digits) =
      signed w.sign (digitsValue w.digits) := by
    simp only [signed, decide_eq_true_eq]
  simp only [parse?, WrittenNumber.text, String.toList_ofList, split_exponent_written, Option.bind_eq_bind,
    Option.bind_eq_some_iff, Option.map_eq_some_iff, fitting_iff, Prod.exists]
  constructor
  · rintro ⟨mantissa, e, ⟨_, ⟨hpower, rfl⟩, heq⟩, h⟩
    obtain ⟨rfl, rfl⟩ := Prod.mk.inj heq
    rw [mantissaChars, hsign] at h
    dsimp only at h
    rw [hpoint] at h
    obtain ⟨n, hn, z, ⟨hz, rfl⟩, places, ⟨hplaces, rfl⟩, scale, ⟨hscale, rfl⟩, hl⟩ := h
    obtain rfl := Option.some.inj (hdigits.symm.trans hn)
    refine ⟨⟨hz, hpower, hplaces, hscale⟩, ?_⟩
    rw [← Option.some.inj hl, hsigned]
    rfl
  · rintro ⟨⟨hz, hpower, hplaces, hscale⟩, rfl⟩
    refine ⟨w.mantissaChars, w.power, ⟨w.power, ⟨hpower, rfl⟩, rfl⟩, ?_⟩
    rw [mantissaChars, hsign]
    dsimp only
    rw [hpoint]
    refine ⟨_, hdigits, _, ⟨hz, rfl⟩, _, ⟨hplaces, rfl⟩, _, ⟨hscale, rfl⟩, ?_⟩
    rw [hsigned]
    rfl

theorem split_sign_inv (cs : List Char) : ∃ sign, cs = signChars sign ++ (splitSign cs).2 := by
  unfold splitSign
  split
  · exact ⟨some true, rfl⟩
  · exact ⟨some false, rfl⟩
  · exact ⟨none, rfl⟩

theorem split_point_inv (cs : List Char) :
    ∃ fraction, cs = (splitPoint cs).1 ++ WrittenNumber.fractionChars fraction ∧ (splitPoint cs).2 = fraction.getD [] := by
  have hsplit : cs.takeWhile (· != '.') ++ cs.dropWhile (· != '.') = cs := List.takeWhile_append_dropWhile
  cases hd : cs.dropWhile (· != '.') with
  | nil =>
    refine ⟨none, ?_, ?_⟩
    · rw [hd] at hsplit
      exact hsplit.symm
    · rw [splitPoint, hd]
      rfl
  | cons c ds =>
    have hc : c = '.' := by
      have := List.head?_dropWhile_not (· != '.') cs
      simpa [hd] using this
    refine ⟨some ds, ?_, ?_⟩
    · rw [hd, hc] at hsplit
      exact hsplit.symm
    · rw [splitPoint, hd]
      rfl

theorem signed_of_digits_run {z : Int} (h : signedOfDigits? cs = some z) : ∃ sign ds, cs = signChars sign ++ ds ∧ IsRun ds := by
  obtain ⟨ds, hne, hall, ⟨rfl, -⟩ | ⟨rfl | rfl, -⟩⟩ := signed_of_digits_inv h
  · exact ⟨some true, ds, rfl, hne, hall⟩
  · exact ⟨some false, ds, rfl, hne, hall⟩
  · exact ⟨none, cs, rfl, hne, hall⟩

theorem split_exponent_inv {mantissa : List Char} {e : Int} (h : splitExponent? cs = some (mantissa, e)) :
    ∃ exponent, cs = mantissa ++ exponentChars exponent ∧
      ∀ x ∈ exponent, isExponentMark x.1 = true ∧ IsRun x.2.2 := by
  have hsplit : cs.takeWhile (fun c => !isExponentMark c) ++ cs.dropWhile (fun c => !isExponentMark c) = cs :=
    List.takeWhile_append_dropWhile
  unfold splitExponent? at h
  split at h
  · obtain ⟨rfl, -⟩ := Prod.mk.inj (Option.some.inj h)
    exact ⟨none, (List.append_nil _).symm, by simp⟩
  · next c exponent hd =>
    obtain ⟨_, hz, heq⟩ := Option.map_eq_some_iff.mp h
    obtain ⟨rfl, -⟩ := Prod.mk.inj heq
    obtain ⟨z, hz, -⟩ := Option.bind_eq_some_iff.mp hz
    obtain ⟨sign, ds, rfl, hrun⟩ := signed_of_digits_run hz
    have hc : isExponentMark c = true := by
      have := List.head?_dropWhile_not (fun c => !isExponentMark c) cs
      simpa [hd] using this
    refine ⟨some (c, sign, ds), ?_, ?_⟩
    · rw [hd] at hsplit
      exact hsplit.symm
    · rintro x hx
      obtain rfl := Option.some.inj hx
      exact ⟨hc, hrun⟩

theorem parse_text_written {text : String} {l : Literal} (h : parse? text = some l) : ∃ w : WrittenNumber, w.text = text := by
  simp only [parse?, Option.bind_eq_bind, Option.bind_eq_some_iff, Prod.exists] at h
  obtain ⟨mantissa, e, hexp, n, hn, -⟩ := h
  obtain ⟨exponent, htext, hrun⟩ := split_exponent_inv hexp
  obtain ⟨sign, hmantissa⟩ := split_sign_inv mantissa
  obtain ⟨fraction, hdigits, hfraction⟩ := split_point_inv (splitSign mantissa).2
  obtain ⟨hne, hall, -⟩ := nat_of_digits_inv hn
  rw [hfraction] at hne hall
  have hdigits_run : IsRun ((splitPoint (splitSign mantissa).2).1 ++ fraction.getD []) := ⟨hne, hall⟩
  refine ⟨⟨sign, _, fraction, exponent, hdigits_run, hrun⟩, ?_⟩
  rw [WrittenNumber.text, chars, mantissaChars]
  dsimp only
  rw [← hdigits, ← hmantissa, ← htext, String.ofList_toList]

theorem parse_inv {text : String} {l : Literal} (h : parse? text = some l) :
    ∃ w : WrittenNumber, w.text = text ∧ w.InRange ∧ l = w.literal := by
  obtain ⟨w, rfl⟩ := parse_text_written h
  exact ⟨w, rfl, (parse_written_iff w).mp h⟩

theorem parse_fits {text : String} {l : Literal} (h : parse? text = some l) : Fits 128 l.unscaled := by
  obtain ⟨w, -, hrange, rfl⟩ := parse_inv h
  have hdigits := hrange.digits
  change Fits 128 (signed w.sign (digitsValue w.digits))
  unfold signed Fits at *
  split <;> omega

/-- No exponent is large enough for the smallest scale of a word. -/
theorem parse_scale {text : String} {l : Literal} (h : parse? text = some l) : -2 ^ 31 < l.scale ∧ l.scale < 2 ^ 31 := by
  obtain ⟨w, -, hrange, rfl⟩ := parse_inv h
  obtain ⟨-, hpower⟩ := hrange.power
  obtain ⟨-, hscale⟩ := hrange.scale
  change -2 ^ 31 < (w.fractionDigits.length - w.power : Int) ∧ (w.fractionDigits.length - w.power : Int) < 2 ^ 31
  norm_num at hpower hscale ⊢
  omega

end Literal

namespace WrittenNumber

theorem literal_value (w : WrittenNumber) : w.literal.value = w.value := by
  have hten : (10 : ℚ) ≠ 0 := by norm_num
  have hdigits : (digitsValue w.digits : ℚ) =
      10 ^ w.fractionDigits.length * digitsValue w.whole + digitsValue w.fractionDigits := by
    rw [digits, digits_value_append]
    push_cast
    rfl
  have hsigned : (signed w.sign (digitsValue w.digits) : ℚ) =
      (if w.sign = some true then -1 else 1) * digitsValue w.digits := by
    unfold signed
    split
    · push_cast
      ring
    · push_cast
      ring
  have hscale : (10 : ℚ) ^ (-(w.fractionDigits.length - w.power : Int)) =
      10 ^ w.power / 10 ^ w.fractionDigits.length := by
    rw [neg_sub, zpow_sub₀ hten, zpow_natCast]
  rw [literal, Literal.value, hsigned, hdigits, hscale, value]
  field_simp

end WrittenNumber

theorem Literal.parse_value {w : WrittenNumber} {l : Literal} (h : parse? w.text = some l) : l.value = w.value := by
  obtain ⟨-, rfl⟩ := (parse_written_iff w).mp h
  exact w.literal_value

namespace Json

variable {cs t rest : List Char}

theorem whole_part_run (h : wholePart cs = some (t, rest)) : cs = t ++ rest ∧ IsRun t := by
  have hsplit := span_digits_append cs
  refine ⟨?_, (whole_part_sound h).1⟩
  unfold wholePart at h
  split at h
  · contradiction
  · contradiction
  · rw [Option.some.inj h] at hsplit
    exact hsplit.symm

theorem fraction_part_run (h : fractionPart cs = some (t, rest)) :
    ∃ fraction, cs = WrittenNumber.fractionChars fraction ++ rest ∧ (fraction.getD []).all isDigit = true := by
  unfold fractionPart at h
  split at h
  · next cs =>
    have hsplit := span_digits_append cs
    have hall := span_digits_all cs
    split at h
    · contradiction
    · next ds r _ heq =>
      rw [heq] at hsplit hall
      obtain ⟨-, rfl⟩ := Prod.mk.inj (Option.some.inj h)
      exact ⟨some ds, congrArg ('.' :: ·) hsplit.symm, hall⟩
  · obtain ⟨-, rfl⟩ := Prod.mk.inj (Option.some.inj h)
    exact ⟨none, rfl, rfl⟩

theorem exponent_part_run (h : exponentPart cs = some (t, rest)) :
    ∃ exponent, cs = WrittenNumber.exponentChars exponent ++ rest ∧
      ∀ e ∈ exponent, isExponentMark e.1 = true ∧ IsRun e.2.2 := by
  unfold exponentPart at h
  split at h
  · next c cs =>
    split at h
    · next hc =>
      have hmark : isExponentMark c = true := by
        rcases hc with rfl | rfl
        all_goals rfl
      split at h
      next sign digits hsign =>
      have hsplit := span_digits_append digits
      have hall := span_digits_all digits
      split at h
      · contradiction
      · next ds r hne heq =>
        rw [heq] at hsplit hall
        obtain ⟨-, rfl⟩ := Prod.mk.inj (Option.some.inj h)
        obtain ⟨s, rfl⟩ : ∃ s, cs = signChars s ++ digits := by
          split at hsign
          · exact ⟨some true, congrArg ('-' :: ·) (Prod.mk.inj hsign).2⟩
          · exact ⟨some false, congrArg ('+' :: ·) (Prod.mk.inj hsign).2⟩
          · exact ⟨none, (Prod.mk.inj hsign).2⟩
        refine ⟨some (c, s, ds), ?_, ?_⟩
        · rw [← hsplit, WrittenNumber.exponentChars, List.cons_append, List.append_assoc]
        · rintro e he
          obtain rfl := Option.some.inj he
          exact ⟨hmark, hne, hall⟩
    · obtain ⟨-, rfl⟩ := Prod.mk.inj (Option.some.inj h)
      exact ⟨none, rfl, by simp⟩
  · obtain ⟨-, rfl⟩ := Prod.mk.inj (Option.some.inj h)
    exact ⟨none, rfl, by simp⟩

theorem number_text_written (h : numberText cs = some (t, rest)) : ∃ w : WrittenNumber, cs = w.chars ++ rest := by
  unfold numberText at h
  split at h
  next sign cs' hsign =>
  simp only [bind, Option.bind_eq_some_iff, Prod.exists, pure, Option.some.injEq, Prod.mk.injEq] at h
  obtain ⟨whole, r₁, hw, _, r₂, hf, _, r₃, he, -, rfl⟩ := h
  obtain ⟨rfl, hne, hall⟩ := whole_part_run hw
  obtain ⟨fraction, rfl, hfraction⟩ := fraction_part_run hf
  obtain ⟨exponent, rfl, hexponent⟩ := exponent_part_run he
  obtain ⟨s, hs⟩ : ∃ s, cs = signChars s ++ (whole ++ (WrittenNumber.fractionChars fraction ++
      (WrittenNumber.exponentChars exponent ++ r₃))) := by
    split at hsign
    · exact ⟨some true, congrArg ('-' :: ·) (Prod.mk.inj hsign).2⟩
    · exact ⟨none, (Prod.mk.inj hsign).2⟩
  have hdigits : IsRun (whole ++ fraction.getD []) := by
    constructor
    · intro hempty
      exact hne (List.append_eq_nil_iff.mp hempty).1
    · rw [List.all_append, hall, hfraction]
      rfl
  refine ⟨⟨s, whole, fraction, exponent, hdigits, hexponent⟩, ?_⟩
  rw [hs, WrittenNumber.chars, mantissaChars]
  simp only [List.append_assoc]

theorem number_written {text : String} {v : Json} (h : number? text = some v) : ∃ w : WrittenNumber, w.text = text := by
  unfold number? at h
  split at h
  · next literal hliteral =>
    obtain ⟨w, hw⟩ := number_text_written hliteral
    refine ⟨w, ?_⟩
    rw [WrittenNumber.text, ← List.append_nil w.chars, ← hw, String.ofList_toList]
  · contradiction

end Json

end TypedRecords
